import Geck.KernelFrames
import Geck.Tallies

/-!
# The handshake of a quantum

`sem_interruption_quantum_finish` starts at one and is posted only when
`manage_interrupt` finds a process in RUNNING. Each time it finds none, one
token is lost; the second loss leaves the timer waiting for good.
-/

set_option autoImplicit false

namespace Geck.QuantumHandshake
open Geck.LabelledRuns Geck.Tallies Geck.CpuTranslation Geck.KernelState Geck.KernelThreads
open Geck.KernelFrames

/-- The timer waits for the end of the handshake and no token is left or on its way. -/
def Jammed (s : System) : Prop :=
  s.switcherClock = .waitFinish ∧ s.semInterruptionQuantumFinish = 0 ∧
    s.semInterruptionQuantum = [] ∧ s.threadInterrupt = .wait

instance (s : System) : Decidable (Jammed s) := inferInstanceAs (Decidable (_ ∧ _))

/-- `manage_interrupt` has taken an expiry and finds list_RUNNING empty. -/
def emptyLook (s : System) : Event → ℤ
  | .manageInterrupt =>
    match s.threadInterrupt with
    | .look _ => if s.listRunning = [] then 1 else 0
    | _ => 0
  | _ => 0

/-- How many steps of a run are empty looks. -/
def emptyLooks (cfg : KernelConfig) : System → List Event → ℤ := tally (step cfg) emptyLook

theorem empty_look_nonneg (s : System) (e : Event) : 0 ≤ emptyLook s e := by
  unfold emptyLook
  repeat' split
  all_goals simp

def waitsFinish : SwitcherClock → ℤ
  | .waitFinish => 1
  | _ => 0

attribute [local simp] waitsFinish.eq_1 waitsFinish.eq_2

def handling : ThreadInterrupt → ℤ
  | .wait => 0
  | _ => 1

attribute [local simp] handling.eq_1 handling.eq_2

/-- The tokens of the handshake that are nowhere any more. -/
def lost (s : System) : ℤ :=
  1+waitsFinish s.switcherClock-s.semInterruptionQuantumFinish-
    s.semInterruptionQuantum.length-handling s.threadInterrupt

theorem not_jammed_iff (s : System) : ¬Jammed s ↔ lost s ≤ 1 := by
  have hfinish : (0 : ℤ) ≤ s.semInterruptionQuantumFinish := Int.natCast_nonneg _
  cases hclock : s.switcherClock
  all_goals cases hthread : s.threadInterrupt
  all_goals simp only [Jammed, lost, hclock, hthread, waitsFinish, handling, reduceCtorEq, false_and,
    and_false, not_false_eq_true, true_and, and_true, true_iff]
  case waitFinish.wait =>
    rw [← List.length_eq_zero_iff]
    omega
  all_goals omega

section Steps
variable {cfg : KernelConfig} {s t : System}

theorem manage_interrupt_lost (h : manageInterrupt s = some t) :
    lost t = lost s+emptyLook s .manageInterrupt := by
  unfold manageInterrupt at h
  cases hthread : s.threadInterrupt with
  | wait =>
    simp only [hthread] at h
    split at h
    · simp at h
    next dispatch rest hsem =>
      simp only [Option.some.injEq] at h
      subst h
      simp only [lost, emptyLook, hthread, hsem, handling, List.length_cons]
      push_cast
      ring
  | look dispatch =>
    simp only [hthread, Option.some.injEq] at h
    subst h
    by_cases hrunning : s.listRunning = []
    · simp [lost, emptyLook, hthread, hrunning]
    · simp [lost, emptyLook, hthread, hrunning]
  | send dispatch =>
    simp only [hthread, Option.some.injEq] at h
    subst h
    simp [lost, emptyLook, hthread]
  | postFinish =>
    simp only [hthread, Option.some.injEq] at h
    subst h
    simp only [lost, emptyLook, hthread, handling]
    push_cast
    ring

theorem count_quantum_lost {expired : Bool} (h : countQuantumOfRoundRobin cfg s expired = some t) :
    lost t = lost s := by
  unfold countQuantumOfRoundRobin at h
  split at h
  · simp at h
  cases hclock : s.switcherClock with
  | test dispatch =>
    simp only [hclock] at h
    repeat' split at h
    all_goals simp only [Option.some.injEq] at h
    all_goals subst h
    all_goals simp [lost, hclock]
    ring
  | waitFinish =>
    simp only [hclock] at h
    split at h
    · simp only [Option.some.injEq] at h
      subst h
      simp only [lost, hclock, waitsFinish]
      push_cast
      omega
    · simp at h
  | unlock running =>
    simp only [hclock, Option.some.injEq] at h
    subst h
    cases running <;> simp [lost, hclock]
  | _ =>
    simp only [hclock] at h
    repeat' split at h
    all_goals simp only [Option.some.injEq, reduceCtorEq] at h
    all_goals subst h
    all_goals simp [lost, hclock]

/-- The law of the handshake: only an empty look loses a token. -/
theorem step_lost {e : Event} (h : step cfg s e = some t) : lost t = lost s+emptyLook s e := by
  cases e with
  | manageInterrupt => exact manage_interrupt_lost h
  | countQuantum expired => exact (count_quantum_lost h).trans (add_zero _).symm
  | scheduleNextToRunning =>
    obtain ⟨_, _, _, _, _, _, _, _, _, _, _, rfl⟩ := schedule_next_to_running_frame h
    exact (add_zero (lost s)).symm
  | processDispatch answers =>
    obtain ⟨_, _, _, _, _, _, _, rfl⟩ := process_dispatch_frame h
    exact (add_zero (lost s)).symm
  | processInterrupt =>
    obtain ⟨_, _, -, rfl⟩ := process_interrupt_cases h
    exact (add_zero (lost s)).symm
  | _ =>
    have hsame := distant_undisturbed rfl h
    simp only [lost, emptyLook, hsame.clock, hsame.finish, hsame.interruption, hsame.thread, add_zero]

/-- Nobody is left to post the semaphore: a jam lasts. -/
theorem jam_lasts {e : Event} (hs : Jammed s) (h : step cfg s e = some t) : Jammed t := by
  by_contra hfree
  apply (not_jammed_iff s).mpr _ hs
  have hlost := step_lost h
  have hlook := empty_look_nonneg s e
  have := (not_jammed_iff t).mp hfree
  omega

end Steps

/-- The handshake never jams in a run if and only if `manage_interrupt` finds
list_RUNNING empty at most once. -/
theorem never_jams_iff (cfg : KernelConfig) (time : TimeVal) (es : List Event) :
    Always (step cfg) (fun s => ¬Jammed s) (boot cfg time) es ↔
      emptyLooks cfg (boot cfg time) es ≤ 1 := by
  have hboot : lost (boot cfg time) = 0 := rfl
  have := always_iff_tally (step cfg) (fun _ => True) (fun s => ¬Jammed s) lost emptyLook 1
    (fun _ _ _ _ _ => trivial) (fun _ _ _ _ h => step_lost h) empty_look_nonneg
    (fun s _ => not_jammed_iff s) es (boot cfg time) trivial
  rwa [hboot, zero_add] at this

/-- The quantum of a process that has left by a page fault runs out. -/
def expiring : List Event := List.replicate 6 (.countQuantum true)

/-- Twice a process faults before its quantum runs out, and RUNNING is empty. -/
def jammingRun : List Event :=
  admission 0 ["MOV_IN AX 0", "EXIT"]++dispatching .rr++stopping++
    List.replicate 4 Event.manageDispatch++List.replicate 3 (Event.countQuantum false)++expiring++
    List.replicate 2 (Event.countQuantum false)++List.replicate 2 Event.manageInterrupt++
    [Event.resolvePageFault 0, Event.resolvePageFault 0, Event.memoria []]++
    List.replicate 4 Event.manageMemory++dispatching .rr++stopping++
    List.replicate 4 Event.manageDispatch++expiring++List.replicate 2 Event.manageInterrupt

theorem page_faults_jam :
    run (step (smallKernel .rr)) (boot (smallKernel .rr) midnight) jammingRun =
        some (reached (step (smallKernel .rr)) (boot (smallKernel .rr) midnight) jammingRun) ∧
      Jammed (reached (step (smallKernel .rr)) (boot (smallKernel .rr) midnight) jammingRun) ∧
      (reached (step (smallKernel .rr)) (boot (smallKernel .rr) midnight) jammingRun).mOutOfRunning =
        true :=
  ⟨run_reached _ _ _ (by decide +kernel), by decide +kernel, by decide +kernel⟩

end Geck.QuantumHandshake
