import Geck.DegreeDeadlock
import Geck.KernelWork
import Geck.Lifecycle
import Geck.MemoryPromises

/-!
# The whole machine finishes

With memory's own answers an instruction faults once at most, so that the faults
are paid for by the instructions: the work of a run is bounded by its programs
alone. Where the machine stops is known, and together they say that it finishes.
-/

set_option autoImplicit false

namespace Geck.MachineProgress
open Geck.LabelledRuns Geck.Tallies Geck.BlockStore Geck.SharedPcb Geck.MemoryState
open Geck.MemoryHandlers Geck.MemoryReplacement Geck.MemoryAccounting Geck.MemoryAllocation
open Geck.MemoryFaults Geck.MemorySystem Geck.CpuTranslation Geck.CpuExecution Geck.CpuEffects
open Geck.CpuFlags Geck.KernelState Geck.KernelThreads Geck.KernelFrames Geck.KernelLedger
open Geck.KernelLaws Geck.KernelInvariant Geck.KernelSoundness Geck.ProcessCensus Geck.ProcessMoves
open Geck.PcbTrail Geck.WholeMachine Geck.SoleCopy Geck.AccessFaults Geck.KernelWork Geck.Lifecycle
open Geck.MemoryPromises Geck.Standstill Geck.DegreeDeadlock

/-- A process that faulted was executed, so it is past NEW. -/
def Marked (w : Machine) : Prop :=
  ∀ pid, w.faults pid ≠ none → placeOf w.system pid ≠ none ∧ placeOf w.system pid ≠ some .new

def owing (faults : ℤ → Option Fault) (pid : ℤ) : ℤ := if (faults pid).isSome then 1 else 0

/-- The processes whose instruction has faulted and was not executed yet. -/
def pending (w : Machine) : ℤ := total (fun id => owing w.faults id.1) w.system.created

/-- Each process can fault once more than its instructions have paid for. -/
def machineWork (limit : ℕ) (w : Machine) : ℤ :=
  work limit w.system+35*(w.system.consoles.length-pending w)

def countedAction : Action → ℤ
  | .thread e => counted e
  | .attendKernel => 1
  | .attendCpu _ => 0
  | .processDispatch _ _ => 1

def connectsAction : Action → ℤ
  | .thread e => connects e
  | _ => 0

def expiresAction (w : Machine) : Action → ℤ
  | .thread e => expires w.system e
  | _ => 0

/-- What an action adds to the work of the machine. -/
def machineCost (limit : ℕ) (w : Machine) (a : Action) : ℤ :=
  (60+70*limit)*connectsAction a+39*expiresAction w a

def actionLength : Action → ℕ
  | .thread e => programLength e
  | _ => 0

def BriefAction (limit : ℕ) (_ : Machine) (a : Action) : Prop := actionLength a ≤ limit

instance (limit : ℕ) (w : Machine) (a : Action) : Decidable (BriefAction limit w a) :=
  inferInstanceAs (Decidable (_ ≤ _))

structure Paid (cfg : KernelConfig) (mcfg : MemoryConfig) (limit : ℕ) (w : Machine) : Prop where
  coherent : Coherent cfg mcfg w
  kept : Kept cfg w.system
  short : Short limit w.system
  marked : Marked w

section Steps
variable {cfg : KernelConfig} {mcfg : MemoryConfig} {limit : ℕ} {w w' : Machine} {s t : System}

/-- A step of the kernel takes no process back to NEW. -/
theorem past_new (hs : Sound cfg s) {e : Event} (h : step cfg s e = some t) {pid : ℤ}
    (hpast : placeOf s pid ≠ none ∧ placeOf s pid ≠ some .new) :
    placeOf t pid ≠ none ∧ placeOf t pid ≠ some .new :=
  new_once (step_live hs h).2 hpast.1 hpast.2

theorem place_of_mem (hs : Sound cfg s) {pcb : Pcb} {place : Place}
    (h : pcb ∈ processesAt s place) : placeOf s pcb.processId = some place := by
  apply place_of_some (accounted_of_sound hs)
  have hpos : 0 < countAt s pcb.processId place := List.countP_pos_iff.mpr ⟨pcb, h, by simp⟩
  omega

/-- Processes are created, never forgotten. -/
theorem created_grows (h : Moved identity s t) : ∃ new, t.created = s.created++new := by
  cases h with
  | stays hcreated _ => exact ⟨[], by simp [hcreated]⟩
  | born pcb hcreated _ => exact ⟨[identity pcb], hcreated⟩
  | moves k a b _ hcreated _ => exact ⟨[], by simp [hcreated]⟩

theorem owing_nonneg (faults : ℤ → Option Fault) (pid : ℤ) : 0 ≤ owing faults pid := by
  unfold owing
  split <;> simp

theorem pending_grows (hsystem : Moved identity w.system w'.system) (hfaults : w'.faults = w.faults) :
    pending w ≤ pending w' := by
  obtain ⟨new, hnew⟩ := created_grows hsystem
  have := total_nonneg (f := fun id : ℤ × ℤ => owing w.faults id.1)
    (fun id => owing_nonneg w.faults id.1) new
  simp only [pending, hfaults, hnew, total_append]
  omega

theorem pending_le (hw : Kept cfg w.system) : pending w ≤ w.system.consoles.length := by
  have hcreated := created_le_consoles hw
  have hle : pending w ≤ w.system.created.length := by
    unfold pending
    induction w.system.created with
    | nil => simp
    | cons id rest ih =>
      rw [total_cons, List.length_cons]
      have : owing w.faults id.1 ≤ 1 := by
        unfold owing
        split <;> simp
      push_cast
      omega
  omega

/-- The faults of one process change. -/
theorem pending_update (hr : Registered w.system) {pid : ℤ} (hcreated : Created w.system pid)
    {fault : Option Fault} (hsystem : w'.system.created = w.system.created)
    (hfaults : w'.faults = Function.update w.faults pid fault) :
    pending w' = pending w-owing w.faults pid+if fault.isSome then 1 else 0 := by
  have howing : owing w'.faults =
      Function.update (owing w.faults) pid (if fault.isSome then 1 else 0) := by
    funext q
    by_cases hq : q = pid
    · subst hq
      simp [owing, hfaults]
    · simp [owing, hfaults, Function.update_of_ne hq]
  rw [pending, howing, hsystem, total_update Prod.fst (created_nodup hr) (created_mem hr hcreated)]
  rfl

theorem consoles_grow (hs : Sound cfg s) {e : Event} (h : step cfg s e = some t) :
    (t.consoles.length : ℤ) = s.consoles.length+connects e := by
  cases e with
  | connect instructions segments =>
    obtain rfl := Option.some.inj h
    simp [connect, connects]
  | console i value =>
    obtain ⟨c, -, h⟩ := Option.bind_eq_some_iff.mp h
    obtain ⟨_, _, _, _, -, rfl⟩ := consola_frame h
    simp [connects]
  | receiveConsole i =>
    obtain ⟨c, -, h⟩ := Option.bind_eq_some_iff.mp h
    obtain ⟨_, _, _, _, _, _, _, _, _, _, _, _, rfl⟩ := receive_console_frame h
    simp [connects]
  | manageDispatch =>
    rcases manage_dispatch_consoles hs.packages.handles h with hsame | ⟨_, _, _, -, -, hset⟩
    · simp [connects, hsame]
    · simp [connects, hset]
  | scheduleNextToRunning =>
    obtain ⟨_, _, _, _, _, _, _, _, _, _, _, rfl⟩ := schedule_next_to_running_frame h
    simp [connects]
  | manageInterrupt =>
    obtain ⟨_, _, _, _, rfl⟩ := manage_interrupt_frame h
    simp [connects]
  | countQuantum expired =>
    obtain ⟨_, _, _, _, _, _, rfl⟩ := count_quantum_frame h
    simp [connects]
  | manageMemory =>
    obtain ⟨_, _, _, _, _, _, _, _, rfl⟩ := manage_memory_frame h
    simp [connects]
  | resolvePageFault i =>
    obtain ⟨p, -, h⟩ := Option.bind_eq_some_iff.mp h
    obtain ⟨_, _, _, rfl⟩ := resolve_page_fault_frame h
    simp [connects]
  | simulateIo i =>
    obtain ⟨d, -, h⟩ := Option.bind_eq_some_iff.mp h
    obtain ⟨_, _, _, _, rfl⟩ := simulate_io_default_frame h
    simp [connects]
  | processDispatch answers =>
    obtain ⟨_, _, _, _, _, _, _, rfl⟩ := process_dispatch_frame h
    simp [connects]
  | processInterrupt =>
    obtain ⟨_, _, -, rfl⟩ := process_interrupt_cases h
    simp [connects]
  | memoria segments =>
    obtain ⟨_, _, -, rfl⟩ := memoria_cases h
    simp [connects]

theorem thread_cost {e : Event} (he : isThread e = true) (s : System) :
    executions cfg s e = 0 ∧ faults cfg s e = 0 := by
  cases e <;> simp [isThread, executions, faults] at he ⊢

theorem thread_pays (hw : Paid cfg mcfg limit w) {e : Event} (he : isThread e = true)
    (hbrief : programLength e ≤ limit) (h : step cfg w.system e = some t) :
    Kept cfg t ∧ Short limit t ∧ Marked { w with system := t } ∧
      machineWork limit { w with system := t }+counted e ≤
        machineWork limit w+(60+70*limit)*connects e+39*expires w.system e := by
  have hsound := hw.coherent.sound
  refine ⟨step_kept hw.kept h, step_short hw.short hbrief h,
    fun pid hpid => past_new hsound h (hw.marked pid hpid), ?_⟩
  have hwork := step_work hsound hw.short h
  obtain ⟨hexecutions, hfaults⟩ := @thread_cost cfg e he w.system
  have hpending : pending w ≤ pending { w with system := t } :=
    pending_grows (step_moved hsound h) rfl
  have hconsoles := consoles_grow hsound h
  simp only [spent, cost, hexecutions, hfaults] at hwork
  simp only [machineWork, hconsoles]
  have : (60+70*(limit : ℤ))*connects e = (25+70*limit)*connects e+35*connects e := by ring
  omega

/-- With what its next request needs, memory answers it. -/
theorem next_request_served (valid : ValidConfig mcfg) (hw : Coherent cfg mcfg w)
    {request : KernelRequest} {rest : List KernelRequest} (hq : w.system.toMemory = request::rest)
    (hg : Resourced mcfg w .attendKernel) :
    ∃ memory answer, attendKernel mcfg w.memory request = some (memory, answer) ∧
      ∀ pcb segment page, request = .requestPageFault pcb segment page →
        answer = some (.responsePageFault pcb) := by
  have hallowed := next_request_allowed hw hq hg
  cases request with
  | initProcessStructuresMemory pcb =>
    obtain ⟨segments, memory, hinit, -⟩ := init_served valid hw.accounts pcb hallowed.1 hallowed.2
    exact ⟨memory, some (.initProcessStructuresMemoryResponse { pcb with segmentTable := segments }),
      by simp [attendKernel, hinit], by simp⟩
  | requestPageFault pcb segment page =>
    obtain ⟨⟨v, x, hrequestable⟩, hfree⟩ := hallowed
    obtain ⟨memory, n, m₂, c, c₂, hserve, -, -⟩ :=
      page_fault_served valid hw.accounts hrequestable hfree
    refine ⟨memory, some (.responsePageFault pcb), by simp [attendKernel, hserve], ?_⟩
    rintro _ _ _ ⟨⟩
    rfl
  | endStructures pcb =>
    obtain ⟨bits, slots, hdelete, -⟩ := end_served hw.accounts pcb hallowed
    exact ⟨{ w.memory with bitmapMemory := bits, bitmapSwap := slots }, none,
      by simp [attendKernel, hdelete], by simp⟩

/-- Memory's turn changes the faults of no process that has one. -/
theorem served_faults (hw : Paid cfg mcfg limit w) {request : KernelRequest}
    {rest : List KernelRequest} (hq : w.system.toMemory = request::rest) (pid : ℤ) :
    (faultsServed mcfg w.memory w.faults request pid).isSome = (w.faults pid).isSome := by
  cases request with
  | initProcessStructuresMemory pcb =>
    by_cases hpid : pid = pcb.processId
    · subst hpid
      have hcopy : pcb ∈ pendingCopies w.system := by simp [pendingCopies, copies, hq]
      obtain ⟨head, new, hnew, hidentity⟩ := head_of_copy hw.coherent.sound.heads hcopy
      have hplace : placeOf w.system head.processId = some .new :=
        place_of_mem hw.coherent.sound (by simp [processesAt, hnew])
      have hsame : pcb.processId = head.processId := congrArg Prod.fst hidentity
      have hnone : w.faults pcb.processId = none := by
        by_contra hfault
        exact (hw.marked _ hfault).2 (hsame ▸ hplace)
      simp [faultsServed, hnone]
    · simp [faultsServed, Function.update_of_ne hpid]
  | requestPageFault pcb segment page =>
    by_cases hpid : pid = pcb.processId
    · subst hpid
      simp [faultsServed]
    · simp [faultsServed, Function.update_of_ne hpid]
  | endStructures pcb => rfl

theorem served_pays (hw : Paid cfg mcfg limit w) {request : KernelRequest}
    {rest : List KernelRequest} {memory : Memory} {answer : Option KernelResponse}
    (hq : w.system.toMemory = request::rest) {segments : List Segment}
    (h : step cfg w.system (.memoria segments) =
      some (served mcfg w request rest memory answer).system) :
    Kept cfg (served mcfg w request rest memory answer).system ∧
      Short limit (served mcfg w request rest memory answer).system ∧
      Marked (served mcfg w request rest memory answer) ∧
      machineWork limit (served mcfg w request rest memory answer)+1 ≤ machineWork limit w := by
  have hsound := hw.coherent.sound
  have hfaults := served_faults hw hq
  refine ⟨step_kept hw.kept h, step_short hw.short (Nat.zero_le _) h, fun pid hpid => ?_, ?_⟩
  · have hsome : w.faults pid ≠ none := by
      rw [← Option.isSome_iff_ne_none, ← hfaults pid, Option.isSome_iff_ne_none]
      exact hpid
    exact past_new hsound h (hw.marked pid hsome)
  · have hwork := step_work hsound hw.short h
    have hsame : pending (served mcfg w request rest memory answer) = pending w := by
      have howing : owing (served mcfg w request rest memory answer).faults = owing w.faults :=
        funext fun pid => by simp only [owing, served, hfaults pid]
      rw [pending, howing]
      rfl
    simp only [spent, cost, counted, executions, connects, faults, expires] at hwork
    rw [machineWork, hsame, machineWork]
    show work limit _+35*(w.system.consoles.length-pending w)+1 ≤ _
    omega

/-- A turn of the CPU that executes: an instruction that faults has not done so before. -/
theorem turn_pays (hw : Paid cfg mcfg limit w) {value : CpuResponse} {times : Readings}
    (h : processDispatch cfg w.system (executionAnswers cfg mcfg w value times) = some t) :
    Kept cfg t ∧ Short limit t ∧
      Marked { w with system := t, faults := faultsExecuted w.faults w.system t } ∧
      machineWork limit { w with system := t, faults := faultsExecuted w.faults w.system t }+1 ≤
        machineWork limit w := by
  have hsound := hw.coherent.sound
  have hstep : step cfg w.system (.processDispatch (executionAnswers cfg mcfg w value times)) =
      some t := h
  have hwork := step_work hsound hw.short hstep
  simp only [spent, cost, counted, connects, expires] at hwork
  refine ⟨step_kept hw.kept hstep, step_short hw.short (Nat.zero_le _) hstep, ?_⟩
  by_cases hexecutes : executes w.system = true
  · obtain ⟨dispatch, pcb, cpu, access, hthread, hkeep, hcycle, ht⟩ := turn_cases hexecutes h
    have hplace : placeOf w.system pcb.processId = some .cpu :=
      place_of_mem hsound (by simp [processesAt, hthread])
    have hcreated := created_of_place (accounted_of_sound hsound) hplace
    obtain ⟨fault, hfaults, hsome⟩ : ∃ fault : Option Fault,
        faultsExecuted w.faults w.system t = Function.update w.faults pcb.processId fault ∧
          fault.isSome = cpu.pageFault := by
      simp only [faultsExecuted, hthread, hkeep, if_true]
      refine ⟨_, rfl, ?_⟩
      cases hfault : cpu.pageFault <;> simp [ht, hfault]
    have hpending : pending { w with system := t, faults := faultsExecuted w.faults w.system t } =
        pending w-owing w.faults pcb.processId+if fault.isSome then 1 else 0 :=
      pending_update hsound.registered hcreated (by rw [ht]) hfaults
    have hconsoles : t.consoles = w.system.consoles := by rw [ht]
    refine ⟨fun pid hpid => past_new hsound hstep ?_, ?_⟩
    · by_cases hpcb : pid = pcb.processId
      · rw [hpcb, hplace]
        simp
      · have hold : w.faults pid ≠ none := by
          rw [← Function.update_of_ne hpcb fault w.faults, ← hfaults]
          exact hpid
        exact hw.marked pid hold
    · simp only [machineWork, hconsoles]
      cases hfault : cpu.pageFault with
      | true =>
        have hnone := (executed_turn hw.coherent hthread hkeep hcycle hfault).1
        have howing : owing w.faults pcb.processId = 0 := by simp [owing, hnone]
        simp only [executions, KernelWork.faults, hthread, hkeep, hcycle, hfault, if_true] at hwork
        simp only [hsome, hfault, howing, if_true] at hpending
        omega
      | false =>
        have howing : owing w.faults pcb.processId ≤ 1 := by
          unfold owing
          split <;> simp
        simp only [executions, KernelWork.faults, hthread, hkeep, hcycle, hfault, if_true,
          Bool.false_eq_true, if_false] at hwork
        simp only [hsome, hfault, Bool.false_eq_true, if_false] at hpending
        omega
  · have hsame : faultsExecuted w.faults w.system t = w.faults := by
      unfold faultsExecuted
      split
      · next dispatch pcb hthread =>
        rw [if_neg (by simpa [executes, hthread] using hexecutes)]
      · rfl
    have hidle : executions cfg w.system (.processDispatch (executionAnswers cfg mcfg w value times)) = 0 ∧
        KernelWork.faults cfg w.system (.processDispatch (executionAnswers cfg mcfg w value times)) = 0 := by
      cases hthread : w.system.cpuThread with
      | running dispatch pcb =>
        have hstop : keepsRunning w.system.cpu = false := by simpa [executes, hthread] using hexecutes
        simp [executions, KernelWork.faults, hthread, hstop]
      | _ => simp [executions, KernelWork.faults, hthread]
    have hpending : pending w ≤ pending { w with system := t } :=
      pending_grows (step_moved hsound hstep) rfl
    have hconsoles := consoles_grow hsound hstep
    rw [hsame]
    refine ⟨fun pid hpid => past_new hsound hstep (hw.marked pid hpid), ?_⟩
    simp only [hidle] at hwork
    simp only [machineWork, hconsoles, connects]
    omega

theorem act_paid (valid : ValidConfig mcfg) (hw : Paid cfg mcfg limit w) {a : Action}
    (hg : Resourced mcfg w a) (hbrief : BriefAction limit w a) (h : act cfg mcfg w a = some w') :
    Paid cfg mcfg limit w' ∧
      machineWork limit w'+countedAction a ≤ machineWork limit w+machineCost limit w a := by
  have hcoherent := act_coherent valid hw.coherent hg h
  rcases act_cases h with ⟨e, t, rfl, hthread, ht, rfl⟩ |
    ⟨request, rest, memory, answer, rfl, hq, hserved, rfl⟩ |
    ⟨request, memory, answer, rfl, hcpu, rfl⟩ | ⟨value, times, t, rfl, ht, rfl⟩
  · obtain ⟨hkept, hshort, hmarked, hpaid⟩ := thread_pays hw hthread hbrief ht
    refine ⟨⟨hcoherent, hkept, hshort, hmarked⟩, ?_⟩
    simp only [countedAction, machineCost, connectsAction, expiresAction]
    omega
  · obtain ⟨memory', answer', hserved', hanswered⟩ :=
      next_request_served valid hw.coherent hq hg
    obtain ⟨rfl, rfl⟩ : memory' = memory ∧ answer' = answer := by
      simpa [hserved] using hserved'.symm
    obtain ⟨segments, hstep⟩ := served_step cfg hq hserved hanswered
    obtain ⟨hkept, hshort, hmarked, hpaid⟩ := served_pays hw hq hstep
    refine ⟨⟨hcoherent, hkept, hshort, hmarked⟩, ?_⟩
    simpa [countedAction, machineCost, connectsAction, expiresAction] using hpaid
  · refine ⟨⟨hcoherent, hw.kept, hw.short, hw.marked⟩, ?_⟩
    simp [machineWork, countedAction, machineCost, connectsAction, expiresAction, pending]
  · obtain ⟨hkept, hshort, hmarked, hpaid⟩ := turn_pays hw ht
    refine ⟨⟨hcoherent, hkept, hshort, hmarked⟩, ?_⟩
    simpa [countedAction, machineCost, connectsAction, expiresAction] using hpaid

theorem start_paid (valid : ValidConfig mcfg) (limit : ℕ) (time : TimeVal) (ram swap : ℕ → UInt8) :
    Paid cfg mcfg limit (start cfg mcfg time ram swap) :=
  ⟨start_coherent valid time ram swap, boot_kept cfg time, boot_short cfg limit time,
    fun _ hpid => absurd rfl hpid⟩

theorem machine_work_nonneg (hw : Kept cfg w.system) : 0 ≤ machineWork limit w := by
  have := work_nonneg limit w.system
  have := pending_le hw
  simp only [machineWork]
  omega

end Steps

section Runs
variable {cfg : KernelConfig} {mcfg : MemoryConfig} {limit : ℕ} {w u : Machine}

theorem run_paid (valid : ValidConfig mcfg) (hw : Paid cfg mcfg limit w) {actions : List Action}
    (hresourced : Guarded (act cfg mcfg) (Resourced mcfg) w actions)
    (hbrief : Guarded (act cfg mcfg) (BriefAction limit) w actions)
    (h : run (act cfg mcfg) w actions = some u) :
    Paid cfg mcfg limit u ∧
      tally (act cfg mcfg) (fun _ => countedAction) w actions ≤
        machineWork limit w+(60+70*limit)*tally (act cfg mcfg) (fun _ => connectsAction) w actions+
          39*tally (act cfg mcfg) expiresAction w actions := by
  have hguard := guarded_and (act cfg mcfg) _ _ actions w hresourced hbrief
  have hlast := guarded_run (act cfg mcfg) (Paid cfg mcfg limit) _
    (fun _ _ _ hp hg ht => (act_paid valid hp hg.1 hg.2 ht).1) actions w u hw hguard h
  have hpaid := tally_paid (act cfg mcfg) (Paid cfg mcfg limit) _ (machineWork limit)
    (fun _ => countedAction) (machineCost limit)
    (fun _ _ _ hp hg ht => (act_paid valid hp hg.1 hg.2 ht).1)
    (fun _ _ _ hp hg ht => (act_paid valid hp hg.1 hg.2 ht).2) actions w u hw hguard h
  have := @machine_work_nonneg _ limit _ hlast.kept
  unfold machineCost at hpaid
  simp only [tally_add, tally_mul] at hpaid
  exact ⟨hlast, by omega⟩

end Runs

/-- No action but a new console's and memory's turn for the CPU can be taken. -/
def Halted (cfg : KernelConfig) (mcfg : MemoryConfig) (w : Machine) : Prop :=
  (∀ e, isThread e = true → arrives e = false → act cfg mcfg w (.thread e) = none) ∧
    act cfg mcfg w .attendKernel = none ∧
    ∀ value times, act cfg mcfg w (.processDispatch value times) = none

/-- The instruction of the process on the CPU cannot be executed, whatever a load reads. -/
def Stuck (cfg : KernelConfig) (mcfg : MemoryConfig) (w : Machine) : Prop :=
  ∃ dispatch pcb, w.system.cpuThread = .running dispatch pcb ∧ keepsRunning w.system.cpu = true ∧
    ∀ value times,
      instructionCycle cfg.cpu (executionAnswers cfg mcfg w value times) w.system.cpu pcb = none

section Halt
variable {cfg : KernelConfig} {mcfg : MemoryConfig} {w : Machine}

theorem still_of_halted (valid : ValidConfig mcfg) (hw : Coherent cfg mcfg w)
    (hg : Resourced mcfg w .attendKernel) (h : Halted cfg mcfg w) :
    Stuck cfg mcfg w ∨ Still cfg w.system := by
  obtain ⟨hthreads, hmemory, hcpu⟩ := h
  by_cases hstuck : Stuck cfg mcfg w
  · exact Or.inl hstuck
  right
  have hempty : w.system.toMemory = [] := by
    cases hq : w.system.toMemory with
    | nil => rfl
    | cons request rest =>
      obtain ⟨memory, answer, hserved, -⟩ := next_request_served valid hw hq hg
      simp [act, hq, hserved] at hmemory
  intro e he
  by_cases hthread : isThread e = true
  · have hrefused := hthreads e hthread he
    simpa only [act, if_pos hthread, Option.map_eq_none_iff] using hrefused
  · cases e with
    | memoria segments => simp [step, memoria, hempty]
    | processDispatch answers =>
      have hnone : ∀ value times,
          processDispatch cfg w.system (executionAnswers cfg mcfg w value times) = none :=
        fun value times => by simpa only [act, Option.map_eq_none_iff] using hcpu value times
      have hone := hnone answers.value answers.times
      cases hat : w.system.cpuThread with
      | running dispatch pcb =>
        cases hkeep : keepsRunning w.system.cpu with
        | false => simp [processDispatch, hat, hkeep] at hone
        | true =>
          refine absurd ⟨dispatch, pcb, hat, hkeep, fun value times => ?_⟩ hstuck
          have hturn := hnone value times
          simp only [processDispatch, hat, hkeep, if_true, Option.bind_eq_bind] at hturn
          cases hcycle : instructionCycle cfg.cpu (executionAnswers cfg mcfg w value times)
              w.system.cpu pcb with
          | none => rfl
          | some result => simp [hcycle] at hturn
      | receive => simpa [step, processDispatch, hat] using hone
      | leaving dispatch pcb | sending reply =>
        simp only [step, processDispatch, hat] at hone ⊢
        exact hone
    | _ => exact absurd rfl hthread

end Halt

end Geck.MachineProgress
