import Geck.Lifecycle
import Geck.PrivateComputer
import Geck.WholeMachine

/-!
# The contexts of the processes

Wherever a process is, some PCB has its context; while it runs, the registers
are the CPU's. Creating a process, an instruction and a value typed at a console
change the context of one process, and nothing else changes any.
-/

set_option autoImplicit false

namespace Geck.ProcessContexts
open Geck.Tallies Geck.BlockStore Geck.SharedPcb Geck.MemoryHandlers Geck.CpuTranslation
open Geck.CpuExecution Geck.KernelState Geck.KernelThreads Geck.KernelFrames Geck.KernelLedger
open Geck.KernelLaws Geck.KernelInvariant Geck.KernelSoundness Geck.ProcessCensus
open Geck.ProcessMoves Geck.Lifecycle Geck.WholeMachine Geck.PrivateComputer

/-- The running process has the registers that the CPU would save. -/
def settledThread (cpu : Cpu) : CpuThread → CpuThread
  | .running dispatch pcb => .running dispatch (saveContextPcb cpu pcb)
  | thread => thread

attribute [simp] settledThread.eq_1 settledThread.eq_2

def settled (s : System) : System := { s with cpuThread := settledThread s.cpu s.cpuThread }

/-- The PCBs that have the context of their process. -/
def Held (s : System) (pcb : Pcb) : Prop :=
  (∃ place, pcb ∈ processesAt (settled s) place) ∨ pcb ∈ pendingCopies s

/-- Every process computes where its private computer stands. -/
def Known (world : ℤ → Option Computer) (s : System) : Prop :=
  ∀ pcb, Held s pcb → ∃ c, world pcb.processId = some c ∧ c.context = context pcb

section Keys
variable {κ : Type*} [DecidableEq κ] {key : Pcb → κ} {s t : System}

theorem weigh_nonneg (key : Pcb → κ) (k : κ) (s : System) (place : Place) :
    0 ≤ weigh key (fun x => if x = k then 1 else 0) s place :=
  total_nonneg (fun pcb => by dsimp only; split <;> simp) _

theorem weigh_pos_iff (key : Pcb → κ) (k : κ) (s : System) (place : Place) :
    0 < weigh key (fun x => if x = k then 1 else 0) s place ↔
      ∃ pcb ∈ processesAt s place, key pcb = k := by
  have hcount : weigh key (fun x => if x = k then 1 else 0) s place =
      (processesAt s place).countP fun pcb => key pcb = k := by
    rw [← total_count]
    simp [weigh]
  rw [hcount]
  simp [List.countP_pos_iff]

/-- A step that creates no process takes the keys from where they were. -/
theorem mem_of_moved (h : Moved key s t) (hcreated : t.created = s.created) {place : Place}
    {pcb : Pcb} (hp : pcb ∈ processesAt t place) :
    ∃ old place, old ∈ processesAt s place ∧ key old = key pcb := by
  have hpos := (weigh_pos_iff key (key pcb) t place).mpr ⟨pcb, hp, rfl⟩
  have found {p : Place} (h : 0 < weigh key (fun x => if x = key pcb then 1 else 0) s p) :
      ∃ old place, old ∈ processesAt s place ∧ key old = key pcb := by
    obtain ⟨old, hold, hkey⟩ := (weigh_pos_iff key (key pcb) s p).mp h
    exact ⟨old, p, hold, hkey⟩
  cases h with
  | stays _ hplaces => exact found (by rwa [← hplaces])
  | born _ hborn _ => simp [hcreated] at hborn
  | moves k a b htransition _ hplaces =>
    have hthere := hplaces (fun x => if x = key pcb then 1 else 0) place
    have hfrom := hplaces (fun x => if x = key pcb then 1 else 0) a
    have hleft := weigh_nonneg key (key pcb) t a
    have hne : a ≠ b := by
      rintro rfl
      cases a <;> simp [transition] at htransition
    simp only [if_neg hne, if_true] at hfrom
    by_cases hsame : k = key pcb
    · simp only [hsame, if_true] at hfrom
      exact found (p := a) (by omega)
    · simp only [if_neg hsame, ite_self, add_zero, sub_zero] at hthere
      exact found (by rwa [← hthere])

end Keys

section Registers
variable {κ : Type*} {key : Pcb → κ} {s t : System}

/-- The registers of the CPU are those of one process. -/
theorem settled_weigh (key : Pcb → κ) (w : κ → ℤ) (s : System) (place : Place) :
    weigh key w (settled s) place = weigh key w s place+if place = .cpu then
      total (fun pcb => w (key pcb)) (executing (settledThread s.cpu s.cpuThread))-
        total (fun pcb => w (key pcb)) (executing s.cpuThread) else 0 := by
  cases place <;> simp [weigh, processesAt, settled]
  omega

theorem settled_moved (h : Moved key s t) (hthread : t.cpuThread = s.cpuThread)
    (hregisters : t.cpu.registers = s.cpu.registers) : Moved key (settled s) (settled t) := by
  have hsettled : settledThread t.cpu t.cpuThread = settledThread s.cpu s.cpuThread := by
    rw [hthread]
    cases s.cpuThread <;> simp [settledThread, saveContextPcb, hregisters]
  cases h with
  | stays hcreated hplaces =>
    refine .stays hcreated fun w place => ?_
    rw [settled_weigh, settled_weigh, hplaces, hsettled, hthread]
  | born pcb hcreated hplaces =>
    refine .born pcb hcreated fun w place => ?_
    rw [settled_weigh, settled_weigh, hplaces, hsettled, hthread]
    omega
  | moves k a b htransition hcreated hplaces =>
    refine .moves k a b htransition hcreated fun w place => ?_
    rw [settled_weigh, settled_weigh, hplaces, hsettled, hthread]
    omega

end Registers

section Holders
variable {cfg : KernelConfig} {s t : System} {world : ℤ → Option Computer}

theorem held_new {pcb : Pcb} (h : pcb ∈ s.listNew) : Held s pcb :=
  Or.inl ⟨.new, List.mem_append_left _ h⟩

theorem settled_process (s : System) (place : Place) :
    (processesAt (settled s) place).map Pcb.processId = (processesAt s place).map Pcb.processId := by
  cases place <;> simp only [processesAt, settled]
  cases s.cpuThread <;> simp [saveContextPcb]

theorem settled_count (s : System) (pid : ℤ) (place : Place) :
    countAt (settled s) pid place = countAt s pid place := by
  have hcount (s : System) : countAt s pid place =
      ((processesAt s place).map Pcb.processId).countP fun x => x = pid := by
    rw [countAt, List.countP_map]
    rfl
  rw [hcount, hcount, settled_process]

theorem place_count {pcb : Pcb} {place : Place} (h : pcb ∈ processesAt (settled s) place) :
    countAt s pcb.processId place ≠ 0 := by
  rw [← settled_count]
  simp only [countAt, ne_eq, List.countP_eq_zero, not_forall]
  exact ⟨pcb, h, by simp⟩

theorem copy_place (hs : Sound cfg s) {pcb : Pcb} (h : pcb ∈ pendingCopies s) :
    countAt s pcb.processId .new ≠ 0 := by
  obtain ⟨head, rest, hn, hid⟩ := head_of_copy hs.heads h
  have hpid : pcb.processId = head.processId := congrArg Prod.fst hid
  rw [hpid]
  simp only [countAt, ne_eq, List.countP_eq_zero, not_forall]
  exact ⟨head, List.mem_append_left _ (by simp [hn]), by simp⟩

theorem held_created (hs : Sound cfg s) {pcb : Pcb} (h : Held s pcb) : Created s pcb.processId := by
  by_contra hnot
  rcases h with ⟨place, hplace⟩ | hcopy
  · exact place_count hplace ((accounted_of_sound hs).unknown _ hnot place)
  · exact copy_place hs hcopy ((accounted_of_sound hs).unknown _ hnot .new)

theorem eq_of_count {α : Type*} {p : α → Bool} {l : List α} {a b : α} (h : l.countP p ≤ 1)
    (ha : a ∈ l) (hb : b ∈ l) (hpa : p a = true) (hpb : p b = true) : a = b := by
  rw [List.countP_eq_length_filter] at h
  have hma : a ∈ l.filter p := List.mem_filter.mpr ⟨ha, hpa⟩
  have hmb : b ∈ l.filter p := List.mem_filter.mpr ⟨hb, hpb⟩
  generalize l.filter p = m at h hma hmb
  match m with
  | [] => simp at hma
  | [x] => rw [List.mem_singleton.mp hma, List.mem_singleton.mp hmb]
  | _::_::_ => simp at h

/-- Past NEW one PCB has the context of a process. -/
theorem held_alone (hs : Sound cfg s) {p q : Pcb} {place : Place}
    (hp : p ∈ processesAt (settled s) place) (hplace : place ≠ .new) (hq : Held s q)
    (hid : q.processId = p.processId) : q = p := by
  have ha := accounted_of_sound hs
  have hat := place_of_some ha (place_count hp)
  have hsame {other : Place} (h : countAt s q.processId other ≠ 0) : other = place := by
    rw [hid] at h
    exact Option.some.inj ((place_of_some ha h).symm.trans hat)
  rcases hq with ⟨other, hother⟩ | hcopy
  · obtain rfl := hsame (place_count hother)
    have hcount := count_at_most_one ha p.processId other
    rw [← settled_count] at hcount
    exact eq_of_count hcount hother hp (by simp [hid]) (by simp)
  · exact absurd (hsame (copy_place hs hcopy)).symm hplace

theorem known_of_old (hknown : Known world s)
    (h : ∀ pcb, Held t pcb → ∃ old, Held s old ∧ context old = context pcb) : Known world t := by
  intro pcb hpcb
  obtain ⟨old, hold, hcontext⟩ := h pcb hpcb
  obtain ⟨c, hc, hsame⟩ := hknown old hold
  exact ⟨c, by rw [← context_process_eq hcontext, hc], hsame.trans hcontext⟩

/-- One process computes and the others do not. -/
theorem known_update {pid : ℤ} {c : Computer} (hknown : Known world s)
    (hown : ∀ pcb, Held t pcb → pcb.processId = pid → c.context = context pcb)
    (h : ∀ pcb, Held t pcb → pcb.processId ≠ pid →
      ∃ old, Held s old ∧ context old = context pcb) :
    Known (Function.update world pid (some c)) t := by
  intro pcb hpcb
  by_cases hpid : pcb.processId = pid
  · rw [hpid, Function.update_self]
    exact ⟨c, rfl, hown pcb hpcb hpid⟩
  · obtain ⟨old, hold, hcontext⟩ := h pcb hpcb hpid
    obtain ⟨found, hfound, hsame⟩ := hknown old hold
    rw [Function.update_of_ne hpid]
    exact ⟨found, by rw [← context_process_eq hcontext, hfound], hsame.trans hcontext⟩

end Holders

end Geck.ProcessContexts
