import Geck.ProcessCensus
import Geck.ProcessMoves

/-!
# The life cycle of a process

Each step of the system leaves every process where it is, or takes one process
along an edge of its life cycle. The kernel is so an interleaving of life
cycles, one for each process, and what a life cycle never does no process does.
-/

set_option autoImplicit false

namespace Geck.Lifecycle
open Geck.LabelledRuns Geck.Tallies Geck.BlockStore Geck.SharedPcb Geck.MemoryHandlers
open Geck.CpuTranslation Geck.CpuExecution Geck.KernelState Geck.KernelThreads Geck.KernelFrames
open Geck.KernelLedger Geck.KernelLaws Geck.KernelInvariant Geck.KernelSoundness Geck.ProcessCensus
open Geck.ProcessMoves

abbrev Lives := ℤ → Option Place

/-- The process `move.1` goes to `move.2`. -/
def live (lives : Lives) (move : ℤ × Place) : Option Lives :=
  if transition (lives move.1) move.2 then
    some (Function.update lives move.1 (some move.2))
  else none

section Lives
variable {lives lives' : Lives} {moves : List (ℤ × Place)} {pid : ℤ}

theorem live_some {move : ℤ × Place} (h : live lives move = some lives') :
    transition (lives move.1) move.2 = true ∧
      lives' = Function.update lives move.1 (some move.2) := by
  simp only [live, Option.ite_none_right_eq_some, Option.some.injEq] at h
  exact ⟨h.1, h.2.symm⟩

theorem exit_final (h : run live lives moves = some lives') (hexit : lives pid = some .exit) :
    lives' pid = some .exit ∧ ∀ place, (pid, place) ∉ moves := by
  induction moves generalizing lives with
  | nil =>
    obtain rfl : lives = lives' := by simpa [run] using h
    exact ⟨hexit, by simp⟩
  | cons move moves ih =>
    obtain ⟨next, hnext, hrest⟩ := (run_cons_some live).mp h
    obtain ⟨htransition, rfl⟩ := live_some hnext
    have hne : pid ≠ move.1 := by
      rintro rfl
      rw [hexit] at htransition
      cases move.2 <;> simp [transition] at htransition
    obtain ⟨hlast, hnone⟩ := ih hrest (by rw [Function.update_of_ne hne, hexit])
    refine ⟨hlast, fun place hmem => ?_⟩
    rcases List.mem_cons.mp hmem with rfl | hmem
    · exact hne rfl
    · exact hnone place hmem

/-- A process past NEW does not come back to it. -/
theorem new_once (h : run live lives moves = some lives') (hsome : lives pid ≠ none)
    (hpast : lives pid ≠ some .new) : lives' pid ≠ none ∧ lives' pid ≠ some .new := by
  refine invariant_run live (fun l => l pid ≠ none ∧ l pid ≠ some .new) ?_ moves lives lives'
    ⟨hsome, hpast⟩ h
  rintro l move l' ⟨hsome, hpast⟩ hstep
  obtain ⟨htransition, rfl⟩ := live_some hstep
  by_cases hpid : pid = move.1
  · subst hpid
    rw [Function.update_self]
    cases hplace : move.2 with
    | new =>
      cases hl : l move.1 with
      | none => exact absurd hl hsome
      | some place => cases place <;> simp [hplace, hl, transition] at htransition
    | _ => simp
  · rw [Function.update_of_ne hpid]
    exact ⟨hsome, hpast⟩

def isReady (place : Option Place) : ℤ := if place = some .ready then 1 else 0

/-- Each time a process was made ready it was given the CPU once, but for the last. -/
theorem dispatched_once (h : run live lives moves = some lives') (pid : ℤ) :
    isReady (lives pid)+moves.count (pid, .ready) =
      moves.count (pid, .cpu)+isReady (lives' pid) := by
  induction moves generalizing lives with
  | nil =>
    obtain rfl : lives = lives' := by simpa [run] using h
    simp
  | cons move moves ih =>
    obtain ⟨next, hnext, hrest⟩ := (run_cons_some live).mp h
    obtain ⟨htransition, rfl⟩ := live_some hnext
    have hcount := ih hrest
    obtain ⟨other, place⟩ := move
    by_cases hpid : other = pid
    · subst hpid
      rw [Function.update_self] at hcount
      cases hl : lives other with
      | none => cases place <;> simp_all [transition, isReady]
      | some a =>
        cases a <;> cases place <;> simp_all [transition, isReady] <;> omega
    · rw [Function.update_of_ne (Ne.symm hpid)] at hcount
      rw [List.count_cons_of_ne (by simp [hpid]), List.count_cons_of_ne (by simp [hpid]), hcount]

end Lives

def allPlaces : List Place := [.new, .ready, .cpu, .console, .device, .pageFault, .exit]

def placeOf (s : System) : Lives := fun pid =>
  allPlaces.find? fun place => (processesAt s place).any fun pcb => pcb.processId = pid

def changed (s t : System) (pid : ℤ) : Option (ℤ × Place) :=
  if placeOf t pid = placeOf s pid then none else (placeOf t pid).map (Prod.mk pid)

/-- The processes that are not where they were, and where they are. -/
def changes (cfg : KernelConfig) (s : System) (e : Event) : List (ℤ × Place) :=
  (step cfg s e).elim [] fun t => (t.created.map Prod.fst).filterMap (changed s t)

section Places
variable {cfg : KernelConfig} {s t : System} {pid : ℤ} {place : Place}

theorem found_iff (s : System) (pid : ℤ) (place : Place) :
    ((processesAt s place).any fun pcb => pcb.processId = pid) = true ↔ countAt s pid place ≠ 0 := by
  simp [countAt, List.countP_eq_zero]

theorem place_of_some (ha : Accounted cfg s) (h : countAt s pid place ≠ 0) :
    placeOf s pid = some place := by
  have hcreated : Created s pid := by
    by_contra hnot
    exact h (ha.unknown pid hnot place)
  obtain ⟨only, -, hothers⟩ := ha.place pid hcreated
  have heq : place = only := by
    by_contra hne
    exact h (hothers place hne)
  subst heq
  apply List.find?_eq_some_iff_append.mpr
  have hall : place ∈ allPlaces := by cases place <;> decide
  obtain ⟨l, m, hsplit⟩ := List.append_of_mem hall
  refine ⟨(found_iff s pid place).mpr h, l, m, hsplit, fun other hother => ?_⟩
  have hne : other ≠ place := by
    rintro rfl
    have hnodup : (l++other::m).Nodup := hsplit ▸ (by decide : allPlaces.Nodup)
    exact (List.nodup_append.mp hnodup).2.2 other hother other (by simp) rfl
  have hnone := mt (found_iff s pid other).mp (not_not.mpr (hothers other hne))
  simpa using hnone

theorem count_of_place (h : placeOf s pid = some place) : countAt s pid place ≠ 0 := by
  have hfound := List.find?_some (p := fun place =>
    (processesAt s place).any fun pcb => decide (pcb.processId = pid)) h
  exact (found_iff s pid place).mp hfound

theorem created_of_place (ha : Accounted cfg s) (h : placeOf s pid = some place) : Created s pid := by
  by_contra hnot
  exact count_of_place h (ha.unknown pid hnot place)

theorem count_other (ha : Accounted cfg s) (h : placeOf s pid = some place) {other : Place}
    (hne : other ≠ place) : countAt s pid other = 0 := by
  by_contra hsome
  have := (place_of_some ha hsome).symm.trans h
  exact hne (Option.some.inj this)

theorem count_at_most_one (ha : Accounted cfg s) (pid : ℤ) (place : Place) : countAt s pid place ≤ 1 := by
  by_cases hcreated : Created s pid
  · obtain ⟨only, honly, hothers⟩ := ha.place pid hcreated
    by_cases hplace : place = only
    · rw [hplace, honly]
    · simp [hothers place hplace]
  · simp [ha.unknown pid hcreated place]

theorem place_of_none (h : ∀ place, countAt s pid place = 0) : placeOf s pid = none := by
  apply List.find?_eq_none.mpr
  intro place _ hfound
  exact (found_iff s pid place).mp hfound (h place)

theorem place_of_same (ha : Accounted cfg s) (hb : Accounted cfg t)
    (h : ∀ place, countAt t pid place = countAt s pid place) : placeOf t pid = placeOf s pid := by
  by_cases hnone : ∀ place, countAt s pid place = 0
  · rw [place_of_none hnone, place_of_none fun place => (h place).trans (hnone place)]
  · push Not at hnone
    obtain ⟨place, hplace⟩ := hnone
    rw [place_of_some ha hplace, place_of_some hb (by rw [h]; exact hplace)]

theorem places_updated (ha : Accounted cfg s) (hb : Accounted cfg t)
    (hat : placeOf t pid = some place)
    (h : ∀ other, other ≠ pid → ∀ place, countAt t other place = countAt s other place) :
    placeOf t = Function.update (placeOf s) pid (some place) := by
  funext other
  by_cases hother : other = pid
  · rw [hother, Function.update_self, hat]
  · rw [Function.update_of_ne hother, place_of_same ha hb (h other hother)]

theorem identity_count (s : System) (pid : ℤ) (place : Place) :
    weigh identity (fun e => if e.1 = pid then 1 else 0) s place = countAt s pid place :=
  weight_count s pid place

/-- One process at most changes its place, along its life cycle. -/
theorem moved_live (ha : Accounted cfg s) (hb : Accounted cfg t) (h : Moved identity s t) :
    placeOf t = placeOf s ∨ ∃ pid place, live (placeOf s) (pid, place) = some (placeOf t) := by
  cases h with
  | stays hcreated hplaces =>
    refine Or.inl (funext fun pid => place_of_same ha hb fun place => ?_)
    have := hplaces (fun e => if e.1 = pid then 1 else 0) place
    rw [identity_count, identity_count] at this
    omega
  | born pcb hcreated hplaces =>
    have hcounts : ∀ pid place, (countAt t pid place : ℤ) = countAt s pid place+
        if place = .new then (if pcb.processId = pid then 1 else 0) else 0 := fun pid place => by
      have hat := hplaces (fun e => if e.1 = pid then 1 else 0) place
      rw [identity_count, identity_count] at hat
      exact hat
    have hafter : placeOf t pcb.processId = some .new := by
      apply place_of_some hb
      have := hcounts pcb.processId .new
      simp only [if_true] at this
      omega
    have hbefore : placeOf s pcb.processId = none := by
      refine place_of_none fun place => ?_
      have hat := hcounts pcb.processId place
      by_cases hplace : place = .new
      · have := count_at_most_one hb pcb.processId place
        simp only [hplace, if_true] at hat this
        rw [hplace]
        omega
      · have := count_other hb hafter hplace
        simp only [if_neg hplace] at hat
        omega
    refine Or.inr ⟨pcb.processId, .new, ?_⟩
    have hborn : transition none .new = true := rfl
    rw [live, hbefore, if_pos hborn, places_updated ha hb hafter fun other hother place => ?_]
    have := hcounts other place
    simp only [if_neg (Ne.symm hother), ite_self] at this
    omega
  | moves id a b htransition hcreated hplaces =>
    have hne : a ≠ b := by
      rintro rfl
      cases a <;> simp [transition] at htransition
    have hcounts : ∀ pid place, (countAt t pid place : ℤ) = countAt s pid place+
        (if place = b then (if id.1 = pid then 1 else 0) else 0)-
        if place = a then (if id.1 = pid then 1 else 0) else 0 := fun pid place => by
      simpa only [identity_count] using hplaces (fun e => if e.1 = pid then 1 else 0) place
    have hbefore : placeOf s id.1 = some a := by
      apply place_of_some ha
      have := hcounts id.1 a
      simp only [if_true, if_neg hne] at this
      omega
    have hafter : placeOf t id.1 = some b := by
      apply place_of_some hb
      have := hcounts id.1 b
      simp only [if_true, if_neg (Ne.symm hne)] at this
      omega
    refine Or.inr ⟨id.1, b, ?_⟩
    rw [live, hbefore, if_pos htransition, places_updated ha hb hafter fun other hother place => ?_]
    have := hcounts other place
    simp only [if_neg (Ne.symm hother), ite_self] at this
    omega

/-- The only element that is kept. -/
theorem filter_map_single {α β : Type*} {f : α → Option β} {l : List α} {a : α} {b : β}
    (hnodup : l.Nodup) (ha : a ∈ l) (hb : f a = some b) (h : ∀ c ∈ l, c ≠ a → f c = none) :
    l.filterMap f = [b] := by
  obtain ⟨front, back, rfl⟩ := List.append_of_mem ha
  have hparts := List.nodup_append.mp hnodup
  have hfront : front.filterMap f = [] := List.filterMap_eq_nil_iff.mpr fun c hc =>
    h c (by simp [hc]) (hparts.2.2 c hc a (by simp))
  have hback : back.filterMap f = [] := List.filterMap_eq_nil_iff.mpr fun c hc =>
    h c (by simp [hc]) fun heq => (List.nodup_cons.mp hparts.2.1).1 (heq ▸ hc)
  simp [List.filterMap_append, hfront, hback, hb]

/-- A step of the kernel is one move of the life cycle, or none. -/
theorem step_live {e : Event} (hs : Sound cfg s) (h : step cfg s e = some t) :
    (changes cfg s e).length ≤ 1 ∧ run live (placeOf s) (changes cfg s e) = some (placeOf t) := by
  have ht := step_sound hs h
  have hchanges : changes cfg s e = (t.created.map Prod.fst).filterMap (changed s t) := by
    simp [changes, h]
  rcases moved_live (accounted_of_sound hs) (accounted_of_sound ht) (step_moved hs h) with
    hsame | ⟨pid, place, hlive⟩
  · have hnone : changes cfg s e = [] := by
      rw [hchanges]
      exact List.filterMap_eq_nil_iff.mpr fun pid _ => by simp [changed, hsame]
    simp [hnone, run, hsame]
  · obtain ⟨htransition, hupdate⟩ := live_some hlive
    have hplace : placeOf t pid = some place := by rw [hupdate, Function.update_self]
    have hmoves : placeOf t pid ≠ placeOf s pid := by
      intro heq
      rw [← heq, hplace] at htransition
      cases place <;> simp [transition] at htransition
    have hone : changes cfg s e = [(pid, place)] := by
      rw [hchanges]
      refine filter_map_single (created_nodup ht.registered) (created_mem ht.registered
        (created_of_place (accounted_of_sound ht) hplace)) (a := pid) ?_ fun other _ hother => ?_
      · rw [changed, if_neg hmoves, hplace, Option.map_some]
      · simp [changed, hupdate, Function.update_of_ne hother]
    simp [hone, run, hlive]

end Places

/-- From a state of a run on, the kernel takes its processes through their life cycles, one at a
time: an ended process is never moved, none comes back to NEW, and each time one was made ready
the scheduler gave it the CPU once. -/
theorem processes_live (cfg : KernelConfig) (time : TimeVal) (es fs : List Event) (s u : System)
    (h : run (step cfg) (boot cfg time) es = some s) (hr : run (step cfg) s fs = some u) :
    (∀ e t, step cfg s e = some t → (changes cfg s e).length ≤ 1) ∧
    run live (placeOf s) (collected (step cfg) (changes cfg) s fs) = some (placeOf u) ∧
    ∀ pid, (placeOf s pid = some .exit → placeOf u pid = some .exit ∧
        ∀ place, (pid, place) ∉ collected (step cfg) (changes cfg) s fs) ∧
      (placeOf s pid ≠ none → placeOf s pid ≠ some .new →
        placeOf u pid ≠ none ∧ placeOf u pid ≠ some .new) ∧
      isReady (placeOf s pid)+(collected (step cfg) (changes cfg) s fs).count (pid, .ready) =
        (collected (step cfg) (changes cfg) s fs).count (pid, .cpu)+isReady (placeOf u pid) := by
  have hsound := invariant_run (step cfg) (Sound cfg) (fun _ _ _ hi ht => step_sound hi ht) es _ s
    (boot_sound cfg time) h
  have hlives := (guarded_projection (step cfg) live placeOf (changes cfg) (Sound cfg)
    (fun _ _ => True) (fun _ _ => True) (fun s e t hi _ ht => ⟨step_sound hi ht,
      guarded_trivial live _ _, (step_live hi ht).2⟩) fs s u hsound (guarded_trivial _ fs s) hr).2
  exact ⟨fun e t ht => (step_live hsound ht).1, hlives, fun pid => ⟨exit_final hlives,
    new_once hlives, dispatched_once hlives pid⟩⟩

/-- A process that faults once and ends. -/
def faultingLife : List Event :=
  admission 0 ["MOV_IN AX 0", "EXIT"]++dispatching .fifo++stopping++resolving 0++
    List.replicate 3 .manageMemory++dispatching .fifo

def faultedLife : System :=
  reached (step (smallKernel .fifo)) (boot (smallKernel .fifo) midnight) faultingLife

theorem processes_live_faulting :
    run live (placeOf (boot (smallKernel .fifo) midnight))
      [(1, .new), (1, .ready), (1, .cpu), (1, .pageFault), (1, .ready), (1, .cpu)] =
      some (placeOf faultedLife) ∧ placeOf faultedLife 1 = some .cpu := by
  have hmoves : collected (step (smallKernel .fifo)) (changes (smallKernel .fifo))
      (boot (smallKernel .fifo) midnight) faultingLife =
      [(1, .new), (1, .ready), (1, .cpu), (1, .pageFault), (1, .ready), (1, .cpu)] := by
    decide +kernel
  have hlives := processes_live (smallKernel .fifo) midnight [] faultingLife
    (boot (smallKernel .fifo) midnight) faultedLife rfl (run_reached _ _ _ (by decide +kernel))
  rw [hmoves] at hlives
  exact ⟨hlives.2.1, by decide +kernel⟩

end Geck.Lifecycle
