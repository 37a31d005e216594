import Geck.ProcessCensus

/-!
# How many processes memory holds

Beside the kernel stands the set of processes whose structures memory has built
and not yet freed. A process that ends gives its degree token back some steps
before its `END_STRUCTURES` is sent; a console that takes the token and sends an
`INIT` in between has memory hold one process more than the degree.
-/

set_option autoImplicit false

namespace Geck.MemoryDegree
open Geck.LabelledRuns Geck.Tallies Geck.SharedPcb Geck.MemoryHandlers Geck.CpuExecution
open Geck.CpuTranslation Geck.KernelState Geck.KernelThreads Geck.KernelFrames Geck.KernelLedger
open Geck.KernelLaws Geck.KernelInvariant Geck.KernelSoundness Geck.ProcessCensus

/-- What a request does to the set of processes memory holds. -/
def holds (held : Finset ℤ) : KernelRequest → Finset ℤ
  | .initProcessStructuresMemory pcb => insert pcb.processId held
  | .requestPageFault .. => held
  | .endStructures pcb => held.erase pcb.processId

/-- The request memory handles in a step. -/
def handledRequest (s : System) : Event → List KernelRequest
  | .memoria _ => s.toMemory.take 1
  | _ => []

structure Watched where
  system : System
  held : Finset ℤ

def watch (cfg : KernelConfig) (w : Watched) (e : Event) : Option Watched :=
  (step cfg w.system e).map fun t => ⟨t, (handledRequest w.system e).foldl holds w.held⟩

def watchBoot (cfg : KernelConfig) (time : TimeVal) : Watched := ⟨boot cfg time, ∅⟩

def DegreeHeld (cfg : KernelConfig) (w : Watched) : Prop :=
  w.held.card ≤ cfg.gradoMaxMultiprogramacion

instance (cfg : KernelConfig) (w : Watched) : Decidable (DegreeHeld cfg w) :=
  inferInstanceAs (Decidable (_ ≤ _))

/-- `manage_dispatch` gave a degree token back and has not sent `END_STRUCTURES`. -/
def releasing : ThreadDispatch → Bool
  | .lockOut package => exits package
  | .setFlag package => exits package
  | .unlockOut package => exits package
  | .removeRunning package => exits package
  | .addExit _ => true
  | .sendEnd (.segFault _) => true
  | .sendMemory _ => true
  | _ => false

def sendsInit (s : System) : Event → Bool
  | .receiveConsole i => (s.consoles[i]?).any fun c => initCopy c.thread ≠ []
  | _ => false

/-- An `INIT` is not sent while a token is given back too early and none is left. -/
def SendsInTime (w : Watched) (e : Event) : Prop :=
  sendsInit w.system e = true → releasing w.system.threadDispatch = true →
    0 < w.system.semGradoMultiprogamacion

instance (w : Watched) (e : Event) : Decidable (SendsInTime w e) :=
  inferInstanceAs (Decidable (_ → _ → _))

/-- The processes memory will hold when it has handled what is on its way. -/
def eventual (w : Watched) : Finset ℤ := w.system.toMemory.foldl holds w.held

/-- The console's process is in memory, or on its way there, and still in NEW. -/
def requested : ConsoleThread → ℤ
  | .waitInit => 1
  | .removeNew => 1
  | _ => 0

attribute [simp] requested.eq_1 requested.eq_2 requested.eq_3

/-- A process in EXIT whose `END_STRUCTURES` is not sent yet. -/
def closing : ThreadDispatch → List Pcb
  | .sendEnd (.segFault pcb) => [pcb]
  | .sendMemory package => [packagePcb package]
  | _ => []

/-- Where the processes are that memory will hold. -/
structure Placed (w : Watched) : Prop where
  created : ∀ q ∈ eventual w, Created w.system q
  entering : ∀ q ∈ eventual w, ∀ pcb ∈ (threads w.system).flatMap entering, pcb.processId ≠ q
  new : ∀ q ∈ eventual w, ∀ k pcb, w.system.listNew[k]? = some pcb → pcb.processId = q →
    k = 0 ∧ ∃ thread ∈ threads w.system, requested thread = 1
  exit : ∀ q ∈ eventual w, ∀ pcb ∈ w.system.listExit, pcb.processId = q →
    ∃ p ∈ closing w.system.threadDispatch, p.processId = q

/-- At no time while memory handles what is on its way does it hold too many. -/
def Bounded (cfg : KernelConfig) (w : Watched) : Prop :=
  ∀ requests, requests <+: w.system.toMemory →
    (requests.foldl holds w.held).card ≤ cfg.gradoMaxMultiprogramacion

structure Guards (cfg : KernelConfig) (w : Watched) : Prop where
  sound : Sound cfg w.system
  placed : Placed w
  bounded : Bounded cfg w

section Counting
variable {cfg : KernelConfig} {w : Watched}

/-- The processes at the admitted places. -/
def admittedPcbs (s : System) : List Pcb :=
  processesAt s .ready++processesAt s .cpu++processesAt s .console++processesAt s .device++
    processesAt s .pageFault

theorem admitted_pcbs_length (s : System) : (admittedPcbs s).length = admittedCount s := by
  simp [admittedPcbs, admittedCount]
  ring

theorem mem_of_count {s : System} {pid : ℤ} {place : Place} (h : countAt s pid place = 1) :
    ∃ pcb ∈ processesAt s place, pcb.processId = pid := by
  have hpos : 0 < (processesAt s place).countP fun pcb => pcb.processId = pid := by
    unfold countAt at h
    omega
  obtain ⟨pcb, hmem, hpid⟩ := List.countP_pos_iff.mp hpos
  exact ⟨pcb, hmem, by simpa using hpid⟩

/-- Every process memory will hold is admitted, the head of NEW or about to be ended. -/
theorem eventual_located (hs : Sound cfg w.system) (hp : Placed w) {q : ℤ} (hq : q ∈ eventual w) :
    (∃ pcb ∈ admittedPcbs w.system, pcb.processId = q) ∨
    ((∃ thread ∈ threads w.system, requested thread = 1) ∧
      ∃ pcb, w.system.listNew[0]? = some pcb ∧ pcb.processId = q) ∨
    ∃ pcb ∈ exiting w.system.threadDispatch++closing w.system.threadDispatch, pcb.processId = q := by
  obtain ⟨place, hplace, _⟩ := place_unique hs.balanced hs.registered (hp.created q hq)
  obtain ⟨pcb, hmem, hpid⟩ := mem_of_count hplace
  cases place with
  | new =>
    rcases List.mem_append.mp hmem with hnew | hentering
    · obtain ⟨k, hk⟩ := List.mem_iff_getElem?.mp hnew
      obtain ⟨rfl, hthread⟩ := hp.new q hq k pcb hk hpid
      exact Or.inr (Or.inl ⟨hthread, pcb, hk, hpid⟩)
    · have hthreads : pcb ∈ (threads w.system).flatMap KernelLedger.entering := by
        simpa [threads, List.flatMap_map] using hentering
      exact absurd hpid (hp.entering q hq pcb hthreads)
  | exit =>
    rcases List.mem_append.mp hmem with hlist | hthread
    · obtain ⟨p, hclosing, hpid'⟩ := hp.exit q hq pcb hlist hpid
      exact Or.inr (Or.inr ⟨p, List.mem_append_right _ hclosing, hpid'⟩)
    · exact Or.inr (Or.inr ⟨pcb, List.mem_append_left _ hthread, hpid⟩)
  | _ =>
    left
    exact ⟨pcb, by simp [admittedPcbs, hmem], hpid⟩

theorem pids_card (l : List Pcb) : (l.map Pcb.processId).toFinset.card ≤ l.length := by
  simpa using List.toFinset_card_le (l.map Pcb.processId)

/-- While no requested process is in NEW, memory will hold the admitted ones and one that ends. -/
theorem eventual_card (hs : Sound cfg w.system) (hp : Placed w)
    (hnone : ∀ thread ∈ threads w.system, requested thread = 0) :
    (eventual w).card ≤ admittedCount w.system+
      (exiting w.system.threadDispatch++closing w.system.threadDispatch).length := by
  have hsub : eventual w ⊆ ((admittedPcbs w.system).map Pcb.processId).toFinset ∪
      ((exiting w.system.threadDispatch++closing w.system.threadDispatch).map
        Pcb.processId).toFinset := by
    intro q hq
    rw [Finset.mem_union, List.mem_toFinset, List.mem_toFinset, List.mem_map, List.mem_map]
    rcases eventual_located hs hp hq with hadmitted | ⟨⟨thread, hmem, hthread⟩, _⟩ | hexit
    · exact Or.inl hadmitted
    · rw [hnone thread hmem] at hthread
      cases hthread
    · exact Or.inr hexit
  calc (eventual w).card ≤ _ := Finset.card_le_card hsub
    _ ≤ _ := Finset.card_union_le _ _
    _ ≤ _ := Nat.add_le_add (pids_card _) (pids_card _)
    _ = _ := by rw [admitted_pcbs_length]

theorem exiting_tokens (thread : ThreadDispatch) :
    ((exiting thread++closing thread).length : ℤ) ≤
      owesDegree thread+(if releasing thread then 1 else 0) := by
  cases thread with
  | postFree package | lockOut package | setFlag package | unlockOut package
  | removeRunning package => cases h : exits package <;> simp [closing, releasing, h]
  | sendEnd package => cases package <;> simp [closing, releasing]
  | _ => simp [closing, releasing]

end Counting

/-- While a console sends an `INIT`, no other has a process in memory and still in NEW. -/
theorem requested_none {cfg : KernelConfig} {s : System} (hb : Balanced cfg s) {i : ℕ} {c : Console}
    {pcb : Pcb} (hc : s.consoles[i]? = some c) (hthread : c.thread = .sendInit pcb) :
    ∀ thread ∈ threads s, requested thread = 0 := by
  intro thread hmem
  obtain ⟨c', hc', rfl⟩ := List.mem_map.mp hmem
  obtain ⟨j, hj⟩ := List.mem_iff_getElem?.mp hc'
  by_cases hij : i = j
  · subst hij
    obtain rfl := Option.some.inj (hj.symm.trans hc)
    rw [hthread, requested.eq_3]
    · simp
    · simp
  · have h0 := scheduling_alone hb hij hc hj (by simp [hthread])
    cases h : c'.thread <;> simp [h] at h0 ⊢

/-- When a console sends an `INIT`, memory will hold fewer processes than tokens were given out. -/
theorem eventual_sends {cfg : KernelConfig} {w : Watched} (hs : Sound cfg w.system) (hp : Placed w)
    {i : ℕ} {c : Console} {pcb : Pcb} (hc : w.system.consoles[i]? = some c)
    (hthread : c.thread = .sendInit pcb) :
    ((eventual w).card : ℤ)+1+w.system.semGradoMultiprogamacion ≤
      cfg.gradoMaxMultiprogramacion+(if releasing w.system.threadDispatch then 1 else 0) := by
  have hnone := requested_none hs.balanced hc hthread
  have hcard := eventual_card hs hp hnone
  have htokens := degree_tokens hs.balanced
  have hheld : 1 ≤ total (fun c => holdsDegree c.thread) w.system.consoles := by
    have := le_total (f := fun c : Console => holdsDegree c.thread)
      (fun c => by cases h : c.thread <;> simp) (List.mem_of_getElem? hc)
    simpa [hthread] using this
  have hexit := exiting_tokens w.system.threadDispatch
  omega

section Placing
variable {cfg : KernelConfig} {w w' : Watched} (hp : Placed w)
include hp

theorem placed_of (heventual : eventual w' = eventual w)
    (hcounter : w'.system.pidCounter = w.system.pidCounter)
    (hthreads : ∀ thread ∈ threads w'.system, thread ∈ threads w.system ∨ entering thread = [])
    (hnew : w'.system.listNew.map Pcb.processId = w.system.listNew.map Pcb.processId)
    (hrequested : (∃ thread ∈ threads w.system, requested thread = 1) →
      ∃ thread ∈ threads w'.system, requested thread = 1)
    (hexit : w'.system.listExit = w.system.listExit)
    (hclosing : closing w'.system.threadDispatch = closing w.system.threadDispatch) :
    Placed w' where
  created := by
    intro q hq
    rw [heventual] at hq
    have := hp.created q hq
    rwa [Created, hcounter]
  entering := by
    intro q hq pcb hpcb
    rw [heventual] at hq
    obtain ⟨thread, hmem, hin⟩ := List.mem_flatMap.mp hpcb
    rcases hthreads thread hmem with hold | hnone
    · exact hp.entering q hq pcb (List.mem_flatMap.mpr ⟨thread, hold, hin⟩)
    · rw [hnone] at hin
      cases hin
  new := by
    intro q hq k pcb hk hpid
    rw [heventual] at hq
    have hpids := congrArg (fun l => l[k]?) hnew
    simp only [List.getElem?_map, hk, Option.map_some] at hpids
    obtain ⟨p, hpk, hpp⟩ := Option.map_eq_some_iff.mp hpids.symm
    obtain ⟨hk0, hthread⟩ := hp.new q hq k p hpk (hpp.trans hpid)
    exact ⟨hk0, hrequested hthread⟩
  exit := by
    intro q hq
    rw [heventual] at hq
    rw [hexit, hclosing]
    exact hp.exit q hq

/-- A step that touches none of what the places are read from. -/
theorem placed_same (heventual : eventual w' = eventual w)
    (hcounter : w'.system.pidCounter = w.system.pidCounter)
    (hthreads : threads w'.system = threads w.system)
    (hnew : w'.system.listNew = w.system.listNew) (hexit : w'.system.listExit = w.system.listExit)
    (hdispatch : w'.system.threadDispatch = w.system.threadDispatch) : Placed w' := by
  apply placed_of hp heventual hcounter
  · intro thread hmem
    rw [hthreads] at hmem
    exact Or.inl hmem
  · rw [hnew]
  · rw [hthreads]
    exact id
  · exact hexit
  · rw [hdispatch]

end Placing

theorem requested_set {threads : List ConsoleThread} {i : ℕ} {thread thread' : ConsoleThread}
    (hi : threads[i]? = some thread) (h : requested thread = 1 → requested thread' = 1)
    (hsome : ∃ thread ∈ threads, requested thread = 1) :
    ∃ thread ∈ threads.set i thread', requested thread = 1 := by
  obtain ⟨other, hmem, hother⟩ := hsome
  obtain ⟨j, hj⟩ := List.mem_iff_getElem?.mp hmem
  have hlt : i < threads.length := (List.getElem?_eq_some_iff.mp hi).1
  by_cases hij : i = j
  · subst hij
    obtain rfl := Option.some.inj (hi.symm.trans hj)
    refine ⟨thread', ?_, h hother⟩
    exact List.mem_of_getElem? (List.getElem?_set_self hlt)
  · refine ⟨other, ?_, hother⟩
    apply List.mem_of_getElem? (i := j)
    rw [List.getElem?_set_ne hij]
    exact hj

section Consoles
variable {cfg : KernelConfig} {w : Watched} {t : System} {i : ℕ} {c : Console}
  (hc : w.system.consoles[i]? = some c)
include hc

theorem thread_at : (threads w.system)[i]? = some c.thread := by
  simp [threads, hc]

variable (hp : Placed w)
include hp

/-- The thread of one console moved on, and nothing else the places are read from. -/
theorem placed_set (thread : ConsoleThread) (hentering : entering thread = [])
    (hrequested : requested c.thread = 1 → requested thread = 1)
    (hthreads : threads t = (threads w.system).set i thread)
    (hmemory : t.toMemory = w.system.toMemory) (hcounter : t.pidCounter = w.system.pidCounter)
    (hnew : t.listNew = w.system.listNew) (hexit : t.listExit = w.system.listExit)
    (hdispatch : t.threadDispatch = w.system.threadDispatch) : Placed ⟨t, w.held⟩ := by
  apply placed_of hp
  · simp [eventual, hmemory]
  · exact hcounter
  · intro other hmem
    rw [hthreads] at hmem
    rcases List.mem_or_eq_of_mem_set hmem with hold | rfl
    · exact Or.inl hold
    · exact Or.inr hentering
  · rw [hnew]
  · intro hsome
    show ∃ thread ∈ threads t, requested thread = 1
    rw [hthreads]
    exact requested_set (thread_at hc) hrequested hsome
  · exact hexit
  · exact congrArg closing hdispatch

/-- A process that is created has a number memory never saw. -/
theorem placed_create {rest : List ConsoleRequest} {instructions segments : List String}
    (hthread : c.thread = .receive) : Placed ⟨{ w.system with
        pidCounter := w.system.pidCounter+1
        created := w.system.created++[(w.system.pidCounter, (i : ℤ))] }.setConsole i { c with
          thread := .created (pcbCreate instructions i w.system.pidCounter segments)
          toKernel := rest }, w.held⟩ where
  created := by
    intro q hq
    obtain ⟨h1, h2⟩ := hp.created q hq
    exact ⟨h1, by show q < w.system.pidCounter+1; omega⟩
  entering := by
    intro q hq pcb hpcb
    rw [threads_set] at hpcb
    rcases flat_map_set_subset entering hpcb with hnew | hold
    · obtain rfl := List.mem_singleton.mp hnew
      have := (hp.created q hq).2
      show w.system.pidCounter ≠ q
      omega
    · exact hp.entering q hq pcb hold
  new := by
    intro q hq k pcb hk hpid
    obtain ⟨hk0, hsome⟩ := hp.new q hq k pcb hk hpid
    refine ⟨hk0, ?_⟩
    rw [threads_set]
    exact requested_set (thread_at hc) (by simp [hthread, requested]) hsome
  exit := hp.exit

theorem placed_enter {pcb : Pcb} (hthread : c.thread = .created pcb) :
    Placed ⟨{ w.system with listNew := w.system.listNew++[changePcbStateTo pcb .new] }.setConsole i
      { c with thread := .waitScheduleReady }, w.held⟩ where
  created := hp.created
  entering := by
    intro q hq p hpcb
    rw [threads_set] at hpcb
    rcases flat_map_set_subset entering hpcb with hnew | hold
    · cases hnew
    · exact hp.entering q hq p hold
  new := by
    intro q hq k p hk hpid
    have hk' : (w.system.listNew++[changePcbStateTo pcb .new])[k]? = some p := hk
    rw [List.getElem?_append] at hk'
    split at hk'
    · obtain ⟨hk0, hsome⟩ := hp.new q hq k p hk' hpid
      refine ⟨hk0, ?_⟩
      rw [threads_set]
      exact requested_set (thread_at hc) (by simp [hthread, requested]) hsome
    · have hmem := List.mem_of_getElem? hk'
      obtain rfl := List.mem_singleton.mp hmem
      have hin : pcb ∈ (threads w.system).flatMap entering :=
        List.mem_flatMap.mpr ⟨c.thread, List.mem_of_getElem? (thread_at hc), by simp [hthread]⟩
      exact absurd hpid (hp.entering q hq pcb hin)
  exit := hp.exit

omit hc in
theorem placed_remove {pcb : Pcb} {rest : List Pcb} (hn : w.system.listNew = pcb::rest) :
    Placed ⟨{ w.system with listNew := rest }.setConsole i { c with thread := .addReady pcb },
      w.held⟩ where
  created := hp.created
  entering := by
    intro q hq p hpcb
    rw [threads_set] at hpcb
    rcases flat_map_set_subset entering hpcb with hnew | hold
    · cases hnew
    · exact hp.entering q hq p hold
  new := by
    intro q hq k p hk hpid
    have hk' : w.system.listNew[k+1]? = some p := by
      rw [hn, List.getElem?_cons_succ]
      exact hk
    obtain ⟨hk0, _⟩ := hp.new q hq (k+1) p hk' hpid
    omega
  exit := hp.exit

/-- The head of NEW is on its way to memory; no other process in NEW is. -/
theorem placed_send (hs : Sound cfg w.system) {pcb : Pcb} (hthread : c.thread = .sendInit pcb) :
    Placed ⟨{ w.system with
      toMemory := w.system.toMemory++[KernelRequest.initProcessStructuresMemory pcb] }.setConsole i
      { c with thread := .waitInit }, w.held⟩ := by
  obtain ⟨head, rest, hn, hid⟩ := head_of_copy hs.heads
    (List.mem_append_right (copies w.system) (init_copy_pending hc hthread))
  have hpid : pcb.processId = head.processId := congrArg Prod.fst hid
  have hmem : head ∈ processesAt w.system .new := by simp [processesAt, hn]
  have hone : 1 ≤ countAt w.system pcb.processId .new := by
    apply List.countP_pos_iff.mpr
    exact ⟨head, hmem, by simp [hpid]⟩
  have hcreated : Created w.system pcb.processId := by
    by_contra hnot
    have := place_unknown hs.balanced hs.registered hnot .new
    omega
  have hcounts := places_count hs.balanced hs.registered pcb.processId
  rw [if_pos hcreated] at hcounts
  have hnew : countAt w.system pcb.processId .new =
      (rest.countP fun p => p.processId = pcb.processId)+1+
        ((threads w.system).flatMap entering).countP fun p => p.processId = pcb.processId := by
    simp only [countAt, processesAt, hn, hpid, threads, List.flatMap_map, List.countP_append,
      List.countP_cons, decide_true, if_true]
  have heventual : ∀ q ∈ eventual ⟨{ w.system with
      toMemory := w.system.toMemory++[KernelRequest.initProcessStructuresMemory pcb] }.setConsole i
      { c with thread := .waitInit }, w.held⟩, q = pcb.processId ∨ q ∈ eventual w := by
    intro q hq
    have hq' : q ∈ (w.system.toMemory++[KernelRequest.initProcessStructuresMemory pcb]).foldl holds
        w.held := hq
    rw [List.foldl_append] at hq'
    exact Finset.mem_insert.mp hq'
  have hwaits : ∃ thread ∈ (threads w.system).set i .waitInit, requested thread = 1 := by
    refine ⟨.waitInit, ?_, rfl⟩
    apply List.mem_of_getElem? (i := i)
    exact List.getElem?_set_self (List.getElem?_eq_some_iff.mp (thread_at hc)).1
  constructor
  · intro q hq
    rcases heventual q hq with rfl | hold
    · exact hcreated
    · exact hp.created q hold
  · intro q hq p hpcb
    rw [threads_set] at hpcb
    rcases flat_map_set_subset entering hpcb with hnil | hin
    · cases hnil
    rcases heventual q hq with rfl | hold
    · intro he
      have hpos : 0 < ((threads w.system).flatMap entering).countP
          fun p => p.processId = pcb.processId :=
        List.countP_pos_iff.mpr ⟨p, hin, by simp [he]⟩
      omega
    · exact hp.entering q hold p hin
  · intro q hq k p hk he
    rw [threads_set]
    refine ⟨?_, hwaits⟩
    have hk' : w.system.listNew[k]? = some p := hk
    rcases heventual q hq with rfl | hold
    · by_contra hk0
      obtain ⟨j, rfl⟩ := Nat.exists_eq_succ_of_ne_zero hk0
      rw [hn, List.getElem?_cons_succ] at hk'
      have hpos : 0 < rest.countP fun p => p.processId = pcb.processId :=
        List.countP_pos_iff.mpr ⟨p, List.mem_of_getElem? hk', by simp [he]⟩
      omega
    · exact (hp.new q hold k p hk' he).1
  · intro q hq p hin he
    rcases heventual q hq with rfl | hold
    · have hpos : 0 < countAt w.system pcb.processId .exit := by
        apply List.countP_pos_iff.mpr
        exact ⟨p, List.mem_append_left _ hin, by simp [he]⟩
      omega
    · exact hp.exit q hold p hin he

theorem receive_console_placed (hs : Sound cfg w.system)
    (h : receiveConsole cfg w.system i c = some t) : Placed ⟨t, w.held⟩ := by
  cases hthread : c.thread with
  | receive =>
    cases hk : c.toKernel with
    | nil => simp [receiveConsole, hthread, hk] at h
    | cons request rest =>
      cases request with
      | initProcess instructions segments =>
        simp only [receiveConsole, hthread, hk, Option.some.injEq] at h
        subst h
        exact placed_create hc hp hthread
      | ioScreenResponse pcb | ioKeyboardResponse pcb =>
        simp only [receiveConsole, hthread, hk, Option.some.injEq] at h
        subst h
        exact placed_set hc hp (.returned pcb) rfl (by simp [hthread, requested])
          (threads_set _ _ _) rfl rfl rfl rfl rfl
  | created pcb =>
    simp only [receiveConsole, hthread, Option.some.injEq] at h
    subst h
    exact placed_enter hc hp hthread
  | removeNew =>
    cases hn : w.system.listNew with
    | nil => simp [receiveConsole, scheduleNextToReady, hthread, hn] at h
    | cons pcb rest =>
      simp only [receiveConsole, scheduleNextToReady, hthread, hn, Option.some.injEq] at h
      subst h
      exact placed_remove hp hn
  | sendInit pcb =>
    simp only [receiveConsole, scheduleNextToReady, hthread, Option.some.injEq] at h
    subst h
    exact placed_send hc hp hs hthread
  | testNew =>
    simp only [receiveConsole, scheduleNextToReady, hthread, Option.some.injEq] at h
    subst h
    refine placed_set hc hp _ ?_ (by simp [hthread, requested]) (threads_set _ _ _) rfl rfl rfl rfl rfl
    split <;> rfl
  | getNew =>
    cases hn : w.system.listNew with
    | nil => simp [receiveConsole, scheduleNextToReady, hthread, hn] at h
    | cons pcb rest =>
      simp only [receiveConsole, scheduleNextToReady, hthread, hn, Option.some.injEq] at h
      subst h
      exact placed_set hc hp (.sendInit pcb) rfl (by simp [hthread, requested])
        (threads_set _ _ _) rfl rfl rfl rfl rfl
  | waitScheduleReady | waitGrado =>
    simp only [receiveConsole, scheduleNextToReady, hthread, Option.ite_none_right_eq_some,
      Option.some.injEq] at h
    obtain ⟨-, rfl⟩ := h
    refine placed_set hc hp _ ?_ (by simp [hthread, requested]) (threads_set _ _ _) rfl rfl rfl rfl rfl
    rfl
  | waitInit =>
    simp only [receiveConsole, scheduleNextToReady, hthread, Option.ite_none_right_eq_some,
      Option.some.injEq] at h
    obtain ⟨-, rfl⟩ := h
    exact placed_set hc hp .removeNew rfl (fun _ => rfl) (threads_set _ _ _) rfl rfl rfl
      rfl rfl
  | addReady pcb =>
    simp only [receiveConsole, scheduleNextToReady, hthread, Option.some.injEq] at h
    subst h
    obtain ⟨ready, rr, hready⟩ := add_to_ready_frame cfg w.system pcb
    rw [hready]
    exact placed_set hc hp .postReady rfl (by simp [hthread, requested])
      (threads_set _ _ _) rfl rfl rfl rfl rfl
  | returned pcb =>
    simp only [receiveConsole, hthread, Option.some.injEq] at h
    subst h
    obtain ⟨ready, rr, hready⟩ := add_to_ready_frame cfg w.system pcb
    rw [hready]
    exact placed_set hc hp .postReturned rfl (by simp [hthread, requested])
      (threads_set _ _ _) rfl rfl rfl rfl rfl
  | postReady | postScheduleReady | postReturned =>
    simp only [receiveConsole, scheduleNextToReady, hthread, Option.some.injEq] at h
    subst h
    refine placed_set hc hp _ ?_ (by simp [hthread, requested]) (threads_set _ _ _) rfl rfl rfl rfl rfl
    rfl

end Consoles

section Others
variable {cfg : KernelConfig} {w : Watched} {t : System} (hp : Placed w)
include hp

/-- The answer that replaces the head of NEW is of the same process. -/
theorem manage_memory_placed (hs : Sound cfg w.system) (h : manageMemory cfg w.system = some t) :
    Placed ⟨t, w.held⟩ := by
  cases hthread : w.system.threadMemory with
  | replaceNew pcb =>
    have hcopy : pcb ∈ pendingCopies w.system := by
      simp [pendingCopies, copies, replacement, hthread]
    obtain ⟨head, rest, hn, hid⟩ := head_of_copy hs.heads hcopy
    simp only [manageMemory, hthread, Option.some.injEq] at h
    subst h
    apply placed_of hp
    · rfl
    · rfl
    · exact fun thread hmem => Or.inl hmem
    · show (listReplace w.system.listNew 0 pcb).map Pcb.processId = _
      rw [hn]
      simp only [listReplace, le_refl, if_true, Int.toNat_zero, List.set_cons_zero, List.map_cons]
      rw [show pcb.processId = head.processId from congrArg Prod.fst hid]
    · exact id
    · rfl
    · rfl
  | _ =>
    have hnew : t.listNew = w.system.listNew := by
      simp only [manageMemory, hthread] at h
      repeat' split at h
      all_goals simp only [Option.some.injEq, reduceCtorEq] at h
      all_goals subst h
      all_goals first | rfl | (obtain ⟨ready, rr, hready⟩ := add_to_ready_frame cfg w.system _; rw [hready])
    obtain ⟨_, _, _, _, _, _, _, _, rfl⟩ := manage_memory_frame h
    exact placed_same hp rfl rfl rfl hnew rfl rfl

omit hp in
theorem send_to_console_threads (s : System) (clientSocket : ℤ) (message : ConsoleMessage) :
    threads (sendToConsole s clientSocket message) = threads s := by
  rcases send_to_console_consoles s clientSocket message with hsame | ⟨i, c, hc, hset⟩
  · rw [threads, hsame]
    rfl
  · rw [threads, hset]
    exact threads_same hc rfl

omit hp in
theorem manage_dispatch_threads (h : manageDispatch cfg w.system = some t) :
    threads t = threads w.system := by
  unfold manageDispatch at h
  repeat' split at h
  all_goals simp only [Option.some.injEq, reduceCtorEq] at h
  all_goals subst h
  all_goals first | rfl | exact send_to_console_threads _ _ _

theorem placed_exit {package : CpuPackage} (hthread : w.system.threadDispatch = .addExit package)
    (h : manageDispatch cfg w.system = some t) : Placed ⟨t, w.held⟩ := by
  have hclosing : closing t.threadDispatch = [packagePcb package] := by
    simp only [manageDispatch, hthread, Option.some.injEq] at h
    subst h
    cases package <;> rfl
  have hthreads := manage_dispatch_threads h
  simp only [manageDispatch, hthread, Option.some.injEq] at h
  subst h
  refine ⟨hp.created, hp.entering, hp.new, ?_⟩
  intro q hq pcb hmem hpid
  rw [hclosing]
  rcases List.mem_append.mp hmem with hold | hnew
  · obtain ⟨p, hin, _⟩ := hp.exit q hq pcb hold hpid
    simp [hthread, closing] at hin
  · obtain rfl := List.mem_singleton.mp hnew
    exact ⟨packagePcb package, List.mem_singleton.mpr rfl, hpid⟩

/-- The process that ends is not one of those memory will hold then. -/
theorem placed_end {package : CpuPackage} (hthread : w.system.threadDispatch = .sendMemory package)
    (h : manageDispatch cfg w.system = some t) : Placed ⟨t, w.held⟩ := by
  simp only [manageDispatch, hthread, Option.some.injEq] at h
  subst h
  have heventual : ∀ q ∈ (w.system.toMemory++[KernelRequest.endStructures
      (changePcbStateTo (packagePcb package) .exit)]).foldl holds w.held,
      q ≠ (packagePcb package).processId ∧ q ∈ eventual w := by
    intro q hq
    rw [List.foldl_append] at hq
    exact Finset.mem_erase.mp hq
  constructor
  · intro q hq
    exact hp.created q (heventual q hq).2
  · intro q hq
    exact hp.entering q (heventual q hq).2
  · intro q hq
    exact hp.new q (heventual q hq).2
  · intro q hq pcb hmem hpid
    obtain ⟨hne, hold⟩ := heventual q hq
    obtain ⟨p, hin, hp⟩ := hp.exit q hold pcb hmem hpid
    rw [hthread] at hin
    obtain rfl := List.mem_singleton.mp hin
    exact absurd hp.symm hne

theorem manage_dispatch_placed
    (h : manageDispatch cfg w.system = some t) : Placed ⟨t, w.held⟩ := by
  have hthreads := manage_dispatch_threads h
  have hmove (hcounter : t.pidCounter = w.system.pidCounter) (hnew : t.listNew = w.system.listNew)
      (hmemory : t.toMemory = w.system.toMemory) (hexit : t.listExit = w.system.listExit)
      (hclosing : closing t.threadDispatch = closing w.system.threadDispatch) :
      Placed ⟨t, w.held⟩ := by
    apply placed_of hp
    · simp [eventual, hmemory]
    · exact hcounter
    · intro thread hmem
      rw [hthreads] at hmem
      exact Or.inl hmem
    · rw [hnew]
    · rw [hthreads]
      exact id
    · exact hexit
    · exact hclosing
  cases hthread : w.system.threadDispatch with
  | addExit package => exact placed_exit hp hthread h
  | sendMemory package => exact placed_end hp hthread h
  | sendEnd package =>
    choose consoles hframe using send_to_console_frame w.system
    cases package
    all_goals
      simp only [manageDispatch, hthread, hframe, Option.some.injEq] at h
      subst h
      exact hmove rfl rfl rfl rfl (by simp [closing, hthread])
  | sendConsole package =>
    obtain ⟨_, hframe⟩ := send_to_console_frame w.system (packagePcb package).clientSocket
      (ioMessage package)
    simp only [manageDispatch, hthread, hframe, Option.some.injEq] at h
    subst h
    exact hmove rfl rfl rfl rfl (by simp [closing, hthread])
  | postFree package | unlockOut package | removeRunning package =>
    simp only [manageDispatch, hthread, Option.some.injEq] at h
    subst h
    refine hmove rfl rfl rfl rfl ?_
    cases package <;> simp [closing, hthread, afterFree, afterFlag, afterRunning]
  | _ =>
    simp only [manageDispatch, hthread] at h
    repeat' split at h
    all_goals simp only [Option.some.injEq, reduceCtorEq] at h
    all_goals
      subst h
      exact hmove rfl rfl rfl rfl (by simp [closing, hthread])

theorem connect_placed (instructions segments : List String) :
    Placed ⟨connect w.system instructions segments, w.held⟩ := by
  have hthreads : threads (connect w.system instructions segments) =
      threads w.system++[.receive] := by
    simp [threads, connect]
  apply placed_of hp
  · rfl
  · rfl
  · intro thread hmem
    rw [hthreads] at hmem
    rcases List.mem_append.mp hmem with hold | hnew
    · exact Or.inl hold
    · exact Or.inr (by rw [List.mem_singleton.mp hnew]; rfl)
  · rfl
  · rintro ⟨thread, hmem, hthread⟩
    show ∃ thread ∈ threads (connect w.system instructions segments), _
    rw [hthreads]
    exact ⟨thread, List.mem_append_left _ hmem, hthread⟩
  · rfl
  · rfl

end Others

section Steps
variable {cfg : KernelConfig} {w w' : Watched} {e : Event}

theorem step_placed (hs : Sound cfg w.system) (hp : Placed w) (h : watch cfg w e = some w') :
    Placed w' := by
  obtain ⟨t, ht, rfl⟩ := Option.map_eq_some_iff.mp h
  cases e with
  | connect instructions segments =>
    cases ht
    exact connect_placed hp instructions segments
  | console i value =>
    obtain ⟨c, hc, ht⟩ := Option.bind_eq_some_iff.mp ht
    obtain ⟨_, _, _, _, _, rfl⟩ := consola_frame ht
    exact placed_same hp rfl rfl (threads_same hc rfl) rfl rfl rfl
  | receiveConsole i =>
    obtain ⟨c, hc, ht⟩ := Option.bind_eq_some_iff.mp ht
    exact receive_console_placed hc hp hs ht
  | scheduleNextToRunning =>
    obtain ⟨_, _, _, _, _, _, _, _, _, _, _, rfl⟩ := schedule_next_to_running_frame ht
    exact placed_same hp rfl rfl rfl rfl rfl rfl
  | manageDispatch => exact manage_dispatch_placed hp ht
  | manageInterrupt =>
    obtain ⟨_, _, _, _, rfl⟩ := manage_interrupt_frame ht
    exact placed_same hp rfl rfl rfl rfl rfl rfl
  | countQuantum expired =>
    obtain ⟨_, _, _, _, _, _, rfl⟩ := count_quantum_frame ht
    exact placed_same hp rfl rfl rfl rfl rfl rfl
  | manageMemory => exact manage_memory_placed hp hs ht
  | resolvePageFault i =>
    obtain ⟨p, -, ht⟩ := Option.bind_eq_some_iff.mp ht
    have heventual : eventual ⟨t, w.held⟩ = eventual w := by
      cases p with
      | lock pcb segmentNumber pageNumber =>
        simp only [resolvePageFault] at ht
        split at ht
        · cases ht
        · cases ht
          rfl
      | send pcb segmentNumber pageNumber =>
        cases ht
        show (w.system.toMemory++[KernelRequest.requestPageFault pcb segmentNumber
          pageNumber]).foldl holds w.held = _
        rw [List.foldl_append]
        rfl
      | finished => cases ht
    obtain ⟨_, _, _, rfl⟩ := resolve_page_fault_frame ht
    exact placed_same hp heventual rfl rfl rfl rfl rfl
  | simulateIo i =>
    obtain ⟨d, -, ht⟩ := Option.bind_eq_some_iff.mp ht
    obtain ⟨_, _, _, _, rfl⟩ := simulate_io_default_frame ht
    exact placed_same hp rfl rfl rfl rfl rfl rfl
  | processDispatch answers =>
    obtain ⟨_, _, _, _, _, _, _, rfl⟩ := process_dispatch_frame ht
    exact placed_same hp rfl rfl rfl rfl rfl rfl
  | processInterrupt =>
    obtain ⟨_, _, _, rfl⟩ := process_interrupt_cases ht
    exact placed_same hp rfl rfl rfl rfl rfl rfl
  | memoria segments =>
    obtain ⟨request, rest, hq, rfl⟩ := memoria_cases ht
    refine placed_same hp ?_ rfl rfl rfl rfl rfl
    simp [eventual, handledRequest, hq]

/-- What a step adds to the requests on their way to memory. -/
theorem requests_sent {t : System} (ht : step cfg w.system e = some t)
    (hmemory : ∀ segments, e ≠ .memoria segments) : t.toMemory = w.system.toMemory ∨
      ∃ request, t.toMemory = w.system.toMemory++[request] ∧
        ∀ pcb, request = .initProcessStructuresMemory pcb → ∃ i c, e = .receiveConsole i ∧
          w.system.consoles[i]? = some c ∧ c.thread = .sendInit pcb := by
  cases e with
  | connect instructions segments =>
    cases ht
    exact Or.inl rfl
  | console i value =>
    obtain ⟨c, hc, ht⟩ := Option.bind_eq_some_iff.mp ht
    obtain ⟨_, _, _, _, _, rfl⟩ := consola_frame ht
    exact Or.inl rfl
  | receiveConsole i =>
    obtain ⟨c, hc, ht⟩ := Option.bind_eq_some_iff.mp ht
    cases hthread : c.thread with
    | sendInit pcb =>
      simp only [receiveConsole, scheduleNextToReady, hthread, Option.some.injEq] at ht
      subst ht
      refine Or.inr ⟨_, rfl, ?_⟩
      intro p he
      cases he
      exact ⟨i, c, rfl, hc, hthread⟩
    | _ =>
      left
      simp only [receiveConsole, scheduleNextToReady, hthread] at ht
      repeat' split at ht
      all_goals simp only [Option.some.injEq, reduceCtorEq] at ht
      all_goals subst ht
      all_goals first
        | rfl
        | (obtain ⟨ready, rr, hready⟩ := add_to_ready_frame cfg w.system _; rw [hready]; rfl)
  | scheduleNextToRunning =>
    obtain ⟨_, _, _, _, _, _, _, _, _, _, _, rfl⟩ := schedule_next_to_running_frame ht
    exact Or.inl rfl
  | manageDispatch =>
    cases hthread : w.system.threadDispatch with
    | sendMemory package =>
      simp only [step, manageDispatch, hthread, Option.some.injEq] at ht
      subst ht
      exact Or.inr ⟨_, rfl, by simp⟩
    | _ =>
      left
      simp only [step, manageDispatch, hthread] at ht
      repeat' split at ht
      all_goals simp only [Option.some.injEq, reduceCtorEq] at ht
      all_goals subst ht
      all_goals first | rfl | exact send_to_console_to_memory _ _ _
  | manageInterrupt =>
    obtain ⟨_, _, _, _, rfl⟩ := manage_interrupt_frame ht
    exact Or.inl rfl
  | countQuantum expired =>
    obtain ⟨_, _, _, _, _, _, rfl⟩ := count_quantum_frame ht
    exact Or.inl rfl
  | manageMemory =>
    obtain ⟨_, _, _, _, _, _, _, _, rfl⟩ := manage_memory_frame ht
    exact Or.inl rfl
  | resolvePageFault i =>
    obtain ⟨p, -, ht⟩ := Option.bind_eq_some_iff.mp ht
    cases p with
    | lock pcb segmentNumber pageNumber =>
      simp only [resolvePageFault] at ht
      split at ht
      · cases ht
      · cases ht
        exact Or.inl rfl
    | send pcb segmentNumber pageNumber =>
      cases ht
      exact Or.inr ⟨_, rfl, by simp⟩
    | finished => cases ht
  | simulateIo i =>
    obtain ⟨d, -, ht⟩ := Option.bind_eq_some_iff.mp ht
    obtain ⟨_, _, _, _, rfl⟩ := simulate_io_default_frame ht
    exact Or.inl rfl
  | processDispatch answers =>
    obtain ⟨_, _, _, _, _, _, _, rfl⟩ := process_dispatch_frame ht
    exact Or.inl rfl
  | processInterrupt =>
    obtain ⟨_, _, _, rfl⟩ := process_interrupt_cases ht
    exact Or.inl rfl
  | memoria segments => exact absurd rfl (hmemory segments)

theorem eventual_bounded (hb : Bounded cfg w) :
    (eventual w).card ≤ cfg.gradoMaxMultiprogramacion :=
  hb w.system.toMemory (List.prefix_refl _)

/-- One more request on its way keeps the bound, if memory can hold what it leads to. -/
theorem bounded_append (hb : Bounded cfg w) {t : System} {request : KernelRequest}
    (ht : t.toMemory = w.system.toMemory++[request])
    (hcard : (holds (eventual w) request).card ≤ cfg.gradoMaxMultiprogramacion) :
    Bounded cfg ⟨t, w.held⟩ := by
  intro requests hprefix
  have hprefix' : requests <+: w.system.toMemory++[request] := by rwa [← ht]
  rcases List.prefix_concat_iff.mp hprefix' with rfl | hold
  · rw [List.foldl_append]
    exact hcard
  · exact hb requests hold

theorem step_bounded (hg : Guards cfg w) (htime : SendsInTime w e)
    (h : watch cfg w e = some w') : Bounded cfg w' := by
  obtain ⟨t, ht, rfl⟩ := Option.map_eq_some_iff.mp h
  by_cases hmemory : ∃ segments, e = .memoria segments
  · obtain ⟨segments, rfl⟩ := hmemory
    obtain ⟨request, rest, hq, rfl⟩ := memoria_cases ht
    intro requests hprefix
    have := hg.bounded (request::requests) (by rw [hq]; exact List.prefix_cons_inj _ |>.mpr hprefix)
    simpa [handledRequest, hq] using this
  · have hnone : handledRequest w.system e = [] := by
      cases e with
      | memoria segments => exact absurd ⟨segments, rfl⟩ hmemory
      | _ => rfl
    rw [hnone]
    rcases requests_sent ht (by simpa using hmemory) with hsame | ⟨request, hsent, hinit⟩
    · intro requests hprefix
      have hprefix' : requests <+: w.system.toMemory := by rwa [← hsame]
      exact hg.bounded requests hprefix'
    apply bounded_append hg.bounded hsent
    cases request with
    | initProcessStructuresMemory pcb =>
      obtain ⟨i, c, rfl, hc, hthread⟩ := hinit pcb rfl
      have hsends := eventual_sends hg.sound hg.placed hc hthread
      have hinsert := Finset.card_insert_le pcb.processId (eventual w)
      have hin : sendsInit w.system (.receiveConsole i) = true := by
        simp [sendsInit, hc, hthread, initCopy]
      show (insert pcb.processId (eventual w)).card ≤ _
      by_cases hreleasing : releasing w.system.threadDispatch = true
      · have hleft := htime hin hreleasing
        rw [if_pos hreleasing] at hsends
        omega
      · rw [if_neg hreleasing] at hsends
        omega
    | requestPageFault pcb sn pn => exact eventual_bounded hg.bounded
    | endStructures pcb => exact Finset.card_erase_le.trans (eventual_bounded hg.bounded)

theorem step_guards (hg : Guards cfg w) (htime : SendsInTime w e)
    (h : watch cfg w e = some w') : Guards cfg w' := by
  refine ⟨?_, step_placed hg.sound hg.placed h, step_bounded hg htime h⟩
  obtain ⟨t, ht, rfl⟩ := Option.map_eq_some_iff.mp h
  exact step_sound hg.sound ht

end Steps

theorem boot_guards (cfg : KernelConfig) (time : TimeVal) : Guards cfg (watchBoot cfg time) where
  sound := boot_sound cfg time
  placed := by constructor <;> simp [eventual, watchBoot, boot]
  bounded := by simp [Bounded, watchBoot, boot]

/-- In a run in which every `INIT` is sent in time memory never holds more processes than the
degree. -/
theorem degree_held (cfg : KernelConfig) (time : TimeVal) (es : List Event)
    (h : Guarded (watch cfg) SendsInTime (watchBoot cfg time) es) :
    Always (watch cfg) (DegreeHeld cfg) (watchBoot cfg time) es := by
  apply always_of_guarded (watch cfg) (Guards cfg) (DegreeHeld cfg) SendsInTime
  · intro w e w' hg htime hstep
    exact step_guards hg htime hstep
  · intro w hg
    exact hg.bounded [] (List.nil_prefix)
  · exact boot_guards cfg time
  · exact h

def oneProcess : KernelConfig := { smallKernel .fifo with gradoMaxMultiprogramacion := 1 }

/-- The first process ends while a second console waits for its degree token. -/
def endingRun : List Event :=
  admission 0 ["EXIT"]++dispatching .fifo++[Event.connect ["EXIT"] ["16"]]++
    List.replicate 3 (Event.receiveConsole 1)++stopping++List.replicate 3 Event.manageDispatch

/-- The second console takes the token and sends its `INIT` before memory is told of the end. -/
def overtakingRun : List Event :=
  endingRun++List.replicate 4 (Event.receiveConsole 1)++[Event.memoria [⟨1, 0, 16⟩]]

theorem degree_overtaken :
    run (watch oneProcess) (watchBoot oneProcess midnight) overtakingRun =
        some (reached (watch oneProcess) (watchBoot oneProcess midnight) overtakingRun) ∧
      ¬DegreeHeld oneProcess
        (reached (watch oneProcess) (watchBoot oneProcess midnight) overtakingRun) :=
  ⟨run_reached _ _ _ (by decide +kernel), by decide +kernel⟩

/-- The same two processes when the dispatch thread sends `END_STRUCTURES` first. -/
def orderlyRun : List Event :=
  endingRun++List.replicate 6 .manageDispatch++List.replicate 4 (.receiveConsole 1)++
    [.memoria [], .memoria [⟨1, 0, 16⟩]]

theorem degree_held_orderly :
    Always (watch oneProcess) (DegreeHeld oneProcess) (watchBoot oneProcess midnight) orderlyRun ∧
      (reached (watch oneProcess) (watchBoot oneProcess midnight) orderlyRun).held = {2} :=
  ⟨degree_held oneProcess midnight orderlyRun (by decide +kernel), by decide +kernel⟩

end Geck.MemoryDegree
