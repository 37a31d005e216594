import Geck.MachineOperations
import Geck.ProcessCensus

/-!
# Admission and the page tables of a process

Memory answers an `INIT` with the tables it built, and the kernel stores the
answer over the head of NEW without looking at its process. The head is the
process that was sent, and no later step takes the tables from a PCB, or a
segment that its console declared. All this needs each list to be changed by one
thread at a time, which the mutexes of the lists do not see to.
-/

set_option autoImplicit false

namespace Geck.Admission
open Geck.LabelledRuns Geck.BlockStore Geck.SharedPcb Geck.MemoryState Geck.MemoryPaging
open Geck.MemoryHandlers Geck.MemoryAccounting Geck.MemoryFaults Geck.PageTables
open Geck.CpuTranslation Geck.CpuExecution Geck.KernelState Geck.KernelThreads Geck.KernelFrames
open Geck.KernelLedger Geck.KernelLaws Geck.KernelInvariant Geck.KernelSoundness Geck.ProcessCensus
open Geck.PcbTrail Geck.WholeMachine Geck.SplitOperations Geck.KernelOperations
open Geck.MachineOperations

/-- Each segment has the id of a table that was built for it and for the process of the PCB. -/
def Carries (mcfg : MemoryConfig) (m : Memory) (owners : List ℤ) (pcb : Pcb) : Prop :=
  ∀ (i : ℕ) segment, pcb.segmentTable[i]? = some segment →
    ∃ (t : ℕ) (table : PageTable), m.allPageTables[t]? = some table ∧
      owners[t]? = some pcb.processId ∧ TableOf mcfg table i segment

/-- The segments but for the page tables, which the console does not know. -/
def unbuilt (segments : List Segment) : List Segment :=
  segments.map fun segment => { segment with indexPage := -1 }

/-- The PCB has the segments that the console of its process declared, in their order. -/
def Declared (declared : List (ℤ × List String)) (pcb : Pcb) : Prop :=
  ∃ segments, (pcb.processId, segments) ∈ declared ∧
    unbuilt pcb.segmentTable = segmentRows segments 0

def readyPcbs (s : System) : List Pcb := s.listReady++s.listReadyRr++s.listReadyFifo

structure OwnsTables (mcfg : MemoryConfig) (declared : List (ℤ × List String)) (w : Machine) :
    Prop where
  head : ∀ pcb, w.system.threadMemory = .replaceNew pcb →
    ∃ head ∈ w.system.listNew.head?, head.processId = pcb.processId
  once : (declared.map Prod.fst).Nodup
  segments : ∀ pcb ∈ readyPcbs w.system, Declared declared pcb
  carries : ∀ pcb ∈ readyPcbs w.system, Carries mcfg w.memory w.owners pcb
  distinct : ∀ p ∈ readyPcbs w.system, ∀ q ∈ readyPcbs w.system, ∀ (i j : ℕ) a b,
    p.segmentTable[i]? = some a → q.segmentTable[j]? = some b → a.indexPage = b.indexPage →
      p.processId = q.processId ∧ i = j

/-- The segments of the `INIT_PROCESS` that the thread of a console takes. -/
def taken (pid : ℤ) : ConsoleThread → List ConsoleRequest → List (ℤ × List String)
  | .receive, .initProcess _ segments::_ => [(pid, segments)]
  | _, _ => []

/-- The segments that consoles declare, with the processes they are for. -/
def declares (w : Machine) : Action → List (ℤ × List String)
  | .thread (.receiveConsole i) =>
    (w.system.consoles[i]?).elim [] fun c => taken w.system.pidCounter c.thread c.toKernel
  | _ => []

/-- The process a console's thread adds to NEW. -/
def entersNew (w : Machine) : Action → List ℤ
  | .thread (.receiveConsole i) =>
    ((w.system.consoles[i]?).elim [] fun c => entering c.thread).map Pcb.processId
  | _ => []

/-- What the removal from NEW returns. -/
def removed (listNew : List Pcb) : ConsoleThread → List Pcb
  | .removeNew => listNew.take 1
  | _ => []

def leavesNew (w : Machine) : Action → List ℤ
  | .thread (.receiveConsole i) =>
    ((w.system.consoles[i]?).elim [] fun c => removed w.system.listNew c.thread).map Pcb.processId
  | _ => []

/-- A process on its way to NEW, in NEW or copied from there. -/
structure Newcomers (D : Pcb → Prop) (s : System) : Prop where
  threads : ∀ thread ∈ threads s, ∀ pcb ∈ entering thread, D pcb
  new : ∀ pcb ∈ s.listNew, D pcb
  copies : ∀ pcb ∈ pendingCopies s, D pcb

def Owned (mcfg : MemoryConfig) (m : Memory) (owners : List ℤ) (declared : List (ℤ × List String))
    (pcb : Pcb) : Prop :=
  Carries mcfg m owners pcb ∧ Declared declared pcb

structure Admitted (cfg : KernelConfig) (mcfg : MemoryConfig) (declared : List (ℤ × List String))
    (w : Machine) : Prop where
  sound : Sound cfg w.system
  tabled : Tabled w.memory
  owners : w.owners.length = w.memory.allPageTables.length
  trail : Trail (Owned mcfg w.memory w.owners declared)
    (fun pcb _ _ => Owned mcfg w.memory w.owners declared pcb) w.system
  newcomers : Newcomers (Declared declared) w.system
  created : declared.map Prod.fst = w.system.created.map Prod.fst

section Tables
variable {mcfg : MemoryConfig} {m m' : Memory} {owners : List ℤ}
  {declared : List (ℤ × List String)}

theorem declared_core {p q : Pcb} (hcore : core p = core q) (h : Declared declared p) :
    Declared declared q := by
  simp only [core, Prod.mk.injEq] at hcore
  obtain ⟨hpid, -, -, hsegments⟩ := hcore
  obtain ⟨segments, hmem, htable⟩ := h
  exact ⟨segments, hpid ▸ hmem, hsegments ▸ htable⟩

theorem declared_more {pcb : Pcb} (h : Declared declared pcb) (more : List (ℤ × List String)) :
    Declared (declared++more) pcb := by
  obtain ⟨segments, hmem, htable⟩ := h
  exact ⟨segments, List.mem_append_left more hmem, htable⟩

theorem unbuilt_rows (segments : List String) (i : ℤ) :
    unbuilt (segmentRows segments i) = segmentRows segments i := by
  induction segments generalizing i with
  | nil => rfl
  | cons segment segments ih =>
    have hrest := ih (i+1)
    simp only [unbuilt] at hrest
    simp [unbuilt, segmentRows, hrest]

theorem owned_persistent : Persistent (Owned mcfg m owners declared)
    (fun pcb _ _ => Owned mcfg m owners declared pcb) := by
  have hsame : ∀ p q, core p = core q → Owned mcfg m owners declared p →
      Owned mcfg m owners declared q := by
    rintro p q hcore ⟨h, hdeclared⟩
    refine ⟨fun i segment hi => ?_, declared_core hcore hdeclared⟩
    simp only [core, Prod.mk.injEq] at hcore
    obtain ⟨hpid, -, -, hsegments⟩ := hcore
    rw [← hsegments] at hi
    rw [← hpid]
    exact h i segment hi
  exact ⟨hsame, fun p q _ _ => hsame p q⟩

theorem carries_same (h : SameTables m m') {pcb : Pcb} (hc : Carries mcfg m owners pcb) :
    Carries mcfg m' owners pcb := by
  intro i segment hi
  obtain ⟨t, table, htable, howner, hof⟩ := hc i segment hi
  have hshape := congrArg (·[t]?) h.shape
  simp only [tableShape, List.getElem?_map, htable, Option.map_some] at hshape
  obtain ⟨table', htable', heq⟩ := Option.map_eq_some_iff.mp hshape
  simp only [Prod.mk.injEq] at heq
  refine ⟨t, table', htable', howner, ?_, ?_, ?_⟩
  · exact heq.1.trans hof.id
  · exact heq.2.1.trans hof.segmentNum
  · exact heq.2.2.trans hof.rows

/-- Tables built for another process leave those of a PCB where they are. -/
theorem carries_built {segments : List Segment} {added : List ℤ} (hb : Builds mcfg m m' 0 segments)
    {pcb : Pcb} (hc : Carries mcfg m owners pcb) : Carries mcfg m' (owners++added) pcb := by
  intro i segment hi
  obtain ⟨t, table, htable, howner, hof⟩ := hc i segment hi
  have hlt : t < m.allPageTables.length := (List.getElem?_eq_some_iff.mp htable).1
  refine ⟨t, table, (hb.old t hlt).trans htable, ?_, hof⟩
  rw [List.getElem?_append_left (List.getElem?_eq_some_iff.mp howner).1, howner]

theorem built_carries {segments : List Segment} (howners : owners.length = m.allPageTables.length)
    (hb : Builds mcfg m m' 0 segments) (pcb : Pcb) :
    Carries mcfg m' (owners++(m'.allPageTables.drop m.allPageTables.length).map
      fun _ => pcb.processId) { pcb with segmentTable := segments } := by
  intro i segment hi
  obtain ⟨-, table, htable, hof⟩ := hb.added i segment hi
  rw [Nat.zero_add] at hof
  refine ⟨m.allPageTables.length+i, table, htable, ?_, hof⟩
  rw [List.getElem?_append_right (by omega), howners, Nat.add_sub_cancel_left, List.getElem?_map,
    List.getElem?_drop, htable]
  rfl

theorem carries_found {pcb : Pcb} (hc : Carries mcfg m owners pcb) {k : ℤ}
    {segment : Segment} (hk : listGet pcb.segmentTable k = some segment) :
    getPageTableByIndex m segment.indexPage ≠ none := by
  obtain ⟨-, hi⟩ := list_get_some hk
  obtain ⟨t, table, htable, -, hof⟩ := hc _ segment hi
  rw [getPageTableByIndex, Ne, List.findIdx?_eq_none_iff]
  intro hnone
  have hmiss := hnone table (List.mem_of_getElem? htable)
  simp [hof.id] at hmiss

end Tables

section Arrivals
variable {cfg : KernelConfig} {D : Pcb → Prop} {s t : System}

theorem newcomers_of_set (hs : Newcomers D s) {i : ℕ} {thread : ConsoleThread}
    (hthreads : threads t = (threads s).set i thread) (hthread : ∀ pcb ∈ entering thread, D pcb)
    (hnew : ∀ pcb ∈ t.listNew, D pcb)
    (hcopies : ∀ pcb ∈ pendingCopies t, pcb ∈ pendingCopies s ∨ pcb ∈ s.listNew) :
    Newcomers D t where
  threads := by
    intro x hx
    rw [hthreads] at hx
    rcases List.mem_or_eq_of_mem_set hx with hx | rfl
    · exact hs.threads x hx
    · exact hthread
  new := hnew
  copies := fun pcb hpcb => (hcopies pcb hpcb).elim (hs.copies pcb) (hs.new pcb)

theorem receive_console_newcomers (hcore : ∀ p q, core p = core q → D p → D q)
    (hs : Newcomers D s) {i : ℕ} {c : Console} (hc : s.consoles[i]? = some c)
    (h : receiveConsole cfg s i c = some t)
    (hborn : ∀ instructions segments rest, c.thread = .receive →
      c.toKernel = .initProcess instructions segments::rest →
      D (pcbCreate instructions i s.pidCounter segments)) : Newcomers D t := by
  have hcopies : ∀ pcb ∈ pendingCopies t, pcb ∈ pendingCopies s ∨ pcb ∈ s.listNew :=
    fun _ hpcb => receive_console_pending hc h hpcb
  have hown := hs.threads c.thread (List.mem_map_of_mem (List.mem_of_getElem? hc))
  cases hthread : c.thread with
  | receive =>
    cases hk : c.toKernel with
    | nil => simp [receiveConsole, hthread, hk] at h
    | cons request rest =>
      cases request with
      | initProcess instructions segments =>
        simp only [receiveConsole, hthread, hk, Option.some.injEq] at h
        subst h
        exact newcomers_of_set hs (threads_set _ _ _)
          (by simpa using hborn instructions segments rest hthread hk) hs.new hcopies
      | ioScreenResponse pcb | ioKeyboardResponse pcb =>
        simp only [receiveConsole, hthread, hk, Option.some.injEq] at h
        subst h
        exact newcomers_of_set hs (threads_set _ _ _) (by simp) hs.new hcopies
  | created pcb =>
    simp only [receiveConsole, hthread, Option.some.injEq] at h
    subst h
    refine newcomers_of_set hs (threads_set _ _ _) (by simp) (fun q hq => ?_) hcopies
    rcases List.mem_append.mp hq with hold | hnew
    · exact hs.new q hold
    · obtain rfl := List.mem_singleton.mp hnew
      exact hcore pcb _ rfl (hown pcb (by simp [hthread]))
  | removeNew =>
    cases hn : s.listNew with
    | nil => simp [receiveConsole, scheduleNextToReady, hthread, hn] at h
    | cons pcb rest =>
      simp only [receiveConsole, scheduleNextToReady, hthread, hn, Option.some.injEq] at h
      subst h
      exact newcomers_of_set hs (threads_set _ _ _) (by simp)
        (fun q hq => hs.new q (by simp [hn, show q ∈ rest from hq])) hcopies
  | addReady pcb | returned pcb =>
    simp only [receiveConsole, scheduleNextToReady, hthread, Option.some.injEq] at h
    obtain ⟨_, _, hadd⟩ := add_to_ready_frame cfg s pcb
    rw [hadd] at h
    subst h
    exact newcomers_of_set hs (threads_set _ _ _) (by simp) hs.new hcopies
  | _ =>
    simp only [receiveConsole, scheduleNextToReady, hthread] at h
    repeat' split at h
    all_goals simp only [Option.some.injEq, reduceCtorEq] at h
    all_goals
      subst h
      exact newcomers_of_set hs (threads_set _ _ _) (by simp) hs.new hcopies

/-- Only a console's thread and memory's answer change NEW. -/
theorem list_new_kept {e : Event} (hconsole : ∀ i, e ≠ .receiveConsole i) (hmemory : e ≠ .manageMemory)
    (h : step cfg s e = some t) : t.listNew = s.listNew := by
  have hk : listChanged cfg s e ≠ some .new := by
    cases e with
    | receiveConsole i => exact absurd rfl (hconsole i)
    | manageMemory => exact absurd rfl hmemory
    | scheduleNextToRunning =>
      simp only [listChanged, schedulerList]
      repeat' split
      all_goals simp
    | manageDispatch =>
      simp only [listChanged, dispatchList]
      repeat' split
      all_goals simp
    | simulateIo i =>
      simp only [listChanged, ne_eq, Option.bind_eq_some_iff, not_exists, not_and]
      intro d _
      cases d.thread <;> simp [deviceList, readyList]
      split <;> simp
    | _ => simp [listChanged]
  simpa [contents] using step_contents h hk

theorem manage_memory_list_new (h : manageMemory cfg s = some t) {pcb : Pcb}
    (hpcb : pcb ∈ t.listNew) : pcb ∈ s.listNew ∨ pcb ∈ pendingCopies s := by
  cases hthread : s.threadMemory with
  | replaceNew copy =>
    simp only [manageMemory, hthread, Option.some.injEq] at h
    subst h
    cases hn : s.listNew with
    | nil => simp [hn, listReplace] at hpcb
    | cons head rest =>
      simp only [hn, list_replace_zero, List.mem_cons] at hpcb
      rcases hpcb with rfl | hold
      · exact Or.inr (by simp [pendingCopies, copies, hthread])
      · exact Or.inl (List.mem_cons_of_mem head hold)
  | addReady copy =>
    simp only [manageMemory, hthread, Option.some.injEq] at h
    obtain ⟨_, _, hadd⟩ := add_to_ready_frame cfg s copy
    rw [hadd] at h
    subst h
    exact Or.inl hpcb
  | _ =>
    simp only [manageMemory, hthread] at h
    repeat' split at h
    all_goals simp only [Option.some.injEq, reduceCtorEq] at h
    all_goals
      subst h
      exact Or.inl hpcb

theorem step_threads_kept {e : Event} (hs : Sound cfg s) (hthread : isThread e = true)
    (hconsole : ∀ i, e ≠ .receiveConsole i) (h : step cfg s e = some t) :
    (threads t = threads s ∨ threads t = threads s++[.receive]) ∧ t.created = s.created := by
  cases e with
  | connect instructions segments =>
    obtain rfl := Option.some.inj h
    exact ⟨Or.inr (by simp [threads, connect]), rfl⟩
  | console i value =>
    obtain ⟨c, hc, h⟩ := Option.bind_eq_some_iff.mp h
    obtain ⟨_, _, _, _, _, rfl⟩ := consola_frame h
    exact ⟨Or.inl (threads_same hc rfl), rfl⟩
  | receiveConsole i => exact absurd rfl (hconsole i)
  | manageDispatch =>
    refine ⟨Or.inl (manage_dispatch_threads hs h), ?_⟩
    obtain ⟨_, _, _, _, _, _, _, _, _, _, _, _, _, _, _, _, rfl⟩ := manage_dispatch_frame h
    rfl
  | scheduleNextToRunning =>
    obtain ⟨_, _, _, _, _, _, _, _, _, _, _, rfl⟩ := schedule_next_to_running_frame h
    exact ⟨Or.inl rfl, rfl⟩
  | manageInterrupt =>
    obtain ⟨_, _, _, _, rfl⟩ := manage_interrupt_frame h
    exact ⟨Or.inl rfl, rfl⟩
  | countQuantum expired =>
    obtain ⟨_, _, _, _, _, _, rfl⟩ := count_quantum_frame h
    exact ⟨Or.inl rfl, rfl⟩
  | manageMemory =>
    obtain ⟨_, _, _, _, _, _, _, _, rfl⟩ := manage_memory_frame h
    exact ⟨Or.inl rfl, rfl⟩
  | resolvePageFault i =>
    obtain ⟨p, -, h⟩ := Option.bind_eq_some_iff.mp h
    obtain ⟨_, _, _, rfl⟩ := resolve_page_fault_frame h
    exact ⟨Or.inl rfl, rfl⟩
  | simulateIo i =>
    obtain ⟨d, -, h⟩ := Option.bind_eq_some_iff.mp h
    obtain ⟨_, _, _, _, rfl⟩ := simulate_io_default_frame h
    exact ⟨Or.inl rfl, rfl⟩
  | processInterrupt =>
    obtain ⟨_, _, -, rfl⟩ := process_interrupt_cases h
    exact ⟨Or.inl rfl, rfl⟩
  | processDispatch answers | memoria segments => simp [isThread] at hthread

/-- The other threads bring nothing new, and memory's answer is a copy. -/
theorem step_newcomers {e : Event} (hsound : Sound cfg s) (hthread : isThread e = true)
    (hconsole : ∀ i, e ≠ .receiveConsole i) (hs : Newcomers D s) (h : step cfg s e = some t) :
    Newcomers D t where
  threads := by
    intro x hx
    rcases (step_threads_kept hsound hthread hconsole h).1 with hsame | hmore
    · exact hs.threads x (hsame ▸ hx)
    · rw [hmore, List.mem_append, List.mem_singleton] at hx
      rcases hx with hx | rfl
      · exact hs.threads x hx
      · simp
  new := by
    intro pcb hpcb
    by_cases hmemory : e = .manageMemory
    · subst hmemory
      exact (manage_memory_list_new h hpcb).elim (hs.new pcb) (hs.copies pcb)
    · exact hs.new pcb (list_new_kept hconsole hmemory h ▸ hpcb)
  copies := fun pcb hpcb => (thread_pending hsound hthread h hpcb).elim (hs.copies pcb) (hs.new pcb)

/-- The consoles declare what is created, and nothing twice. -/
theorem receive_console_declares {i : ℕ} {c : Console} (h : receiveConsole cfg s i c = some t) :
    t.created.map Prod.fst =
      s.created.map Prod.fst++(taken s.pidCounter c.thread c.toKernel).map Prod.fst := by
  cases hthread : c.thread with
  | receive =>
    cases hk : c.toKernel with
    | nil => simp [receiveConsole, hthread, hk] at h
    | cons request rest =>
      cases request
      all_goals
        simp only [receiveConsole, hthread, hk, Option.some.injEq] at h
        subst h
        simp [taken, System.setConsole]
  | addReady pcb | returned pcb =>
    simp only [receiveConsole, scheduleNextToReady, hthread, Option.some.injEq] at h
    obtain ⟨_, _, hadd⟩ := add_to_ready_frame cfg s pcb
    rw [hadd] at h
    subst h
    simp [taken, System.setConsole]
  | _ =>
    simp only [receiveConsole, scheduleNextToReady, hthread] at h
    repeat' split at h
    all_goals simp only [Option.some.injEq, reduceCtorEq] at h
    all_goals
      subst h
      simp [taken, System.setConsole]

end Arrivals

section Steps
variable {cfg : KernelConfig} {mcfg : MemoryConfig} {w w' : Machine}
  {declared : List (ℤ × List String)}

theorem start_admitted (time : TimeVal) (ram swap : ℕ → UInt8) :
    Admitted cfg mcfg [] (start cfg mcfg time ram swap) where
  sound := boot_sound cfg time
  tabled := ⟨by simp [start, initMemory], rfl⟩
  owners := rfl
  trail := boot_trail time
  newcomers := ⟨by simp [threads, start, KernelState.boot], by simp [start, KernelState.boot],
    by simp [pendingCopies, copies, threads, start, KernelState.boot]⟩
  created := rfl

theorem memory_admitted (hs : Admitted cfg mcfg declared w) {memory : Memory}
    (h : SameTables w.memory memory) : Admitted cfg mcfg declared { w with memory := memory } where
  sound := hs.sound
  tabled := h.tabled hs.tabled
  owners := hs.owners.trans (shape_tables_length h.shape).symm
  trail := trail_mono (fun _ ho => ⟨carries_same h ho.1, ho.2⟩)
    (fun _ _ _ ho => ⟨carries_same h ho.1, ho.2⟩) hs.trail
  newcomers := hs.newcomers
  created := hs.created

theorem thread_admitted (hs : Admitted cfg mcfg declared w) {e : Event} {t : System}
    (hthread : isThread e = true) (h : step cfg w.system e = some t) :
    Admitted cfg mcfg (declared++declares w (.thread e)) { w with system := t } := by
  have hmore := fun {pcb : Pcb} (hd : Declared declared pcb) =>
    declared_more hd (declares w (.thread e))
  have hbefore : Trail (Owned mcfg w.memory w.owners (declared++declares w (.thread e)))
      (fun pcb _ _ => Owned mcfg w.memory w.owners (declared++declares w (.thread e)) pcb)
      w.system :=
    trail_mono (fun _ ho => ⟨ho.1, hmore ho.2⟩) (fun _ _ _ ho => ⟨ho.1, hmore ho.2⟩) hs.trail
  have htrail := step_trail owned_persistent hs.sound hbefore (thread_plain hthread _) h
  have hold : Newcomers (Declared (declared++declares w (.thread e))) w.system :=
    ⟨fun x hx pcb hpcb => hmore (hs.newcomers.threads x hx pcb hpcb),
      fun pcb hpcb => hmore (hs.newcomers.new pcb hpcb),
      fun pcb hpcb => hmore (hs.newcomers.copies pcb hpcb)⟩
  by_cases hconsole : ∃ i, e = .receiveConsole i
  · obtain ⟨i, rfl⟩ := hconsole
    have hstep := h
    obtain ⟨c, hc, h⟩ := Option.bind_eq_some_iff.mp h
    have hdeclares : declares w (.thread (.receiveConsole i)) =
        taken w.system.pidCounter c.thread c.toKernel := by simp [declares, hc]
    refine ⟨step_sound hs.sound hstep, hs.tabled, hs.owners, htrail, ?_, ?_⟩
    · refine receive_console_newcomers (fun _ _ => declared_core) hold hc h ?_
      intro instructions segments rest hat hk
      refine ⟨segments, ?_, unbuilt_rows segments 0⟩
      simp [hdeclares, hat, hk, taken, pcbCreate]
    · rw [List.map_append, hdeclares, hs.created, receive_console_declares h]
  · have hconsole : ∀ i, e ≠ .receiveConsole i := fun i hi => hconsole ⟨i, hi⟩
    have hnone : declares w (.thread e) = [] := by
      cases e with
      | receiveConsole i => exact absurd rfl (hconsole i)
      | _ => rfl
    refine ⟨step_sound hs.sound h, hs.tabled, hs.owners, htrail,
      step_newcomers hs.sound hthread hconsole hold h, ?_⟩
    rw [hnone, List.append_nil, hs.created, (step_threads_kept hs.sound hthread hconsole h).2]

theorem turn_admitted {answers : Answers} {t : System} (hs : Admitted cfg mcfg declared w)
    (h : processDispatch cfg w.system answers = some t) (faults : ℤ → Option Fault) :
    Admitted cfg mcfg declared { w with system := t, faults := faults } := by
  have hnewcomers : Newcomers (Declared declared) t := by
    obtain ⟨_, _, _, _, _, _, _, rfl⟩ := process_dispatch_frame h
    exact ⟨hs.newcomers.threads, hs.newcomers.new, hs.newcomers.copies⟩
  have hcreated : declared.map Prod.fst = t.created.map Prod.fst := by
    obtain ⟨_, _, _, _, _, _, _, rfl⟩ := process_dispatch_frame h
    exact hs.created
  refine ⟨step_sound (e := .processDispatch answers) hs.sound h, hs.tabled, hs.owners, ?_,
    hnewcomers, hcreated⟩
  by_cases hexecutes : executes w.system = true
  · obtain ⟨dispatch, pcb, cpu, access, hthread, -, -, rfl⟩ := turn_cases hexecutes h
    apply trail_turn (trail_idle hs.trail)
    have howned : Owned mcfg w.memory w.owners declared pcb := by
      have hcpu := hs.trail.cpu
      rw [hthread] at hcpu
      simp only [OnCpu, Executed, ite_self] at hcpu
      exact hcpu
    simp only [Executed, ite_self]
    split <;> exact howned
  · refine step_trail (e := .processDispatch answers) owned_persistent hs.sound hs.trail ?_ h
    simpa [plain] using hexecutes

/-- A request that leaves the tables as they are. -/
theorem plain_served_admitted {request : KernelRequest} {rest : List KernelRequest} {memory : Memory}
    {answer : Option KernelResponse} (hs : Admitted cfg mcfg declared w)
    (hq : w.system.toMemory = request::rest)
    (h : attendKernel mcfg w.memory request = some (memory, answer))
    (hsame : SameTables w.memory memory) (hinit : ∀ r ∈ answer.toList, initResponse r = [])
    (hfault : ∀ pcb segment page, request = .requestPageFault pcb segment page →
      answer = some (.responsePageFault pcb))
    (hanswer : ∀ r ∈ answer.toList, Answering (Owned mcfg w.memory w.owners declared) r) :
    Admitted cfg mcfg declared (served mcfg w request rest memory answer) := by
  obtain ⟨segments, hstep⟩ := served_step cfg hq h hfault
  have hdrop : memory.allPageTables.drop w.memory.allPageTables.length = [] := by
    rw [← shape_tables_length hsame.shape, List.drop_length]
  have howners : (served mcfg w request rest memory answer).owners = w.owners := by
    simp [served, hdrop]
  refine ⟨step_sound hs.sound hstep, hsame.tabled hs.tabled, ?_, ?_,
    ⟨hs.newcomers.threads, hs.newcomers.new, ?_⟩, hs.created⟩
  · rw [howners]
    exact hs.owners.trans (shape_tables_length hsame.shape).symm
  · rw [howners]
    have hanswered := trail_answered (trail_popped hs.trail hq) hanswer
    exact trail_mono (fun _ ho => ⟨carries_same hsame ho.1, ho.2⟩)
      (fun _ _ _ ho => ⟨carries_same hsame ho.1, ho.2⟩) hanswered
  · intro pcb hpcb
    apply hs.newcomers.copies
    have hnone : answer.toList.flatMap initResponse = [] := List.flatMap_eq_nil_iff.mpr hinit
    simp only [pendingCopies, copies, threads, served, hq, List.flatMap_append, hnone,
      List.flatMap_cons, List.mem_append, List.append_nil] at hpcb ⊢
    tauto

theorem served_admitted {request : KernelRequest} {rest : List KernelRequest} {memory : Memory}
    {answer : Option KernelResponse} (hs : Admitted cfg mcfg declared w)
    (hq : w.system.toMemory = request::rest)
    (h : attendKernel mcfg w.memory request = some (memory, answer)) :
    Admitted cfg mcfg declared (served mcfg w request rest memory answer) := by
  have hrequest : Requesting _ _ request := hs.trail.toMemory request (by simp [hq])
  cases request with
  | initProcessStructuresMemory pcb =>
    obtain ⟨segments, hstep⟩ := served_step cfg hq h (by simp)
    obtain ⟨built, hbuilt, rfl⟩ := attend_init_some h
    have hsegments := init_process_some hbuilt
    obtain ⟨segments, rfl, hbuilds⟩ := init_process_structures_builds hs.tabled hbuilt
    -- memory fills in the tables of the segments that the process declared
    have hdeclared : Declared declared { pcb with segmentTable := segments } := by
      obtain ⟨strings, hmem, htable⟩ := hs.newcomers.copies pcb (by simp [pendingCopies, copies, hq])
      obtain ⟨segments', hinit, heq⟩ := hsegments
      have hsame := init_segments_same hinit
      rw [show segments = segments' by simpa using congrArg Pcb.segmentTable heq]
      exact ⟨strings, hmem, hsame.trans htable⟩
    refine ⟨step_sound hs.sound hstep, hbuilds.tabled, ?_, ?_,
      ⟨hs.newcomers.threads, hs.newcomers.new, fun q hq' => ?_⟩, hs.created⟩
    · simp [served, hbuilds.longer, hs.owners]
    · apply trail_answered
      · exact trail_mono (fun _ ho => ⟨carries_built hbuilds ho.1, ho.2⟩)
          (fun _ _ _ ho => ⟨carries_built hbuilds ho.1, ho.2⟩) (trail_popped hs.trail hq)
      · intro r hr
        obtain rfl := List.mem_singleton.mp hr
        exact ⟨built_carries hs.owners hbuilds pcb, hdeclared⟩
    · have hold := hs.newcomers.copies q
      simp only [pendingCopies, copies, threads, served, hq, Option.toList_some, List.flatMap_append,
        List.flatMap_cons, List.flatMap_nil, initResponse, List.mem_append, List.mem_singleton,
        List.append_nil] at hq' hold
      by_cases hnew : q = { pcb with segmentTable := segments }
      · exact hnew ▸ hdeclared
      · tauto
  | requestPageFault pcb segment page =>
    have hanswer : answer = some (.responsePageFault pcb) := by
      have hfault := h
      simp only [attendKernel, requestPageFault, Option.bind_eq_bind,
        Option.bind_eq_some_iff] at hfault
      obtain ⟨entry, hentry, -⟩ := hfault
      exact request_page_fault_answer hentry (carries_found hrequest.1 hentry) h
    subst hanswer
    apply plain_served_admitted hs hq h (request_page_fault_tables h) (by simp)
    · rintro _ _ _ ⟨⟩
      rfl
    · intro r hr
      obtain rfl := List.mem_singleton.mp hr
      exact hrequest
  | endStructures pcb =>
    obtain ⟨hdeleted, rfl⟩ := attend_end_some h
    exact plain_served_admitted hs hq h (delete_process_tables hdeleted) (by simp) (by simp) (by simp)

theorem act_admitted (hs : Admitted cfg mcfg declared w) {a : Action}
    (h : act cfg mcfg w a = some w') : Admitted cfg mcfg (declared++declares w a) w' := by
  rcases act_cases h with ⟨e, t, rfl, hthread, ht, rfl⟩ |
    ⟨request, rest, memory, answer, rfl, hq, hserved, rfl⟩ | ⟨request, memory, answer, rfl, hcpu, rfl⟩ |
    ⟨value, times, t, rfl, ht, rfl⟩
  · exact thread_admitted hs hthread ht
  · simpa [declares] using served_admitted hs hq hserved
  · simpa [declares] using memory_admitted hs (attend_cpu_tables hs.tabled hcpu)
  · simpa [declares] using turn_admitted hs ht _

theorem owns_tables (hs : Admitted cfg mcfg declared w) : OwnsTables mcfg declared w where
  head := by
    intro pcb hthread
    obtain ⟨head, rest, hn, hid⟩ := head_of_copy hs.sound.heads
      (show pcb ∈ pendingCopies w.system by simp [pendingCopies, copies, hthread])
    exact ⟨head, by simp [hn], (congrArg Prod.fst hid).symm⟩
  once := hs.created ▸ created_nodup hs.sound.registered
  segments := fun pcb hpcb => (hs.trail.ready pcb hpcb).2
  carries := fun pcb hpcb => (hs.trail.ready pcb hpcb).1
  distinct := by
    intro p hp q hq i j a b ha hb hindex
    obtain ⟨t, table, htable, howner, hof⟩ := (hs.trail.ready p hp).1 i a ha
    obtain ⟨t', table', htable', howner', hof'⟩ := (hs.trail.ready q hq).1 j b hb
    have hid : (t : ℤ) = t' := by
      rw [← hs.tabled.ids t table htable, ← hs.tabled.ids t' table' htable', hof.id, hof'.id, hindex]
    obtain rfl : t = t' := by exact_mod_cast hid
    obtain rfl := Option.some.inj (htable.symm.trans htable')
    have hnumber := hof.segmentNum.symm.trans hof'.segmentNum
    exact ⟨Option.some.inj (howner.symm.trans howner'), by exact_mod_cast hnumber⟩

end Steps

section Order
variable {cfg : KernelConfig} {mcfg : MemoryConfig} {s t : System}

theorem receive_console_new {i : ℕ} {c : Console} (h : receiveConsole cfg s i c = some t) :
    s.listNew.map Pcb.processId++(entering c.thread).map Pcb.processId =
      (removed s.listNew c.thread).map Pcb.processId++t.listNew.map Pcb.processId := by
  cases hthread : c.thread with
  | created pcb =>
    simp only [receiveConsole, hthread, Option.some.injEq] at h
    subst h
    simp [System.setConsole, removed, change_pcb_state_process]
  | removeNew =>
    cases hn : s.listNew with
    | nil => simp [receiveConsole, scheduleNextToReady, hthread, hn] at h
    | cons pcb rest =>
      simp only [receiveConsole, scheduleNextToReady, hthread, hn, Option.some.injEq] at h
      subst h
      simp [System.setConsole, removed]
  | addReady pcb | returned pcb =>
    simp only [receiveConsole, scheduleNextToReady, hthread, Option.some.injEq] at h
    obtain ⟨_, _, hadd⟩ := add_to_ready_frame cfg s pcb
    rw [hadd] at h
    subst h
    simp [System.setConsole, removed]
  | _ =>
    simp only [receiveConsole, scheduleNextToReady, hthread] at h
    repeat' split at h
    all_goals simp only [Option.some.injEq, reduceCtorEq] at h
    all_goals
      subst h
      simp [System.setConsole, removed]

theorem manage_memory_new (hs : Heads s) (h : manageMemory cfg s = some t) :
    t.listNew.map Pcb.processId = s.listNew.map Pcb.processId := by
  cases hthread : s.threadMemory with
  | replaceNew pcb =>
    obtain ⟨head, rest, hn, hid⟩ := head_of_copy hs
      (show pcb ∈ pendingCopies s by simp [pendingCopies, copies, hthread])
    simp only [manageMemory, hthread, Option.some.injEq] at h
    subst h
    simp [hn, list_replace_zero, show pcb.processId = head.processId from congrArg Prod.fst hid]
  | addReady pcb =>
    simp only [manageMemory, hthread, Option.some.injEq] at h
    subst h
    obtain ⟨_, _, hadd⟩ := add_to_ready_frame cfg s pcb
    rw [hadd]
  | receive =>
    cases hq : s.fromMemory with
    | nil => simp [manageMemory, hthread, hq] at h
    | cons response rest =>
      cases response
      all_goals
        simp only [manageMemory, hthread, hq, Option.some.injEq] at h
        subst h
        rfl
  | postInit | postReady | unlockPageFault =>
    simp only [manageMemory, hthread, Option.some.injEq] at h
    subst h
    rfl

theorem step_new {e : Event} (hs : Sound cfg s) (h : step cfg s e = some t)
    (hconsole : ∀ i, e ≠ .receiveConsole i) :
    t.listNew.map Pcb.processId = s.listNew.map Pcb.processId := by
  by_cases hmemory : e = .manageMemory
  · subst hmemory
    exact manage_memory_new hs.heads h
  · rw [list_new_kept hconsole hmemory h]

/-- NEW is a queue: what a step adds goes behind, what it removes was in front. -/
theorem act_new {w w' : Machine} {a : Action} (hs : Sound cfg w.system)
    (h : act cfg mcfg w a = some w') :
    w.system.listNew.map Pcb.processId++entersNew w a =
      leavesNew w a++w'.system.listNew.map Pcb.processId := by
  rcases act_cases h with ⟨e, t, rfl, -, ht, rfl⟩ |
    ⟨request, rest, memory, answer, rfl, -, -, rfl⟩ | ⟨request, memory, answer, rfl, -, rfl⟩ |
    ⟨value, times, t, rfl, ht, rfl⟩
  · by_cases hconsole : ∃ i, e = .receiveConsole i
    · obtain ⟨i, rfl⟩ := hconsole
      obtain ⟨c, hc, ht⟩ := Option.bind_eq_some_iff.mp ht
      simpa [entersNew, leavesNew, hc] using receive_console_new ht
    · have hsame := step_new hs ht (by simpa using hconsole)
      cases e
      case receiveConsole i => exact absurd ⟨i, rfl⟩ hconsole
      all_goals simp [entersNew, leavesNew, hsame]
  · simp [entersNew, leavesNew, served]
  · simp [entersNew, leavesNew]
  · have hsame := step_new (e := .processDispatch _) hs ht (by simp)
    simp [entersNew, leavesNew, hsame]

end Order

/-- What the consoles have declared, what has been added to NEW and what has been removed from it
is all that NEW and the ready queues hold. -/
structure InOrder (mcfg : MemoryConfig) (declared : List (ℤ × List String)) (entered left : List ℤ)
    (w : Machine) : Prop where
  owns : OwnsTables mcfg declared w
  order : entered = left++w.system.listNew.map Pcb.processId

theorem run_in_order {cfg : KernelConfig} {mcfg : MemoryConfig} {time : TimeVal}
    {ram swap : ℕ → UInt8} {actions : List Action} {w : Machine}
    (h : run (act cfg mcfg) (start cfg mcfg time ram swap) actions = some w) :
    InOrder mcfg (collected (act cfg mcfg) declares (start cfg mcfg time ram swap) actions)
      (collected (act cfg mcfg) entersNew (start cfg mcfg time ram swap) actions)
      (collected (act cfg mcfg) leavesNew (start cfg mcfg time ram swap) actions) w := by
  constructor
  · have hadmitted := collected_run (act cfg mcfg) declares (Admitted cfg mcfg)
      (fun _ _ _ _ hs ht => act_admitted hs ht) actions [] _ w (start_admitted time ram swap) h
    exact owns_tables hadmitted
  · have hqueue := collected_queue (act cfg mcfg) (fun w => ∃ declared, Admitted cfg mcfg declared w)
      (fun w => w.system.listNew.map Pcb.processId) entersNew leavesNew
      (fun _ _ _ ⟨_, hs⟩ ht => ⟨_, act_admitted hs ht⟩)
      (fun _ _ _ ⟨_, hs⟩ ht => act_new hs.sound ht) actions _ w
      ⟨[], start_admitted time ram swap⟩ h
    simpa [start, KernelState.boot] using hqueue

/-- Wherever consoles, the kernel, the CPU and memory get to while the operations on a list do not
overlap, the PCB stored over the head of NEW is of its process, NEW was left in the order it was
entered, and the PCBs in the ready queues have the segments that were declared and page tables of
their own for them. -/
theorem admission_owns_tables (cfg : KernelConfig) (mcfg : MemoryConfig) (time : TimeVal)
    (ram swap : ℕ → UInt8) (ms : List (Move Action))
    (hwhole : Guarded (splitAct cfg mcfg) (MachineListsWhole cfg mcfg)
      (splitStart cfg mcfg time ram swap) ms) (c : SplitMachine)
    (h : run (splitAct cfg mcfg) (splitStart cfg mcfg time ram swap) ms = some c) :
    InOrder mcfg
      (collected (splitAct cfg mcfg) (given (machineOperations cfg mcfg) declares)
        (splitStart cfg mcfg time ram swap) ms)
      (collected (splitAct cfg mcfg) (given (machineOperations cfg mcfg) entersNew)
        (splitStart cfg mcfg time ram swap) ms)
      (collected (splitAct cfg mcfg) (given (machineOperations cfg mcfg) leavesNew)
        (splitStart cfg mcfg time ram swap) ms) c.whole := by
  have hlaw := machine_lawful cfg mcfg
  have hintact : Intact (machineOperations cfg mcfg) (splitStart cfg mcfg time ram swap) :=
    intact_nil _ _
  have hserial := (parted_run hlaw hintact hwhole h).2
  simp only [splitAct, given_run hlaw _ hintact hwhole h]
  exact run_in_order hserial

/-- Moves between which nobody else moves. -/
def undividedFrom (w : Machine) (actions : List Action) : List (Move Action) :=
  collected (act (smallKernel .fifo) smallConfig)
    (undivided (machineOperations (smallKernel .fifo) smallConfig)) w actions

def smallStart : SplitMachine := splitStart (smallKernel .fifo) smallConfig midnight zeros zeros

def reachedMachine (ms : List (Move Action)) : SplitMachine :=
  reached (splitAct (smallKernel .fifo) smallConfig) smallStart ms

def console (i n : ℕ) : List Action := List.replicate n (.thread (.receiveConsole i))

/-- Two consoles whose processes are admitted while the steps of both interleave, and a third one
whose process is being added to NEW. -/
def twoAdmissions : List (Move Action) :=
  undividedFrom smallStart.whole ([.thread (.connect ["EXIT"] ["8", "3"]),
    .thread (.connect ["EXIT"] ["5"])]++console 0 2++console 1 2++console 0 5++.attendKernel::
    List.replicate 3 (.thread .manageMemory)++console 0 5++console 1 5++.attendKernel::
    List.replicate 3 (.thread .manageMemory)++console 1 5++[.thread (.connect ["EXIT"] ["16"])]++
    console 2 1)++[.begins (.thread (.receiveConsole 2))]

theorem admission_owns_tables_two :
    InOrder smallConfig
      (collected (splitAct (smallKernel .fifo) smallConfig)
        (given (machineOperations (smallKernel .fifo) smallConfig) declares) smallStart twoAdmissions)
      (collected (splitAct (smallKernel .fifo) smallConfig)
        (given (machineOperations (smallKernel .fifo) smallConfig) entersNew) smallStart twoAdmissions)
      (collected (splitAct (smallKernel .fifo) smallConfig)
        (given (machineOperations (smallKernel .fifo) smallConfig) leavesNew) smallStart twoAdmissions)
      (reachedMachine twoAdmissions).whole ∧
    collected (splitAct (smallKernel .fifo) smallConfig)
      (given (machineOperations (smallKernel .fifo) smallConfig) declares) smallStart twoAdmissions =
        [(1, ["8", "3"]), (2, ["5"]), (3, ["16"])] ∧
    (readyPcbs (reachedMachine twoAdmissions).whole.system).map
      (fun pcb => (pcb.processId, pcb.segmentTable)) =
        [(1, [⟨0, 0, 8⟩, ⟨1, 1, 3⟩]), (2, [⟨2, 0, 5⟩])] :=
  ⟨admission_owns_tables (smallKernel .fifo) smallConfig midnight zeros zeros twoAdmissions
    (by decide +kernel) (reachedMachine twoAdmissions)
    (run_reached (splitAct (smallKernel .fifo) smallConfig) _ _ (by decide +kernel)),
    by decide +kernel, by decide +kernel⟩

/-- Both consoles' threads begin to add to NEW before either has added. -/
def bothCreated : List (Move Action) :=
  [.whole (.thread (.connect ["EXIT"] ["8", "3"])), .whole (.thread (.connect ["EXIT"] ["5"])),
    .whole (.thread (.receiveConsole 0)), .whole (.thread (.receiveConsole 1)),
    .begins (.thread (.receiveConsole 0)), .begins (.thread (.receiveConsole 1)), .ends 0, .ends 0]

/-- The process that entered NEW first is not there when the head of NEW is admitted. -/
def overtaking : List (Move Action) :=
  bothCreated++undividedFrom (reachedMachine bothCreated).whole (console 0 5++.attendKernel::
    List.replicate 3 (.thread .manageMemory)++console 0 2)

theorem overlap_overtakes :
    ¬∀ c, run (splitAct (smallKernel .fifo) smallConfig) smallStart overtaking = some c →
      InOrder smallConfig
        (collected (splitAct (smallKernel .fifo) smallConfig)
          (given (machineOperations (smallKernel .fifo) smallConfig) declares) smallStart overtaking)
        (collected (splitAct (smallKernel .fifo) smallConfig)
          (given (machineOperations (smallKernel .fifo) smallConfig) entersNew) smallStart overtaking)
        (collected (splitAct (smallKernel .fifo) smallConfig)
          (given (machineOperations (smallKernel .fifo) smallConfig) leavesNew) smallStart overtaking)
        c.whole := by
  intro h
  have hlast := h (reachedMachine overtaking)
    (run_reached (splitAct (smallKernel .fifo) smallConfig) _ _ (by decide +kernel))
  exact absurd hlast.order (by decide +kernel)

end Geck.Admission
