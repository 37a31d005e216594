import Geck.MachineMemory
import Geck.ProcessContexts

/-!
# What a step does to the contexts

A thread of the kernel changes no context but by creating a process. The other
three changes are a value typed at a console, an instruction and the tables
that memory builds, and of these the last is none.
-/

set_option autoImplicit false

namespace Geck.ContextSteps
open Geck.Tallies Geck.BlockStore Geck.SharedPcb Geck.MemoryState Geck.MemoryHandlers
open Geck.MemoryPaging Geck.MemoryReplacement Geck.CpuTranslation Geck.CpuExecution Geck.CpuFlags
open Geck.KernelState Geck.KernelThreads Geck.KernelFrames Geck.KernelLedger Geck.KernelLaws
open Geck.KernelInvariant Geck.KernelSoundness Geck.ProcessCensus Geck.ProcessMoves
open Geck.MemoryAccounting Geck.PcbTrail Geck.WholeMachine Geck.Lifecycle Geck.PrivateComputer
open Geck.ProcessContexts Geck.PageTables

section Threads
variable {cfg : KernelConfig} {s t : System} {e : Event}

/-- The process that the first request of a console creates. -/
def createdPcb (s : System) : Event → Option Pcb
  | .receiveConsole i => do
    let c ← s.consoles[i]?
    match c.thread, c.toKernel with
    | .receive, .initProcess instructions segments::_ =>
      some (pcbCreate instructions i s.pidCounter segments)
    | _, _ => none
  | _ => none

/-- The value that a console types, with the process and the register it is for. -/
def typedValue (s : System) : Event → Option (ℤ × String × UInt32)
  | .console i value => do
    let c ← s.consoles[i]?
    match c.toConsole with
    | .io (.ioKeyboard pcb _ parameter)::_ => some (pcb.processId, parameter, value)
    | _ => none
  | _ => none

theorem receive_console_same {i : ℕ} {c : Console} (hc : s.consoles[i]? = some c)
    (he : createdPcb s (.receiveConsole i) = none) (h : receiveConsole cfg s i c = some t) :
    t.created = s.created := by
  cases hthread : c.thread with
  | receive =>
    cases hk : c.toKernel with
    | nil => simp [receiveConsole, hthread, hk] at h
    | cons request rest =>
      cases request with
      | initProcess instructions segments => simp [createdPcb, hc, hthread, hk] at he
      | ioScreenResponse pcb | ioKeyboardResponse pcb =>
        simp only [receiveConsole, hthread, hk, Option.some.injEq] at h
        subst h
        rfl
  | returned pcb | addReady pcb =>
    simp only [receiveConsole, scheduleNextToReady, hthread, Option.some.injEq] at h
    obtain ⟨_, _, hadd⟩ := add_to_ready_frame cfg s pcb
    rw [hadd] at h
    subst h
    rfl
  | _ =>
    simp only [receiveConsole, scheduleNextToReady, hthread] at h
    repeat' split at h
    all_goals simp only [Option.some.injEq, reduceCtorEq] at h
    all_goals
      subst h
      rfl

theorem created_same (hthread : isThread e = true) (he : createdPcb s e = none)
    (h : step cfg s e = some t) : t.created = s.created := by
  cases e with
  | connect instructions segments =>
    cases h
    rfl
  | console i value =>
    obtain ⟨c, -, h⟩ := Option.bind_eq_some_iff.mp h
    obtain ⟨_, _, _, _, _, rfl⟩ := consola_frame h
    rfl
  | receiveConsole i =>
    obtain ⟨c, hc, h⟩ := Option.bind_eq_some_iff.mp h
    exact receive_console_same hc he h
  | scheduleNextToRunning =>
    obtain ⟨_, _, _, _, _, _, _, _, _, _, _, rfl⟩ := schedule_next_to_running_frame h
    rfl
  | manageDispatch =>
    obtain ⟨_, _, _, _, _, _, _, _, _, _, _, _, _, _, _, _, rfl⟩ := manage_dispatch_frame h
    rfl
  | manageInterrupt =>
    obtain ⟨_, _, _, _, rfl⟩ := manage_interrupt_frame h
    rfl
  | countQuantum expired =>
    obtain ⟨_, _, _, _, _, _, rfl⟩ := count_quantum_frame h
    rfl
  | manageMemory =>
    obtain ⟨_, _, _, _, _, _, _, _, rfl⟩ := manage_memory_frame h
    rfl
  | resolvePageFault i =>
    obtain ⟨p, -, h⟩ := Option.bind_eq_some_iff.mp h
    obtain ⟨_, _, _, rfl⟩ := resolve_page_fault_frame h
    rfl
  | simulateIo i =>
    obtain ⟨d, -, h⟩ := Option.bind_eq_some_iff.mp h
    obtain ⟨_, _, _, _, rfl⟩ := simulate_io_default_frame h
    rfl
  | processInterrupt =>
    obtain ⟨_, _, -, rfl⟩ := process_interrupt_cases h
    rfl
  | processDispatch answers | memoria segments => simp [isThread] at hthread

/-- Threads that create nothing and change no PCB but for its state. -/
theorem thread_held (hs : Sound cfg s) (hthread : isThread e = true) (he : createdPcb s e = none)
    (hmoved : Moved context s t) (h : step cfg s e = some t) {pcb : Pcb} (hp : Held t pcb) :
    ∃ old, Held s old ∧ context old = context pcb := by
  rcases hp with ⟨place, hplace⟩ | hcopy
  · obtain ⟨hcpu, hregisters⟩ := CpuConnection.thread_cpu hthread h
    have hcreated : t.created = s.created := created_same hthread he h
    obtain ⟨old, before, hold, hsame⟩ :=
      mem_of_moved (settled_moved hmoved hcpu hregisters) hcreated hplace
    exact ⟨old, Or.inl ⟨before, hold⟩, hsame⟩
  · rcases thread_pending hs hthread h hcopy with hold | hnew
    · exact ⟨pcb, Or.inr hold, rfl⟩
    · exact ⟨pcb, held_new hnew, rfl⟩

/-- Memory's copy of the head of NEW has the context of the head. -/
theorem thread_known {world : ℤ → Option Computer} (hs : Sound cfg s) (hknown : Known world s)
    (hthread : isThread e = true) (he : createdPcb s e = none)
    (hconsole : ∀ i value, e ≠ .console i value) (h : step cfg s e = some t) : Known world t := by
  refine known_of_old hknown fun pcb hp => thread_held hs hthread he ?_ h hp
  by_cases halters : alters e = false
  · exact plain_moved (fun _ _ => rfl) hs halters h
  · cases e with
    | console i value => exact absurd rfl (hconsole i value)
    | manageMemory =>
      refine manage_memory_moved (fun _ _ => rfl) (fun copy hreplace => ?_) h
      have hcopy : copy ∈ pendingCopies s := by simp [pendingCopies, copies, hreplace]
      obtain ⟨head, rest, hn, hid⟩ := head_of_copy hs.heads hcopy
      have hpid : copy.processId = head.processId := congrArg Prod.fst hid
      obtain ⟨c, hc, hsame⟩ := hknown copy (Or.inr hcopy)
      obtain ⟨c', hc', hsame'⟩ := hknown head (held_new (by simp [hn]))
      obtain rfl : c = c' := Option.some.inj (hc.symm.trans (hpid ▸ hc'))
      exact ⟨head, rest, hn, hsame.symm.trans hsame'⟩
    | processDispatch answers => simp [isThread] at hthread
    | _ => exact absurd rfl halters

end Threads

section Consoles
variable {cfg : KernelConfig} {s : System} {i : ℕ} {c c' : Console} {pcb : Pcb}

/-- What a console and its thread hold of the processes. -/
def consoleHolds (c : Console) : List Pcb :=
  entering c.thread++admitting c.thread++withConsole c++initCopy c.thread

theorem console_held (hc : s.consoles[i]? = some c) (h : pcb ∈ consoleHolds c) : Held s pcb := by
  have hmem := List.mem_of_getElem? hc
  simp only [consoleHolds, List.mem_append] at h
  rcases h with ((h | h) | h) | h
  · exact Or.inl ⟨.new, List.mem_append_right _ (List.mem_flatMap.mpr ⟨c, hmem, h⟩)⟩
  · exact Or.inl ⟨.ready, List.mem_append_right _ (List.mem_flatMap.mpr ⟨c, hmem, h⟩)⟩
  · exact Or.inl ⟨.console, List.mem_flatMap.mpr ⟨c, hmem, h⟩⟩
  · refine Or.inr (List.mem_append_right _ (List.mem_flatMap.mpr ⟨c.thread, ?_, h⟩))
    exact List.mem_map_of_mem hmem

theorem set_console_held (h : Held (s.setConsole i c') pcb) : pcb ∈ consoleHolds c' ∨ Held s pcb := by
  simp only [consoleHolds, List.mem_append]
  rcases h with ⟨place, hplace⟩ | hcopy
  · have hother (hplace : pcb ∈ processesAt (settled s) place) : Held s pcb := Or.inl ⟨place, hplace⟩
    cases place with
    | new =>
      rcases List.mem_append.mp hplace with hnew | hconsole
      · exact Or.inr (held_new hnew)
      · rcases flat_map_set_subset (fun c : Console => entering c.thread) hconsole with hown | hold
        · exact Or.inl (Or.inl (Or.inl (Or.inl hown)))
        · exact Or.inr (hother (List.mem_append_right _ hold))
    | ready =>
      rcases List.mem_append.mp hplace with hready | hconsole
      · exact Or.inr (hother (List.mem_append_left _ hready))
      · rcases flat_map_set_subset (fun c : Console => admitting c.thread) hconsole with hown | hold
        · exact Or.inl (Or.inl (Or.inl (Or.inr hown)))
        · exact Or.inr (hother (List.mem_append_right _ hold))
    | console =>
      rcases flat_map_set_subset withConsole hplace with hown | hold
      · exact Or.inl (Or.inl (Or.inr hown))
      · exact Or.inr (hother hold)
    | cpu | device | pageFault | exit => exact Or.inr (hother hplace)
  · rcases pending_set (s := s) hcopy rfl rfl with hold | hown
    · exact Or.inr (Or.inr hold)
    · exact Or.inl (Or.inr hown)

/-- A process is created with the context of its PCB, and the others keep theirs. -/
theorem created_known {world : ℤ → Option Computer} {t : System} {e : Event} (hs : Sound cfg s)
    (hknown : Known world s) (he : createdPcb s e = some pcb) (h : step cfg s e = some t) :
    ¬Created s pcb.processId ∧ Created t pcb.processId ∧
      Known (Function.update world pcb.processId (some ⟨context pcb, fun _ _ _ => 0⟩)) t := by
  cases e with
  | receiveConsole i =>
    obtain ⟨c, hc, he⟩ := Option.bind_eq_some_iff.mp he
    obtain ⟨instructions, segments, rest, hthread, hk, rfl⟩ : ∃ instructions segments rest,
        c.thread = .receive ∧ c.toKernel = .initProcess instructions segments::rest ∧
          pcbCreate instructions i s.pidCounter segments = pcb := by
      split at he
      next instructions segments rest hthread hk =>
        exact ⟨instructions, segments, rest, hthread, hk, Option.some.inj he⟩
      · simp at he
    simp only [step, hc, Option.bind_eq_bind, Option.bind_some, receiveConsole, hthread, hk,
      Option.some.injEq] at h
    set pcb := pcbCreate instructions i s.pidCounter segments with hpcb
    have hpid : pcb.processId = s.pidCounter := rfl
    have hcounter := hs.registered.counter
    have hfresh : ¬Created s pcb.processId := fun h => by
      have := h.2
      omega
    refine ⟨hfresh, ⟨by omega, ?_⟩, ?_⟩
    · rw [← h, hpid]
      exact lt_add_one s.pidCounter
    · have hholds (q : Pcb) (hq : q ∈ consoleHolds { c with thread := .created pcb, toKernel := rest }) :
          q = pcb ∨ q ∈ consoleHolds c := by
        simp only [consoleHolds, withConsole, hthread, hk, entering, admitting, returning, initCopy,
          List.mem_append, List.mem_singleton, List.flatMap_cons, answered, List.not_mem_nil] at hq ⊢
        tauto
      have hold (q : Pcb) (hq : Held t q) : q = pcb ∨ Held s q := by
        rw [← h] at hq
        rcases set_console_held hq with hown | hq
        · exact (hholds q hown).imp_right (console_held hc)
        · exact Or.inr hq
      refine known_update hknown (fun q hq hid => ?_) fun q hq hid => ?_
      · rcases hold q hq with rfl | hq
        · rfl
        · exact absurd (hid ▸ held_created hs hq) hfresh
      · rcases hold q hq with rfl | hq
        · exact absurd rfl hid
        · exact ⟨q, hq, rfl⟩
  | _ => simp [createdPcb] at he

/-- A console types into a register of the process that waits for it, and nowhere else. -/
theorem console_known {world : ℤ → Option Computer} {t : System} {value : UInt32}
    (hs : Sound cfg s) (ht : Sound cfg t) (hknown : Known world s)
    (h : step cfg s (.console i value) = some t) :
    typedValue s (.console i value) = none ∧ Known world t ∨
      ∃ pid register c, typedValue s (.console i value) = some (pid, register, value) ∧
        world pid = some c ∧
        Known (Function.update world pid (some (typed c register value))) t := by
  obtain ⟨c, hc, h⟩ := Option.bind_eq_some_iff.mp h
  have hio := hs.messages c (List.mem_of_getElem? hc)
  cases hend : c.ended with
  | true => simp [consola, hend] at h
  | false =>
  cases hk : c.toConsole with
  | nil => simp [consola, hend, hk] at h
  | cons message rest =>
  have hmessage := hio message (by simp [hk])
  -- what the console holds it held before, but for the answer of the keyboard
  have hkeeps {c' : Console} (extra : List Pcb) (ht : t = s.setConsole i c')
      (hholds : ∀ q ∈ consoleHolds c', q ∈ extra ∨ q ∈ consoleHolds c) (q : Pcb) (hq : Held t q) :
      q ∈ extra ∨ Held s q := by
    subst ht
    rcases set_console_held hq with hown | hq
    · exact (hholds q hown).imp_right (console_held hc)
    · exact Or.inr hq
  cases message with
  | io package =>
    cases package
    case ioScreen pcb device parameter =>
      simp only [consola, hend, hk, Bool.false_eq_true, if_false, Option.some.injEq] at h
      refine Or.inl ⟨by simp [typedValue, hc, hk], known_of_old hknown fun q hq => ?_⟩
      have hold := hkeeps [] h.symm (fun q hq => by
        simp only [consoleHolds, withConsole, hk, List.mem_append, List.flatMap_cons, answered,
          requested, packagePcb, List.flatMap_append, List.flatMap_nil, List.append_nil] at hq ⊢
        tauto) q hq
      exact ⟨q, hold.resolve_left (by simp), rfl⟩
    case ioKeyboard pcb device register =>
      simp only [consola, hend, hk, Bool.false_eq_true, if_false, Option.some.injEq] at h
      set answer : Pcb := { pcb with
        cpuRegisters := storeValueInRegister pcb.cpuRegisters register value } with hanswer
      have hold := hkeeps [answer] h.symm (fun q hq => by
        simp only [consoleHolds, withConsole, hk, List.mem_append, List.flatMap_cons, answered,
          requested, packagePcb, List.flatMap_append, List.flatMap_nil, List.append_nil] at hq ⊢
        tauto)
      have hheld : Held s pcb := console_held hc (by simp [consoleHolds, withConsole, hk])
      obtain ⟨computer, hcomputer, hcontext⟩ := hknown pcb hheld
      refine Or.inr ⟨pcb.processId, register, computer, by simp [typedValue, hc, hk], hcomputer,
        known_update hknown (fun q hq hid => ?_) fun q hq hid => ?_⟩
      · have hplace : answer ∈ processesAt (settled t) .console := by
          subst h
          have hi := (List.getElem?_eq_some_iff.mp hc).1
          refine List.mem_flatMap.mpr ⟨_, List.mem_set hi _, ?_⟩
          simp [withConsole, answered, hanswer]
        obtain rfl := held_alone ht hplace (by decide) hq (by simp [hid, hanswer])
        simp [typed, hcontext, hanswer, context]
      · rcases hold q hq with hq | hq
        · obtain rfl := List.mem_singleton.mp hq
          exact absurd rfl hid
        · exact ⟨q, hq, rfl⟩
    all_goals exact hmessage.elim
  | endConsole | endConsoleSegFault =>
    simp only [consola, hend, hk, Bool.false_eq_true, if_false, Option.some.injEq] at h
    refine Or.inl ⟨by simp [typedValue, hc, hk], known_of_old hknown fun q hq => ?_⟩
    have hold := hkeeps [] h.symm (fun q hq => by
      simp only [consoleHolds, withConsole, hk, List.mem_append, List.flatMap_cons, requested,
        List.nil_append] at hq ⊢
      tauto) q hq
    exact ⟨q, hold.resolve_left (by simp), rfl⟩

end Consoles

section Processor
variable {cfg : KernelConfig} {s t : System} {answers : Answers} {world : ℤ → Option Computer}

/-- The processes that are sent to the CPU, that it has and that it sends back. -/
def atCpu (s : System) : List Pcb :=
  s.toCpu.map Prod.snd++executing (settledThread s.cpu s.cpuThread)++
    s.fromCpu.map fun r => packagePcb r.package

theorem at_cpu_held {pcb : Pcb} (h : pcb ∈ atCpu s) : Held s pcb := by
  refine Or.inl ⟨.cpu, ?_⟩
  simp only [atCpu, List.mem_append] at h
  simp only [processesAt, settled, List.mem_append]
  tauto

theorem cpu_held {toCpu : List (Dispatch × Pcb)} {fromCpu : List Reply} {cpu : Cpu}
    {cause : Option Dispatch} {thread : CpuThread} {received replies : ℕ} {pcb : Pcb}
    (ht : t = { s with
      toCpu := toCpu
      fromCpu := fromCpu
      cpu := cpu
      cause := cause
      cpuThread := thread
      received := received
      replies := replies }) (h : Held t pcb) : pcb ∈ atCpu t ∨ Held s pcb := by
  subst ht
  rcases h with ⟨place, hplace⟩ | hcopy
  · have hother (hplace : pcb ∈ processesAt (settled s) place) : Held s pcb := Or.inl ⟨place, hplace⟩
    cases place with
    | cpu =>
      simp only [processesAt, settled, atCpu, List.mem_append] at hplace hother ⊢
      tauto
    | _ => exact Or.inr (hother hplace)
  · exact Or.inr (Or.inr hcopy)

/-- The CPU takes a context, keeps it and gives it back as it is. -/
theorem waiting_known (hs : Flags s) (hstop : executes s = false) (hknown : Known world s)
    (h : processDispatch cfg s answers = some t) : Known world t := by
  refine known_of_old hknown fun pcb hp => ?_
  obtain ⟨toCpu, fromCpu, cpu, cause, thread, received, replies, ht⟩ := process_dispatch_frame h
  refine (cpu_held ht hp).elim (fun hcpu => ?_) fun hold => ⟨pcb, hold, rfl⟩
  suffices hfound : ∃ old ∈ atCpu s, context old = context pcb by
    obtain ⟨old, hold, hsame⟩ := hfound
    exact ⟨old, at_cpu_held hold, hsame⟩
  clear ht hp
  cases hthread : s.cpuThread with
  | receive =>
    cases hq : s.toCpu with
    | nil => simp [processDispatch, hthread, hq] at h
    | cons first rest =>
      obtain ⟨dispatch, taken⟩ := first
      simp only [processDispatch, hthread, hq, Option.some.injEq] at h
      subst h
      simp only [atCpu, settledThread, executing, List.mem_append, List.mem_singleton] at hcpu
      rcases hcpu with (hsent | rfl) | hback
      · exact ⟨pcb, by simp [atCpu, hq, List.mem_map.mp hsent], rfl⟩
      · exact ⟨taken, by simp [atCpu, hq], rfl⟩
      · exact ⟨pcb, by simp [atCpu, List.mem_map.mp hback], rfl⟩
  | running dispatch running =>
    have hkeep : keepsRunning s.cpu = false := by simpa [executes, hthread] using hstop
    simp only [processDispatch, hthread, hkeep, Bool.false_eq_true, if_false, Option.some.injEq] at h
    subst h
    exact ⟨pcb, by simpa [atCpu, hthread] using hcpu, rfl⟩
  | leaving dispatch leaving =>
    obtain ⟨cpu', package, hpackage, -⟩ := leaving_flags hs hthread
    have hpcb := leave_process_pcb hpackage
    simp only [processDispatch, hthread, hpackage, Option.some.injEq] at h
    subst h
    exact ⟨pcb, by simpa [atCpu, hthread, hpcb] using hcpu, rfl⟩
  | sending reply =>
    simp only [processDispatch, hthread, Option.some.injEq] at h
    subst h
    refine ⟨pcb, ?_, rfl⟩
    simp only [atCpu, hthread, settledThread, executing, List.map_append, List.map_cons,
      List.map_nil, List.mem_append, List.mem_singleton, List.not_mem_nil] at hcpu ⊢
    tauto

/-- The process that executes has a new context, and the others keep theirs. -/
theorem executed_known {dispatch : Dispatch} {pcb next : Pcb} {cpu : Cpu} {c : Computer}
    (hknown : Known world s) (ht : Sound cfg t)
    (h : t = { s with cpu := cpu, cpuThread := .running dispatch next })
    (hpid : next.processId = pcb.processId) (hcontext : c.context = context (saveContextPcb cpu next)) :
    Known (Function.update world pcb.processId (some c)) t := by
  have hat : saveContextPcb cpu next ∈ processesAt (settled t) .cpu := by
    simp [h, processesAt, settled]
  refine known_update hknown (fun q hq hid => ?_) fun q hq hid => ⟨q, ?_, rfl⟩
  · obtain rfl := held_alone ht hat (by decide) hq (hid.trans hpid.symm)
    exact hcontext
  · refine (cpu_held h hq).elim (fun hcpu => ?_) id
    subst h
    simp only [atCpu, settledThread, executing, List.mem_append, List.mem_singleton] at hcpu
    rcases hcpu with (hsent | rfl) | hback
    · exact at_cpu_held (List.mem_append_left _ (List.mem_append_left _ hsent))
    · exact absurd hpid hid
    · exact at_cpu_held (List.mem_append_right _ hback)

end Processor

section Memory
variable {mcfg : MemoryConfig} {w : Machine} {request : KernelRequest} {rest : List KernelRequest}
  {memory : Memory} {answer : Option KernelResponse} {world : ℤ → Option Computer}

theorem page_fault_answer {pcb : Pcb} {segment page : ℤ} {response : KernelResponse} {m : Memory}
    (h : requestPageFault mcfg m pcb segment page = some (memory, some response)) :
    response = .responsePageFault pcb := by
  simp only [requestPageFault, Option.bind_eq_bind, Option.bind_eq_some_iff] at h
  obtain ⟨row, -, h⟩ := h
  split at h
  · simp at h
  · split at h
    · simp only [Option.bind_eq_some_iff, Option.some.injEq, Prod.mk.injEq] at h
      obtain ⟨_, -, _, -, -, h⟩ := h
      exact h.symm
    · simp at h

/-- What memory answers about a process is about the process the kernel asked for. -/
theorem answer_context (h : attendKernel mcfg w.memory request = some (memory, answer))
    {response : KernelResponse} {pcb : Pcb} (hresponse : answer = some response)
    (hp : pcb ∈ faultAnswered response++initResponse response) :
    ∃ old ∈ faultRequested request++initRequest request, context old = context pcb := by
  subst hresponse
  cases request with
  | initProcessStructuresMemory original =>
    obtain ⟨built, hbuilt, heq⟩ := attend_init_some h
    obtain ⟨segments, hsegments, rfl⟩ := init_process_some hbuilt
    obtain rfl := Option.some.inj heq
    obtain rfl : pcb = { original with segmentTable := segments } := by simpa using hp
    exact ⟨original, by simp, by simp [context, init_segments_same hsegments]⟩
  | requestPageFault original segment page =>
    obtain rfl := page_fault_answer h
    exact ⟨original, by simp, by rw [show pcb = original by simpa using hp]⟩
  | endStructures original =>
    obtain ⟨-, hnone⟩ := attend_end_some h
    cases hnone

theorem served_known (hq : w.system.toMemory = request::rest)
    (h : attendKernel mcfg w.memory request = some (memory, answer)) (hknown : Known world w.system) :
    Known world (served mcfg w request rest memory answer).system := by
  have hrequest (q : Pcb) (hp : q ∈ faultRequested request++initRequest request) : Held w.system q := by
    rcases List.mem_append.mp hp with hp | hp
    · refine Or.inl ⟨.pageFault, ?_⟩
      simp [processesAt, settled, hq, hp]
    · exact Or.inr (by simp [pendingCopies, copies, hq, hp])
  have hanswered (q : Pcb) (hp : q ∈ answer.toList.flatMap fun r => faultAnswered r++initResponse r) :
      ∃ old, Held w.system old ∧ context old = context q := by
    obtain ⟨response, hresponse, hp⟩ := List.mem_flatMap.mp hp
    obtain ⟨old, hold, hsame⟩ := answer_context h (by simpa using hresponse) hp
    exact ⟨old, hrequest old hold, hsame⟩
  refine known_of_old hknown fun q hp => ?_
  rcases hp with ⟨place, hplace⟩ | hcopy
  · have hother (hplace : q ∈ processesAt (settled w.system) place) :
        ∃ old, Held w.system old ∧ context old = context q := ⟨q, Or.inl ⟨place, hplace⟩, rfl⟩
    cases place with
    | pageFault =>
      simp only [processesAt, settled, served, hq, List.flatMap_append, List.flatMap_cons,
        List.mem_append] at hplace hother
      have hnew (hp : q ∈ answer.toList.flatMap faultAnswered) :
          ∃ old, Held w.system old ∧ context old = context q := by
        obtain ⟨response, hresponse, hp⟩ := List.mem_flatMap.mp hp
        exact hanswered q (List.mem_flatMap.mpr ⟨response, hresponse, List.mem_append_left _ hp⟩)
      tauto
    | _ => exact hother hplace
  · simp only [pendingCopies, copies, served, List.flatMap_append, List.mem_append] at hcopy
    have hnew (hp : q ∈ answer.toList.flatMap initResponse) :
        ∃ old, Held w.system old ∧ context old = context q := by
      obtain ⟨response, hresponse, hp⟩ := List.mem_flatMap.mp hp
      exact hanswered q (List.mem_flatMap.mpr ⟨response, hresponse, List.mem_append_right _ hp⟩)
    have hold (hp : q ∈ pendingCopies w.system) :
        ∃ old, Held w.system old ∧ context old = context q := ⟨q, Or.inr hp, rfl⟩
    simp only [pendingCopies, copies, hq, List.flatMap_cons, List.mem_append] at hold
    simp only [threads] at hcopy hold
    tauto

end Memory

end Geck.ContextSteps
