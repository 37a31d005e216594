import Geck.KernelInvariant

/-!
# Every step of the kernel keeps the invariant

A thread keeps what it does not use by its frame. What it uses is shown case by
case, and the counts come from its law.
-/

set_option autoImplicit false

namespace Geck.KernelSoundness
open Geck.Tallies Geck.BlockStore Geck.SharedPcb Geck.MemoryHandlers Geck.CpuExecution
open Geck.KernelState Geck.KernelThreads Geck.KernelFrames Geck.KernelLedger Geck.KernelLaws
open Geck.CpuFlags Geck.KernelInvariant

variable {cfg : KernelConfig} {s t : System}

/-- The copies under way may become fewer or change places while the head of NEW stays. -/
theorem heads_of_subset (hs : Heads s)
    (hnew : s.listNew ≠ [] → t.listNew.head?.map identity = s.listNew.head?.map identity)
    (hcopies : ∀ pcb ∈ pendingCopies t, ∃ old ∈ pendingCopies s, identity old = identity pcb) :
    Heads t := by
  intro pcb hpcb
  obtain ⟨old, hold, hid⟩ := hcopies pcb hpcb
  have hhead := hs old hold
  have hne : s.listNew ≠ [] := by
    intro hempty
    simp [hempty] at hhead
  rw [hnew hne, hhead, hid]

theorem registered_of_same (hr : Registered s) (hcreated : t.created = s.created)
    (hcounter : t.pidCounter = s.pidCounter) (hthreads : (threads t).length = (threads s).length) :
    Registered t := by
  refine ⟨?_, ?_, ?_⟩
  · rw [hcreated]
    exact hr.numbered
  · rw [hcreated, hcounter]
    exact hr.counter
  · rw [hcreated, hthreads]
    exact hr.sockets

section Consoles
variable {i : ℕ} {c : Console}

theorem flat_map_set_subset {α β : Type*} (f : α → List β) {l : List α} {i : ℕ} {a : α} {b : β}
    (h : b ∈ (l.set i a).flatMap f) : b ∈ f a ∨ b ∈ l.flatMap f := by
  obtain ⟨x, hx, hb⟩ := List.mem_flatMap.mp h
  rcases List.mem_or_eq_of_mem_set hx with hmem | rfl
  · exact Or.inr (List.mem_flatMap.mpr ⟨x, hmem, hb⟩)
  · exact Or.inl hb

theorem threads_set (s : System) (i : ℕ) (c' : Console) :
    threads (s.setConsole i c') = (threads s).set i c'.thread := by
  simp [threads, System.setConsole, List.map_set]

/-- One console moved on, and memory's side did not change. -/
theorem heads_of_set (hs : Heads s) {thread : ConsoleThread}
    (hthreads : threads t = (threads s).set i thread) (hcopies : copies t = copies s)
    (hnew : ∀ pcb ∈ pendingCopies s, s.listNew.head?.map identity = some (identity pcb) →
      t.listNew.head?.map identity = some (identity pcb))
    (hcopy : ∀ pcb ∈ initCopy thread, t.listNew.head?.map identity = some (identity pcb)) :
    Heads t := by
  intro pcb hpcb
  unfold pendingCopies at hpcb
  rw [hcopies, hthreads] at hpcb
  rcases List.mem_append.mp hpcb with hmem | hmem
  · have hold := List.mem_append_left ((threads s).flatMap initCopy) hmem
    exact hnew pcb hold (hs pcb hold)
  · rcases flat_map_set_subset initCopy hmem with hmem | hmem
    · exact hcopy pcb hmem
    · have hold := List.mem_append_right (copies s) hmem
      exact hnew pcb hold (hs pcb hold)

variable (hc : s.consoles[i]? = some c)
include hc

theorem init_copy_pending {pcb : Pcb} (h : c.thread = .sendInit pcb) :
    pcb ∈ (threads s).flatMap initCopy := by
  simp only [threads, List.flatMap_map, List.mem_flatMap]
  exact ⟨c, List.mem_of_getElem? hc, by simp [initCopy, h]⟩

theorem schedule_next_to_ready_heads (hb : Balanced cfg s) (hs : Heads s)
    (h : scheduleNextToReady cfg s i c = some t) : Heads t := by
  cases hthread : c.thread with
  | testNew =>
    simp only [scheduleNextToReady, hthread, Option.some.injEq] at h
    subst h
    refine heads_of_set hs (threads_set _ _ _) rfl (fun _ _ h => h) ?_
    split <;> simp [initCopy]
  | getNew =>
    cases hn : s.listNew with
    | nil => simp [scheduleNextToReady, hthread, hn] at h
    | cons pcb rest =>
      simp only [scheduleNextToReady, hthread, hn, Option.some.injEq] at h
      subst h
      refine heads_of_set hs (threads_set _ _ _) rfl (fun _ _ h => h) ?_
      simp [initCopy, System.setConsole, hn]
  | sendInit pcb =>
    have hold := init_copy_pending hc hthread
    simp only [scheduleNextToReady, hthread, Option.some.injEq] at h
    subst h
    refine heads_of_subset hs (fun _ => rfl) fun p hp => ⟨p, ?_, rfl⟩
    rcases List.mem_append.mp hp with hp | hp
    · have hp : p ∈ copies s ∨ p = pcb := by
        simp only [copies, System.setConsole, List.flatMap_append, List.flatMap_cons, initRequest,
          List.flatMap_nil, List.mem_append, List.mem_singleton] at hp ⊢
        tauto
      rcases hp with hp | rfl
      · exact List.mem_append_left _ hp
      · exact List.mem_append_right _ hold
    · rw [threads_set] at hp
      rcases flat_map_set_subset initCopy hp with hp | hp
      · simp [initCopy] at hp
      · exact List.mem_append_right _ hp
  | removeNew =>
    have hnone := no_copies hb hc (by simp [hthread]) (by simp [hthread])
      (by simp [hthread, initCopy])
    cases hn : s.listNew with
    | nil => simp [scheduleNextToReady, hthread, hn] at h
    | cons pcb rest =>
      simp only [scheduleNextToReady, hthread, hn, Option.some.injEq] at h
      subst h
      exact heads_of_set hs (threads_set _ _ _) rfl (by simp [hnone]) (by simp [initCopy])
  | addReady pcb =>
    simp only [scheduleNextToReady, hthread, Option.some.injEq] at h
    subst h
    obtain ⟨ready, rr, hready⟩ := add_to_ready_frame cfg s pcb
    rw [hready]
    exact heads_of_set hs (threads_set _ _ _) rfl (fun _ _ h => h) (by simp [initCopy])
  | waitGrado | waitInit =>
    simp only [scheduleNextToReady, hthread, Option.ite_none_right_eq_some, Option.some.injEq] at h
    obtain ⟨-, rfl⟩ := h
    exact heads_of_set hs (threads_set _ _ _) rfl (fun _ _ h => h) (by simp [initCopy])
  | postReady =>
    simp only [scheduleNextToReady, hthread, Option.some.injEq] at h
    subst h
    exact heads_of_set hs (threads_set _ _ _) rfl (fun _ _ h => h) (by simp [initCopy])
  | _ => simp [scheduleNextToReady, hthread] at h

theorem receive_console_heads (hb : Balanced cfg s) (hs : Heads s)
    (h : receiveConsole cfg s i c = some t) : Heads t := by
  cases hthread : c.thread with
  | receive =>
    cases hk : c.toKernel with
    | nil => simp [receiveConsole, hthread, hk] at h
    | cons request rest =>
      cases request
      all_goals
        simp only [receiveConsole, hthread, hk, Option.some.injEq] at h
        subst h
        exact heads_of_set hs (threads_set _ _ _) rfl (fun _ _ h => h) (by simp [initCopy])
  | created pcb =>
    simp only [receiveConsole, hthread, Option.some.injEq] at h
    subst h
    refine heads_of_set hs (threads_set _ _ _) rfl (fun p _ h => ?_) (by simp [initCopy])
    simp only [System.setConsole]
    cases hn : s.listNew with
    | nil => simp [hn] at h
    | cons head rest => simpa [hn] using h
  | waitScheduleReady =>
    simp only [receiveConsole, hthread, Option.ite_none_right_eq_some, Option.some.injEq] at h
    obtain ⟨-, rfl⟩ := h
    exact heads_of_set hs (threads_set _ _ _) rfl (fun _ _ h => h) (by simp [initCopy])
  | returned pcb =>
    simp only [receiveConsole, hthread, Option.some.injEq] at h
    subst h
    obtain ⟨ready, rr, hready⟩ := add_to_ready_frame cfg s pcb
    rw [hready]
    exact heads_of_set hs (threads_set _ _ _) rfl (fun _ _ h => h) (by simp [initCopy])
  | postScheduleReady | postReturned =>
    simp only [receiveConsole, hthread, Option.some.injEq] at h
    subst h
    exact heads_of_set hs (threads_set _ _ _) rfl (fun _ _ h => h) (by simp [initCopy])
  | _ =>
    refine schedule_next_to_ready_heads hc hb hs ?_
    simpa only [receiveConsole, hthread] using h

omit hc in
theorem receive_console_created (h : receiveConsole cfg s i c = some t) :
    (t.created = s.created ∧ t.pidCounter = s.pidCounter) ∨
      (t.created = s.created++[(s.pidCounter, (i : ℤ))] ∧ t.pidCounter = s.pidCounter+1) := by
  unfold receiveConsole scheduleNextToReady addToReady at h
  repeat' split at h
  all_goals simp only [Option.some.injEq, reduceCtorEq] at h
  all_goals subst h
  all_goals first | exact Or.inl ⟨rfl, rfl⟩ | exact Or.inr ⟨rfl, rfl⟩

theorem receive_console_registered (hr : Registered s) (h : receiveConsole cfg s i c = some t) :
    Registered t := by
  have hlength : (threads t).length = (threads s).length := by
    obtain ⟨_, _, _, _, _, _, _, _, _, _, _, _, rfl⟩ := receive_console_frame h
    simp [threads]
  rcases receive_console_created h with ⟨hcreated, hcounter⟩ | ⟨hcreated, hcounter⟩
  · exact registered_of_same hr hcreated hcounter hlength
  · have hi := (List.getElem?_eq_some_iff.mp hc).1
    refine ⟨?_, ?_, ?_⟩
    · simp [hcreated, hr.numbered, hr.counter, List.range_succ]
    · simp [hcreated, hcounter, hr.counter]
    · intro e he
      rw [hlength]
      rcases List.mem_append.mp (hcreated ▸ he) with he | he
      · exact hr.sockets e he
      · obtain rfl : e = (s.pidCounter, (i : ℤ)) := by simpa using he
        exact ⟨i, by simpa [threads] using hi, rfl⟩

omit hc in
theorem messages_of_set (hm : Messages s) {c' : Console}
    (hc' : ∀ message ∈ c'.toConsole, IoRequest message) (hset : t.consoles = s.consoles.set i c') :
    Messages t := by
  intro x hx
  rw [hset] at hx
  rcases List.mem_or_eq_of_mem_set hx with hx | rfl
  · exact hm x hx
  · exact hc'

theorem receive_console_sound (hs : Sound cfg s) (hb : Balanced cfg t) (h : receiveConsole cfg s i c = some t) :
    Sound cfg t := by
  have hmem := List.mem_of_getElem? hc
  have hheads := receive_console_heads hc hs.balanced hs.heads h
  have hregistered := receive_console_registered hc hs.registered h
  obtain ⟨_, _, _, _, _, _, _, _, _, _, _, _, rfl⟩ := receive_console_frame h
  exact {
    balanced := hb
    chooses := hs.chooses
    flags := hs.flags
    heads := hheads
    registered := hregistered
    messages := by
      refine messages_of_set hs.messages ?_ rfl
      exact hs.messages c hmem
    packages := ⟨hs.packages.replies, hs.packages.sending, hs.packages.handles⟩
    devices := hs.devices
    untimed := fun halg => by
      obtain ⟨_, _, _, _, _, _, _, _, _⟩ := hs.untimed halg
      constructor <;> assumption }

/-- A change to a console that leaves its kernel thread where it is. -/
theorem threads_same {c' : Console} (hthread : c'.thread = c.thread) :
    (s.consoles.set i c').map Console.thread = threads s := by
  obtain ⟨hi, rfl⟩ := List.getElem?_eq_some_iff.mp hc
  refine List.ext_getElem (by simp [threads]) fun j _ _ => ?_
  by_cases hij : i = j
  · subst hij
    simp [threads, hthread]
  · simp [threads, hij]

theorem consola_sound {value : UInt32} (hs : Sound cfg s) (hb : Balanced cfg t) (h : consola s i c value = some t) :
    Sound cfg t := by
  have hmem := List.mem_of_getElem? hc
  have hmessages := hs.messages c hmem
  obtain ⟨toKernel, ended, rest, message, hto, rfl⟩ := consola_frame h
  have hthreads : (s.consoles.set i { c with
      toConsole := rest, toKernel := toKernel, ended := ended }).map Console.thread = threads s :=
    threads_same hc rfl
  exact {
    balanced := hb
    chooses := hs.chooses
    flags := hs.flags
    heads := by
      refine heads_of_subset hs.heads (fun _ => rfl) fun p hp => ⟨p, ?_, rfl⟩
      simpa only [pendingCopies, copies, threads, hthreads] using hp
    registered := registered_of_same hs.registered rfl rfl (by simp [threads])
    messages := by
      refine messages_of_set hs.messages (fun m hm => hmessages m ?_) rfl
      simp only at hm
      simp [hto, hm]
    packages := ⟨hs.packages.replies, hs.packages.sending, hs.packages.handles⟩
    devices := hs.devices
    untimed := fun halg => by
      obtain ⟨_, _, _, _, _, _, _, _, _⟩ := hs.untimed halg
      constructor <;> assumption }

end Consoles

theorem connect_sound {instructions segments : List String} (hs : Sound cfg s)
    (hb : Balanced cfg (connect s instructions segments)) :
    Sound cfg (connect s instructions segments) where
  balanced := hb
  chooses := hs.chooses
  flags := hs.flags
  heads := by
    refine heads_of_subset hs.heads (fun _ => rfl) fun p hp => ⟨p, ?_, rfl⟩
    simpa [pendingCopies, copies, threads, connect, initCopy] using hp
  registered := by
    refine ⟨hs.registered.numbered, hs.registered.counter, fun e he => ?_⟩
    obtain ⟨i, hi, heq⟩ := hs.registered.sockets e he
    refine ⟨i, ?_, heq⟩
    simp only [threads, connect, List.map_append, List.length_append] at hi ⊢
    omega
  messages := by
    intro c hc
    rcases List.mem_append.mp hc with hc | hc
    · exact hs.messages c hc
    · obtain rfl := List.mem_singleton.mp hc
      simp
  packages := ⟨hs.packages.replies, hs.packages.sending, hs.packages.handles⟩
  devices := hs.devices
  untimed := fun halg => by
    obtain ⟨_, _, _, _, _, _, _, _, _⟩ := hs.untimed halg
    constructor <;> assumption

theorem schedule_next_to_running_sound (hs : Sound cfg s) (hb : Balanced cfg t)
    (h : scheduleNextToRunning cfg s = some t) : Sound cfg t := by
  have hchooses : Chooses cfg t := by
    intro hthread
    cases hold : s.shortTermScheduler with
    | choose =>
      cases halg : cfg.algoritmoPlanificacion with
      | fifo | rr =>
        simp only [scheduleNextToRunning, hold, halg] at h
        split at h
        all_goals simp only [Option.some.injEq, reduceCtorEq] at h
        subst h
        simp at hthread
      | feedback =>
        have hready := ready_not_empty hs.balanced (by simp [hold])
        simp only [scheduleNextToRunning, hold, halg] at h
        split at h
        · rename_i hrr
          simp only [Option.some.injEq] at h
          subst h
          refine ⟨rfl, fun hempty => hready ?_⟩
          simp only at hempty
          simp [readyQueues, halg, hrr, hempty]
        · simp only [Option.some.injEq] at h
          subst h
          simp at hthread
    | _ =>
      simp only [scheduleNextToRunning, hold] at h
      repeat' split at h
      all_goals simp only [Option.some.injEq, reduceCtorEq] at h
      all_goals
        subst h
        simp at hthread
  have huntimed (halg : cfg.algoritmoPlanificacion = .fifo) : NoQuantum t.shortTermScheduler ∧
      t.semBegginQuantum = [] := by
    have hold := (hs.untimed halg).scheduler
    have hbeggin := (hs.untimed halg).beggin
    simp only [scheduleNextToRunning, halg] at h
    repeat' split at h
    all_goals simp only [Option.some.injEq, reduceCtorEq] at h
    all_goals subst h
    all_goals simp_all [NoQuantum]
  obtain ⟨_, _, _, _, _, _, _, _, _, _, _, rfl⟩ := schedule_next_to_running_frame h
  exact {
    balanced := hb
    chooses := hchooses
    flags := hs.flags
    heads := hs.heads
    registered := ⟨hs.registered.numbered, hs.registered.counter, hs.registered.sockets⟩
    messages := hs.messages
    packages := ⟨hs.packages.replies, hs.packages.sending, hs.packages.handles⟩
    devices := hs.devices
    untimed := fun halg => by
      obtain ⟨_, _, _, _, _, _, _, _, _⟩ := hs.untimed halg
      obtain ⟨_, _⟩ := huntimed halg
      constructor <;> assumption }

section Dispatch

theorem send_to_console_consoles (s : System) (clientSocket : ℤ) (message : ConsoleMessage) :
    (sendToConsole s clientSocket message).consoles = s.consoles ∨
      ∃ i c, s.consoles[i]? = some c ∧ (sendToConsole s clientSocket message).consoles =
        s.consoles.set i { c with toConsole := c.toConsole++[message] } := by
  cases hc : listGet s.consoles clientSocket with
  | none => simp [sendToConsole, hc]
  | some c =>
    right
    exact ⟨_, c, (list_get_some hc).2, by simp [sendToConsole, hc, System.setConsole]⟩

theorem manage_dispatch_consoles (hhandles : Handles s.threadDispatch)
    (h : manageDispatch cfg s = some t) : t.consoles = s.consoles ∨
      ∃ i c message, s.consoles[i]? = some c ∧ IoRequest message ∧
        t.consoles = s.consoles.set i { c with toConsole := c.toConsole++[message] } := by
  have hsend (clientSocket : ℤ) (message : ConsoleMessage) (hmessage : IoRequest message)
      (ht : t.consoles = (sendToConsole s clientSocket message).consoles) :
      t.consoles = s.consoles ∨ ∃ i c message, s.consoles[i]? = some c ∧ IoRequest message ∧
        t.consoles = s.consoles.set i { c with toConsole := c.toConsole++[message] } := by
    rcases send_to_console_consoles s clientSocket message with hsame | ⟨i, c, hc, hset⟩
    · exact Or.inl (ht.trans hsame)
    · exact Or.inr ⟨i, c, message, hc, hmessage, ht.trans hset⟩
  cases hthread : s.threadDispatch with
  | sendConsole package =>
    simp only [manageDispatch, hthread, Option.some.injEq] at h
    rw [hthread] at hhandles
    subst h
    exact hsend _ _ hhandles rfl
  | sendEnd package =>
    cases package
    all_goals
      simp only [manageDispatch, hthread, Option.some.injEq] at h
      subst h
      refine hsend _ _ ?_ rfl
      trivial
  | _ =>
    simp only [manageDispatch, hthread] at h
    repeat' split at h
    all_goals simp only [Option.some.injEq, reduceCtorEq] at h
    all_goals
      subst h
      exact Or.inl rfl

theorem labelled_request {package : CpuPackage} (h : Labelled package)
    (hio : afterFlag package = .sendConsole package) : IoRequest (ioMessage package) := by
  cases package with
  | ioScreen pcb device parameter =>
    simp only [Labelled] at h
    simp [ioMessage, sendPcbIoPackage, h, IoRequest]
  | ioKeyboard pcb device parameter =>
    simp only [Labelled] at h
    simp [ioMessage, sendPcbIoPackage, h, IoRequest]
  | _ => simp [afterFlag] at hio

theorem manage_dispatch_handles (hpackages : Packages s) (h : manageDispatch cfg s = some t) :
    Handles t.threadDispatch := by
  have hhandles := hpackages.handles
  cases hthread : s.threadDispatch with
  | receive =>
    cases hr : s.fromCpu with
    | nil => simp [manageDispatch, hthread, hr] at h
    | cons reply rest =>
      simp only [manageDispatch, hthread, hr, Option.some.injEq] at h
      subst h
      exact hpackages.replies reply (by simp [hr])
  | unlockOut package =>
    rw [hthread] at hhandles
    simp only [manageDispatch, hthread, Option.some.injEq] at h
    subst h
    cases package
    case ioScreen | ioKeyboard => exact labelled_request hhandles rfl
    all_goals trivial
  | postFree package | removeRunning package | sendMemory package | sendEnd package =>
    rw [hthread] at hhandles
    simp only [manageDispatch, hthread] at h
    cases package
    all_goals
      simp only [Option.some.injEq] at h
      subst h
      trivial
  | addExit package =>
    rw [hthread] at hhandles
    simp only [manageDispatch, hthread, Option.some.injEq] at h
    subst h
    cases package <;> trivial
  | postGrado package =>
    rw [hthread] at hhandles
    simp only [manageDispatch, hthread, Option.some.injEq] at h
    subst h
    cases package <;> trivial
  | _ =>
    rw [hthread] at hhandles
    simp only [manageDispatch, hthread] at h
    repeat' split at h
    all_goals simp only [Option.some.injEq, reduceCtorEq] at h
    all_goals
      subst h
      trivial

theorem manage_dispatch_untimed (hu : Untimed s) (h : manageDispatch cfg s = some t) :
    NoPreemption t.threadDispatch := by
  have hold := hu.dispatch
  cases hthread : s.threadDispatch with
  | receive =>
    cases hr : s.fromCpu with
    | nil => simp [manageDispatch, hthread, hr] at h
    | cons reply rest =>
      simp only [manageDispatch, hthread, hr, Option.some.injEq] at h
      subst h
      exact hu.replies reply (by simp [hr])
  | postFree package | unlockOut package | removeRunning package =>
    rw [hthread] at hold
    simp only [manageDispatch, hthread, Option.some.injEq] at h
    subst h
    cases package <;> trivial
  | addExit package | sendMemory package =>
    simp only [manageDispatch, hthread, Option.some.injEq] at h
    subst h
    cases package <;> trivial
  | _ =>
    rw [hthread] at hold
    simp only [manageDispatch, hthread] at h
    repeat' split at h
    all_goals simp only [Option.some.injEq, reduceCtorEq] at h
    all_goals
      subst h
      trivial

theorem manage_dispatch_ready_fifo (h : manageDispatch cfg s = some t)
    (hne : s.listReadyFifo ≠ []) : t.listReadyFifo ≠ [] := by
  unfold manageDispatch at h
  repeat' split at h
  all_goals simp only [Option.some.injEq, reduceCtorEq] at h
  all_goals subst h
  all_goals simp [hne, System.setDevice]

/-- Only `END_STRUCTURES` goes to memory from here. -/
theorem manage_dispatch_to_memory (h : manageDispatch cfg s = some t) :
    t.toMemory = s.toMemory ∨ ∃ pcb, t.toMemory = s.toMemory++[KernelRequest.endStructures pcb] := by
  unfold manageDispatch at h
  repeat' split at h
  all_goals simp only [Option.some.injEq, reduceCtorEq] at h
  all_goals subst h
  all_goals simp [System.setDevice]

theorem devices_of_set {i : ℕ} {d d' : Device} (hs : Devices s) (hi : s.devices[i]? = some d)
    (hset : t.devices = s.devices.set i d')
    (hnew : Paired s.threadDispatch i d → Paired t.threadDispatch i d')
    (hothers : ∀ j x, j ≠ i → Paired s.threadDispatch j x → Paired t.threadDispatch j x) :
    Devices t := by
  intro j x hj
  rw [hset] at hj
  by_cases hij : j = i
  · subst hij
    rw [List.getElem?_set_self (List.getElem?_eq_some_iff.mp hi).1, Option.some.injEq] at hj
    subst hj
    exact hnew (hs j d hi)
  · rw [List.getElem?_set_ne (Ne.symm hij)] at hj
    exact hothers j x hij (hs j x hj)

/-- `manage_dispatch` is not at work on a device. -/
def Idle (thread : ThreadDispatch) : Prop :=
  (∀ i tail, Dangling thread i tail ↔ tail = []) ∧ ∀ i, unannounced thread i = 0

theorem paired_of_idle {thread thread' : ThreadDispatch} (h : Idle thread) (h' : Idle thread')
    {i : ℕ} {d : Device} (hd : Paired thread i d) : Paired thread' i d := by
  obtain ⟨pairs, front, tail, hlist, hfront, htail, hlength⟩ := hd
  refine ⟨pairs, front, tail, hlist, hfront, (h'.1 i tail).mpr ((h.1 i tail).mp htail), ?_⟩
  rw [hlength, h.2 i, h'.2 i]

theorem after_free_idle (package : CpuPackage) : Idle (afterFree package) := by
  cases package <;> exact ⟨fun _ _ => Iff.rfl, fun _ => rfl⟩

theorem after_flag_idle (package : CpuPackage) : Idle (afterFlag package) := by
  cases package <;> exact ⟨fun _ _ => Iff.rfl, fun _ => rfl⟩

theorem after_running_idle (package : CpuPackage) : Idle (afterRunning package) := by
  cases package <;> exact ⟨fun _ _ => Iff.rfl, fun _ => rfl⟩

theorem manage_dispatch_idle
    (hadd : ∀ pcb device parameter, s.threadDispatch ≠ .addTime pcb device parameter)
    (hprocess : ∀ pcb i, s.threadDispatch ≠ .addProcess pcb i)
    (hpost : ∀ i, s.threadDispatch ≠ .postDevice i)
    (h : manageDispatch cfg s = some t) : t.devices = s.devices ∧ Idle t.threadDispatch := by
  cases hthread : s.threadDispatch with
  | addTime pcb device parameter => exact absurd hthread (hadd pcb device parameter)
  | addProcess pcb i => exact absurd hthread (hprocess pcb i)
  | postDevice i => exact absurd hthread (hpost i)
  | postFree package =>
    simp only [manageDispatch, hthread, Option.some.injEq] at h
    subst h
    exact ⟨rfl, after_free_idle package⟩
  | unlockOut package =>
    simp only [manageDispatch, hthread, Option.some.injEq] at h
    subst h
    exact ⟨rfl, after_flag_idle package⟩
  | removeRunning package =>
    simp only [manageDispatch, hthread, Option.some.injEq] at h
    subst h
    exact ⟨rfl, after_running_idle package⟩
  | addExit package | sendMemory package =>
    simp only [manageDispatch, hthread, Option.some.injEq] at h
    subst h
    cases package <;> exact ⟨rfl, fun _ _ => Iff.rfl, fun _ => rfl⟩
  | _ =>
    simp only [manageDispatch, hthread] at h
    repeat' split at h
    all_goals simp only [Option.some.injEq, reduceCtorEq] at h
    all_goals
      subst h
      exact ⟨by simp, fun _ _ => Iff.rfl, fun _ => rfl⟩

theorem manage_dispatch_devices (hs : Devices s) (h : manageDispatch cfg s = some t) :
    Devices t := by
  cases hthread : s.threadDispatch with
  | addTime pcb device parameter =>
    obtain ⟨i, d, -, hd, rfl⟩ := add_time_some hthread h
    refine devices_of_set hs hd rfl ?_ ?_
    · rintro ⟨pairs, front, tail, hlist, hfront, htail, hlength⟩
      rw [hthread] at htail hlength
      refine ⟨pairs, front, [.time parameter], ?_, hfront, ?_, hlength⟩
      · obtain rfl : tail = [] := htail
        simp [hlist]
      · simp [Dangling]
    · rintro j x hij ⟨pairs, front, tail, hlist, hfront, htail, hlength⟩
      rw [hthread] at htail hlength
      refine ⟨pairs, front, tail, hlist, hfront, ?_, hlength⟩
      simpa [Dangling, Ne.symm hij] using htail
  | addProcess pcb i =>
    obtain ⟨d, hd, rfl⟩ := add_process_some hthread h
    refine devices_of_set hs hd rfl ?_ ?_
    · rintro ⟨pairs, front, tail, hlist, hfront, htail, hlength⟩
      rw [hthread] at htail hlength
      obtain ⟨time, rfl⟩ : ∃ time, tail = [.time time] := by simpa [Dangling] using htail
      refine ⟨pairs++[(time, pcb)], front, [], by simp [hlist], hfront, rfl, ?_⟩
      simp only [unannounced] at hlength ⊢
      simp [hlength]
    · rintro j x hij ⟨pairs, front, tail, hlist, hfront, htail, hlength⟩
      rw [hthread] at htail hlength
      refine ⟨pairs, front, tail, hlist, hfront, ?_, ?_⟩
      · simpa [Dangling, Ne.symm hij] using htail
      · simpa [unannounced, Ne.symm hij] using hlength
  | postDevice i =>
    obtain ⟨d, hd, rfl⟩ := post_device_some hthread h
    refine devices_of_set hs hd rfl ?_ ?_
    · rintro ⟨pairs, front, tail, hlist, hfront, htail, hlength⟩
      rw [hthread] at htail hlength
      refine ⟨pairs, front, tail, hlist, hfront, htail, ?_⟩
      simp only [unannounced, if_true] at hlength ⊢
      omega
    · rintro j x hij ⟨pairs, front, tail, hlist, hfront, htail, hlength⟩
      rw [hthread] at htail hlength
      refine ⟨pairs, front, tail, hlist, hfront, htail, ?_⟩
      simpa [unannounced, Ne.symm hij] using hlength
  | _ =>
    have hidle : Idle s.threadDispatch := by
      rw [hthread]
      exact ⟨fun _ _ => Iff.rfl, fun _ => rfl⟩
    obtain ⟨hdevices, hidle'⟩ := manage_dispatch_idle (by simp [hthread]) (by simp [hthread])
      (by simp [hthread]) h
    intro j x hj
    rw [hdevices] at hj
    exact paired_of_idle hidle hidle' (hs j x hj)

theorem manage_dispatch_sound (hs : Sound cfg s) (hb : Balanced cfg t) (h : manageDispatch cfg s = some t) :
    Sound cfg t := by
  have hhandles := hs.packages.handles
  have hconsoles := manage_dispatch_consoles hhandles h
  have hnext := manage_dispatch_handles hs.packages h
  have hfifo := manage_dispatch_ready_fifo h
  have hmemory : t.toMemory.flatMap initRequest = s.toMemory.flatMap initRequest := by
    rcases manage_dispatch_to_memory h with hsame | ⟨pcb, hend⟩
    · rw [hsame]
    · simp [hend]
  have hdevices := manage_dispatch_devices hs.devices h
  have huntimed (halg : cfg.algoritmoPlanificacion = .fifo) :=
    manage_dispatch_untimed (hs.untimed halg) h
  have hreplies := manage_dispatch_replies h
  have hthreads : threads t = threads s := by
    rcases hconsoles with hsame | ⟨i, c, message, hc, -, hset⟩
    · rw [threads, hsame, threads]
    · rw [threads, hset]
      exact threads_same hc rfl
  obtain ⟨_, _, _, _, _, _, _, _, _, _, _, _, _, _, _, _, rfl⟩ := manage_dispatch_frame h
  exact {
    balanced := hb
    chooses := fun hthread => ⟨(hs.chooses hthread).1, hfifo (hs.chooses hthread).2⟩
    flags := hs.flags
    heads := by
      refine heads_of_subset hs.heads (fun _ => rfl) fun p hp => ⟨p, ?_, rfl⟩
      simpa only [pendingCopies, copies, hthreads, hmemory] using hp
    registered := registered_of_same hs.registered rfl rfl (by rw [hthreads])
    messages := by
      rcases hconsoles with hsame | ⟨i, c, message, hc, hio, hset⟩
      · intro c hc
        exact hs.messages c (hsame ▸ hc)
      · refine messages_of_set hs.messages (fun m hm => ?_) hset
        rcases List.mem_append.mp hm with hm | hm
        · exact hs.messages c (List.mem_of_getElem? hc) m hm
        · obtain rfl := List.mem_singleton.mp hm
          exact hio
    packages := ⟨fun r hr => hs.packages.replies r (hreplies hr), hs.packages.sending, hnext⟩
    devices := hdevices
    untimed := fun halg => by
      have hold := hs.untimed halg
      exact ⟨hold.scheduler, hold.beggin, hold.interruption, hold.thread, hold.interrupts,
        hold.check, hold.sending, fun r hr => hold.replies r (hreplies hr), huntimed halg⟩ }

end Dispatch

theorem manage_interrupt_sound (hs : Sound cfg s) (hb : Balanced cfg t) (h : manageInterrupt s = some t) :
    Sound cfg t := by
  have huntimed (halg : cfg.algoritmoPlanificacion = .fifo) : False := by
    have hold := hs.untimed halg
    simp [manageInterrupt, hold.thread, hold.interruption] at h
  obtain ⟨_, _, _, _, rfl⟩ := manage_interrupt_frame h
  exact {
    balanced := hb
    chooses := hs.chooses
    flags := hs.flags
    heads := hs.heads
    registered := ⟨hs.registered.numbered, hs.registered.counter, hs.registered.sockets⟩
    messages := hs.messages
    packages := ⟨hs.packages.replies, hs.packages.sending, hs.packages.handles⟩
    devices := hs.devices
    untimed := fun halg => (huntimed halg).elim }

theorem count_quantum_sound {expired : Bool} (hs : Sound cfg s) (hb : Balanced cfg t)
    (h : countQuantumOfRoundRobin cfg s expired = some t) : Sound cfg t := by
  have halg : cfg.algoritmoPlanificacion ≠ .fifo := by
    intro halg
    simp [countQuantumOfRoundRobin, halg] at h
  obtain ⟨_, _, _, _, _, _, rfl⟩ := count_quantum_frame h
  exact {
    balanced := hb
    chooses := hs.chooses
    flags := hs.flags
    heads := hs.heads
    registered := ⟨hs.registered.numbered, hs.registered.counter, hs.registered.sockets⟩
    messages := hs.messages
    packages := ⟨hs.packages.replies, hs.packages.sending, hs.packages.handles⟩
    devices := hs.devices
    untimed := fun hfifo => absurd hfifo halg }

theorem manage_memory_heads (hs : Heads s) (h : manageMemory cfg s = some t) : Heads t := by
  cases hthread : s.threadMemory with
  | receive =>
    cases hr : s.fromMemory with
    | nil => simp [manageMemory, hthread, hr] at h
    | cons response rest =>
      cases response
      all_goals
        simp only [manageMemory, hthread, hr, Option.some.injEq] at h
        subst h
        refine heads_of_subset hs (fun _ => rfl) fun p hp => ⟨p, ?_, rfl⟩
        simp only [pendingCopies, copies, hthread, hr, List.flatMap_cons, initResponse,
          replacement, List.mem_append, List.mem_singleton, List.append_nil, List.nil_append] at hp ⊢
        tauto
  | replaceNew pcb =>
    have hcopy : pcb ∈ pendingCopies s := by simp [pendingCopies, copies, hthread]
    obtain ⟨head, rest, hn, hid⟩ := head_of_copy hs hcopy
    simp only [manageMemory, hthread, hn, list_replace_zero, Option.some.injEq] at h
    subst h
    refine heads_of_subset hs (fun _ => by simp [hn, hid]) fun p hp => ⟨p, ?_, rfl⟩
    simp only [pendingCopies, copies, hthread, replacement, List.mem_append, List.mem_singleton,
      List.append_nil] at hp ⊢
    tauto
  | postInit | unlockPageFault | postReady =>
    simp only [manageMemory, hthread, Option.some.injEq] at h
    subst h
    refine heads_of_subset hs (fun _ => rfl) fun p hp => ⟨p, ?_, rfl⟩
    simpa [pendingCopies, copies, threads, hthread] using hp
  | addReady pcb =>
    simp only [manageMemory, hthread, Option.some.injEq] at h
    subst h
    obtain ⟨ready, rr, hready⟩ := add_to_ready_frame cfg s pcb
    rw [hready]
    refine heads_of_subset hs (fun _ => rfl) fun p hp => ⟨p, ?_, rfl⟩
    cases halg : cfg.algoritmoPlanificacion
    all_goals simpa [pendingCopies, copies, threads, hthread, halg] using hp

theorem manage_memory_sound (hs : Sound cfg s) (hb : Balanced cfg t) (h : manageMemory cfg s = some t) :
    Sound cfg t := by
  have hheads := manage_memory_heads hs.heads h
  obtain ⟨_, _, _, _, _, _, _, _, rfl⟩ := manage_memory_frame h
  exact {
    balanced := hb
    chooses := hs.chooses
    flags := hs.flags
    heads := hheads
    registered := ⟨hs.registered.numbered, hs.registered.counter, hs.registered.sockets⟩
    messages := hs.messages
    packages := ⟨hs.packages.replies, hs.packages.sending, hs.packages.handles⟩
    devices := hs.devices
    untimed := fun halg => by
      obtain ⟨_, _, _, _, _, _, _, _, _⟩ := hs.untimed halg
      constructor <;> assumption }

theorem resolve_page_fault_sound {i : ℕ} {p : PageFaultThread} (hs : Sound cfg s) (hb : Balanced cfg t)
    (hp : s.pageFaultThreads[i]? = some p) (h : resolvePageFault s i p = some t) :
    Sound cfg t := by
  have hmemory : t.toMemory.flatMap initRequest = s.toMemory.flatMap initRequest := by
    unfold resolvePageFault at h
    repeat' split at h
    all_goals simp only [Option.some.injEq, reduceCtorEq] at h
    all_goals subst h
    all_goals simp [System.setPageFaultThread]
  obtain ⟨_, _, _, rfl⟩ := resolve_page_fault_frame h
  exact {
    balanced := hb
    chooses := hs.chooses
    flags := hs.flags
    heads := by
      refine heads_of_subset hs.heads (fun _ => rfl) fun q hq => ⟨q, ?_, rfl⟩
      simpa only [pendingCopies, copies, threads, hmemory] using hq
    registered := ⟨hs.registered.numbered, hs.registered.counter, hs.registered.sockets⟩
    messages := hs.messages
    packages := ⟨hs.packages.replies, hs.packages.sending, hs.packages.handles⟩
    devices := hs.devices
    untimed := fun halg => by
      obtain ⟨_, _, _, _, _, _, _, _, _⟩ := hs.untimed halg
      constructor <;> assumption }

/-- A pair whose time the device is about to take is whole. -/
theorem paired_front {thread : ThreadDispatch} {i : ℕ} {d : Device} (hd : Paired thread i d)
    (hthread : d.thread = .removeTime) :
    ∃ time pcb rest, d.listProcesses = .time time::.process pcb::rest := by
  obtain ⟨pairs, front, tail, hlist, hfront, -, hlength⟩ := hd
  rw [hthread] at hfront hlength
  obtain rfl : front = [] := hfront
  cases pairs with
  | nil =>
    simp only [List.length_nil, begun] at hlength
    omega
  | cons pair pairs => exact ⟨pair.1, pair.2, _, by simpa using hlist⟩

theorem simulate_io_default_devices {i : ℕ} {d : Device} (hs : Devices s)
    (hd : s.devices[i]? = some d) (h : simulateIoDefault cfg s i d = some t) : Devices t := by
  obtain ⟨pairs, front, tail, hlist, hfront, htail, hlength⟩ := hs i d hd
  cases hthread : d.thread with
  | wait =>
    rw [hthread] at hfront hlength
    simp only [simulateIoDefault, hthread, Option.ite_none_right_eq_some, Option.some.injEq] at h
    obtain ⟨hpos, rfl⟩ := h
    refine devices_of_set hs hd rfl (fun _ => ⟨pairs, front, tail, hlist, hfront, htail, ?_⟩)
      fun _ _ _ h => h
    simp only [begun, System.setDevice] at hlength ⊢
    omega
  | removeTime =>
    rw [hthread] at hfront hlength
    obtain rfl : front = [] := hfront
    cases pairs with
    | nil =>
      simp only [List.length_nil, begun] at hlength
      omega
    | cons pair pairs =>
      simp only [List.flatMap_cons, List.nil_append, List.cons_append] at hlist
      simp only [simulateIoDefault, hthread, hlist, Option.some.injEq] at h
      subst h
      refine devices_of_set hs hd rfl (fun _ => ⟨pairs, [.process pair.2], tail, by simp,
        ⟨pair.2, rfl⟩, htail, ?_⟩) fun _ _ _ h => h
      simp only [List.length_cons, begun, System.setDevice] at hlength ⊢
      omega
  | removeProcess time =>
    rw [hthread] at hfront hlength
    obtain ⟨pcb, rfl⟩ := hfront
    simp only [List.cons_append, List.nil_append] at hlist
    simp only [simulateIoDefault, hthread, hlist, Option.some.injEq] at h
    subst h
    exact devices_of_set hs hd rfl (fun _ => ⟨pairs, [], tail, by simp, rfl, htail, hlength⟩)
      fun _ _ _ h => h
  | serving time pcb =>
    rw [hthread] at hfront hlength
    simp only [simulateIoDefault, hthread, Option.some.injEq] at h
    subst h
    obtain ⟨ready, rr, hready⟩ := add_to_ready_frame cfg s pcb
    rw [hready]
    exact devices_of_set hs hd rfl (fun _ => ⟨pairs, front, tail, hlist, hfront, htail, hlength⟩)
      fun _ _ _ h => h
  | postReady =>
    rw [hthread] at hfront hlength
    simp only [simulateIoDefault, hthread, Option.some.injEq] at h
    subst h
    exact devices_of_set hs hd rfl (fun _ => ⟨pairs, front, tail, hlist, hfront, htail, hlength⟩)
      fun _ _ _ h => h

theorem simulate_io_default_sound {i : ℕ} {d : Device} (hs : Sound cfg s) (hb : Balanced cfg t)
    (hd : s.devices[i]? = some d) (h : simulateIoDefault cfg s i d = some t) : Sound cfg t := by
  have hdevices := simulate_io_default_devices hs.devices hd h
  obtain ⟨_, _, _, _, rfl⟩ := simulate_io_default_frame h
  exact {
    balanced := hb
    chooses := hs.chooses
    flags := hs.flags
    heads := hs.heads
    registered := ⟨hs.registered.numbered, hs.registered.counter, hs.registered.sockets⟩
    messages := hs.messages
    packages := ⟨hs.packages.replies, hs.packages.sending, hs.packages.handles⟩
    devices := hdevices
    untimed := fun halg => by
      obtain ⟨_, _, _, _, _, _, _, _, _⟩ := hs.untimed halg
      constructor <;> assumption }

theorem leave_process_labelled {cpu cpu' : Cpu} {pcb : Pcb} {package : CpuPackage}
    (h : leaveProcess cpu pcb = (cpu', some package)) : Labelled package := by
  unfold leaveProcess sendPcbIoPackage at h
  repeat' split at h
  all_goals simp only [Prod.mk.injEq, Option.some.injEq, reduceCtorEq, and_false] at h
  all_goals obtain ⟨-, rfl⟩ := h
  all_goals trivial

theorem leave_process_untimed {cpu cpu' : Cpu} {pcb : Pcb} {package : CpuPackage}
    (h : leaveProcess cpu pcb = (cpu', some package)) (hcheck : cpu.checkInterruption = false) :
    NoInterruption package := by
  unfold leaveProcess sendPcbIoPackage at h
  repeat' split at h
  all_goals simp only [Prod.mk.injEq, Option.some.injEq, reduceCtorEq, and_false] at h
  all_goals obtain ⟨-, rfl⟩ := h
  all_goals simp_all [NoInterruption]

theorem running_flags {dispatch : Dispatch} {pcb : Pcb} (hs : Flags s)
    (hthread : s.cpuThread = .running dispatch pcb) : Exclusive s.cpu := by
  simpa only [Flags, hthread] using hs

/-- What `processDispatch` does, with its flags. -/
theorem process_dispatch_flags {answers : Answers} (hs : Flags s)
    (h : processDispatch cfg s answers = some t) :
    Flags t ∧ (s.cpu.checkInterruption = false → t.cpu.checkInterruption = false) ∧
      (∀ reply, t.cpuThread = .sending reply → Labelled reply.package ∧
        (s.cpu.checkInterruption = false → NoInterruption reply.package)) ∧
      ∀ reply ∈ t.fromCpu, reply ∈ s.fromCpu ∨ s.cpuThread = .sending reply := by
  cases hthread : s.cpuThread with
  | receive =>
    have hclear : Clear s.cpu := by simpa only [Flags, hthread] using hs
    cases hq : s.toCpu with
    | nil => simp [processDispatch, hthread, hq] at h
    | cons sent rest =>
      simp only [processDispatch, hthread, hq, Option.some.injEq] at h
      subst h
      exact ⟨hclear.exclusive, id, by simp, fun _ hr => Or.inl hr⟩
  | running dispatch pcb =>
    have hexclusive := running_flags hs hthread
    simp only [processDispatch, hthread] at h
    split at h
    · rename_i hkeep
      simp only [Option.bind_eq_bind, Option.bind_eq_some_iff, Option.some.injEq] at h
      obtain ⟨⟨cpu, pcb', made⟩, hcycle, rfl⟩ := h
      obtain ⟨hcheck, hflags⟩ := instruction_cycle_flags (clear_of_running hkeep) hcycle
      exact ⟨hflags, fun hc => hcheck.trans hc, by simp, fun _ hr => Or.inl hr⟩
    · rename_i hleave
      simp only [Option.some.injEq] at h
      subst h
      exact ⟨⟨hexclusive, by simpa using hleave⟩, id, by simp, fun _ hr => Or.inl hr⟩
  | leaving dispatch pcb =>
    obtain ⟨cpu, package, hpackage, hclear, hcheck⟩ := leaving_flags hs hthread
    simp only [processDispatch, hthread, hpackage, Option.some.injEq] at h
    subst h
    refine ⟨hclear, fun _ => hcheck, fun reply hreply => ?_, fun _ hr => Or.inl hr⟩
    simp only [CpuThread.sending.injEq] at hreply
    subst hreply
    exact ⟨leave_process_labelled hpackage, leave_process_untimed hpackage⟩
  | sending reply =>
    have hclear : Clear s.cpu := by simpa only [Flags, hthread] using hs
    simp only [processDispatch, hthread, Option.some.injEq] at h
    subst h
    refine ⟨hclear, id, by simp, fun r hr => ?_⟩
    rcases List.mem_append.mp hr with hr | hr
    · exact Or.inl hr
    · obtain rfl := List.mem_singleton.mp hr
      exact Or.inr rfl

theorem process_dispatch_sound {answers : Answers} (hs : Sound cfg s) (hb : Balanced cfg t)
    (h : processDispatch cfg s answers = some t) : Sound cfg t := by
  obtain ⟨hflags, hcheck, hsending, hreplies⟩ := process_dispatch_flags hs.flags h
  obtain ⟨_, _, _, _, _, _, _, rfl⟩ := process_dispatch_frame h
  exact {
    balanced := hb
    chooses := hs.chooses
    flags := hflags
    heads := hs.heads
    registered := ⟨hs.registered.numbered, hs.registered.counter, hs.registered.sockets⟩
    messages := hs.messages
    packages := by
      refine ⟨fun r hr => ?_, fun r hr => (hsending r hr).1, hs.packages.handles⟩
      rcases hreplies r hr with hr | hr
      · exact hs.packages.replies r hr
      · exact hs.packages.sending r hr
    devices := hs.devices
    untimed := fun halg => by
      have hold := hs.untimed halg
      refine ⟨hold.scheduler, hold.beggin, hold.interruption, hold.thread, hold.interrupts,
        hcheck hold.check, fun r hr => (hsending r hr).2 hold.check, fun r hr => ?_, hold.dispatch⟩
      rcases hreplies r hr with hr | hr
      · exact hold.replies r hr
      · exact hold.sending r hr }

theorem process_interrupt_sound (hs : Sound cfg s) (hb : Balanced cfg t) (h : processInterrupt s = some t) :
    Sound cfg t := by
  obtain ⟨dispatch, rest, hq, rfl⟩ := process_interrupt_cases h
  exact {
    balanced := hb
    chooses := hs.chooses
    flags := by
      have hflags := hs.flags
      cases hthread : s.cpuThread with
      | leaving =>
        simp only [Flags, hthread] at hflags ⊢
        exact ⟨hflags.1, by simp [keepsRunning]⟩
      | _ =>
        simp only [Flags, hthread] at hflags ⊢
        exact hflags
    heads := hs.heads
    registered := ⟨hs.registered.numbered, hs.registered.counter, hs.registered.sockets⟩
    messages := hs.messages
    packages := ⟨hs.packages.replies, hs.packages.sending, hs.packages.handles⟩
    devices := hs.devices
    untimed := fun halg => by
      have hempty := (hs.untimed halg).interrupts
      simp [hempty] at hq }

theorem memoria_sound {segments : List Segment} (hs : Sound cfg s) (hb : Balanced cfg t)
    (h : memoria s segments = some t) : Sound cfg t := by
  obtain ⟨request, rest, hq, rfl⟩ := memoria_cases h
  exact {
    balanced := hb
    chooses := hs.chooses
    flags := hs.flags
    heads := by
      refine heads_of_subset hs.heads (fun _ => rfl) fun p hp => ?_
      simp only [pendingCopies, copies, threads, List.flatMap_append, List.mem_append] at hp ⊢
      simp only [hq, List.flatMap_cons, List.mem_append]
      rcases hp with ((hp | hp | hp) | hp) | hp
      · exact ⟨p, by tauto, rfl⟩
      · exact ⟨p, by tauto, rfl⟩
      · cases request with
        | initProcessStructuresMemory pcb =>
          obtain rfl : p = { pcb with segmentTable := segments } := by simpa [memoryAnswer] using hp
          exact ⟨pcb, by simp, rfl⟩
        | _ => simp [memoryAnswer] at hp
      · exact ⟨p, by tauto, rfl⟩
      · exact ⟨p, by tauto, rfl⟩
    registered := ⟨hs.registered.numbered, hs.registered.counter, hs.registered.sockets⟩
    messages := hs.messages
    packages := ⟨hs.packages.replies, hs.packages.sending, hs.packages.handles⟩
    devices := hs.devices
    untimed := fun halg => by
      obtain ⟨_, _, _, _, _, _, _, _, _⟩ := hs.untimed halg
      constructor <;> assumption }

theorem step_sound {e : Event} (hs : Sound cfg s) (h : step cfg s e = some t) : Sound cfg t := by
  have hb := step_balanced hs h
  cases e with
  | connect instructions segments =>
    simp only [step, Option.some.injEq] at h
    subst h
    exact connect_sound hs hb
  | console i value =>
    obtain ⟨c, hc, h⟩ := Option.bind_eq_some_iff.mp h
    exact consola_sound hc hs hb h
  | receiveConsole i =>
    obtain ⟨c, hc, h⟩ := Option.bind_eq_some_iff.mp h
    exact receive_console_sound hc hs hb h
  | scheduleNextToRunning => exact schedule_next_to_running_sound hs hb h
  | manageDispatch => exact manage_dispatch_sound hs hb h
  | manageInterrupt => exact manage_interrupt_sound hs hb h
  | countQuantum expired => exact count_quantum_sound hs hb h
  | manageMemory => exact manage_memory_sound hs hb h
  | resolvePageFault i =>
    obtain ⟨p, hp, h⟩ := Option.bind_eq_some_iff.mp h
    exact resolve_page_fault_sound hs hb hp h
  | simulateIo i =>
    obtain ⟨d, hd, h⟩ := Option.bind_eq_some_iff.mp h
    exact simulate_io_default_sound hs hb hd h
  | processDispatch answers => exact process_dispatch_sound hs hb h
  | processInterrupt => exact process_interrupt_sound hs hb h
  | memoria segments => exact memoria_sound hs hb h

end Geck.KernelSoundness
