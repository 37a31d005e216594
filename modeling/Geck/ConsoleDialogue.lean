import Geck.KernelSoundness

/-!
# The conversation of the kernel with a console

A console sends its program, answers one I/O request at a time and is told the
end of its process once, after which it hears nothing more. Everything said on
its connection is about the one process that was created for it.
-/

set_option autoImplicit false

namespace Geck.ConsoleDialogue
open Geck.LabelledRuns Geck.Tallies Geck.BlockStore Geck.SharedPcb Geck.MemoryHandlers
open Geck.CpuTranslation Geck.CpuExecution Geck.KernelState Geck.KernelThreads Geck.KernelFrames
open Geck.KernelLedger Geck.KernelLaws Geck.KernelInvariant Geck.KernelSoundness

def program : ConsoleRequest → ℤ
  | .initProcess _ _ => 1
  | _ => 0

attribute [simp] program.eq_1 program.eq_2

def ending : ConsoleMessage → ℤ
  | .io _ => 0
  | .endConsole => 1
  | .endConsoleSegFault => 1

attribute [simp] ending.eq_1 ending.eq_2 ending.eq_3

/-- The ends a console was told, whether or not it has read them. -/
def endings (c : Console) : ℤ := total ending c.toConsole+if c.ended then 1 else 0

/-- The process in EXIT whose console `manage_dispatch` has still to tell. -/
def announcing : ThreadDispatch → List Pcb
  | .sendEnd package => [packagePcb package]
  | .sendMemory (.segFault _) => []
  | .sendMemory package => [packagePcb package]
  | _ => []

/-- The processes of console `i`. -/
def ofConsole (i : ℕ) (e : ℤ × ℤ) : ℤ := if e.2 = i then 1 else 0

def countOf (i : ℕ) (l : List Pcb) : ℤ := total (fun pcb => ofConsole i (identity pcb)) l

@[simp] theorem count_of_nil (i : ℕ) : countOf i [] = 0 := rfl

@[simp] theorem count_of_append (i : ℕ) (l m : List Pcb) :
    countOf i (l++m) = countOf i l+countOf i m := total_append _ _ _

theorem count_of_one (i : ℕ) (pcb : Pcb) :
    countOf i [pcb] = if pcb.clientSocket = i then 1 else 0 := by
  simp only [countOf, total_cons, total_nil, add_zero]
  rfl

theorem of_console_nonneg (i : ℕ) (e : ℤ × ℤ) : 0 ≤ ofConsole i e := by
  unfold ofConsole
  split <;> simp

theorem count_of_nonneg (i : ℕ) (l : List Pcb) : 0 ≤ countOf i l :=
  total_nonneg (fun _ => of_console_nonneg i _) l

structure Attended (s : System) (i : ℕ) (c : Console) : Prop where
  born : total program c.toKernel+total (ofConsole i) s.created = 1
  own : ∀ pcb ∈ withConsole c, pcb.clientSocket = i
  told : endings c+countOf i (announcing s.threadDispatch) = countOf i s.listExit

structure Dialogue (s : System) : Prop where
  consoles : ∀ i c, s.consoles[i]? = some c → Attended s i c
  announced : ∀ pcb ∈ announcing s.threadDispatch,
    ∃ exited ∈ s.listExit, identity exited = identity pcb

section Steps
variable {cfg : KernelConfig} {s t : System}

theorem dialogue_of_same (hs : Dialogue s) (hconsoles : t.consoles = s.consoles)
    (hcreated : t.created = s.created)
    (hannouncing : announcing t.threadDispatch = announcing s.threadDispatch)
    (hexit : t.listExit = s.listExit) : Dialogue t where
  consoles := by
    intro i c hc
    rw [hconsoles] at hc
    obtain ⟨hborn, hown, htold⟩ := hs.consoles i c hc
    exact ⟨by rwa [hcreated], hown, by rwa [hannouncing, hexit]⟩
  announced := by
    rw [hannouncing, hexit]
    exact hs.announced

/-- A step that moves one console. -/
theorem dialogue_of_set (hs : Dialogue s) {j : ℕ} {c c' : Console} (hc : s.consoles[j]? = some c)
    (hconsoles : t.consoles = s.consoles.set j c')
    (hcreated : ∀ i, i ≠ j → total (ofConsole i) t.created = total (ofConsole i) s.created)
    (hdispatch : t.threadDispatch = s.threadDispatch) (hexit : t.listExit = s.listExit)
    (hnew : Attended t j c') : Dialogue t where
  consoles := by
    intro i d hd
    rw [hconsoles] at hd
    by_cases hij : i = j
    · subst hij
      rw [List.getElem?_set_self (List.getElem?_eq_some_iff.mp hc).1] at hd
      obtain rfl := Option.some.inj hd
      exact hnew
    · rw [List.getElem?_set_ne (Ne.symm hij)] at hd
      obtain ⟨hborn, hown, htold⟩ := hs.consoles i d hd
      exact ⟨by rw [hcreated i hij, hborn], hown, by rwa [hdispatch, hexit]⟩
  announced := by
    rw [hdispatch, hexit]
    exact hs.announced

/-- What a step of `receive_console` leaves of the conversation. -/
theorem receive_console_talk {i : ℕ} {c : Console} (h : receiveConsole cfg s i c = some t) :
    ∃ thread toKernel, t.consoles = s.consoles.set i { c with thread := thread, toKernel := toKernel } ∧
      withConsole { c with thread := thread, toKernel := toKernel } ⊆ withConsole c ∧
      ((t.created = s.created ∧ total program toKernel = total program c.toKernel) ∨
        ∃ pid, t.created = s.created++[(pid, (i : ℤ))] ∧
          total program toKernel+1 = total program c.toKernel) := by
  cases hthread : c.thread with
  | receive =>
    cases hk : c.toKernel with
    | nil => simp [receiveConsole, hthread, hk] at h
    | cons request rest =>
      cases request with
      | initProcess instructions segments =>
        simp only [receiveConsole, hthread, hk, Option.some.injEq] at h
        subst h
        refine ⟨_, _, rfl, by simp [withConsole, hthread, hk], Or.inr ⟨_, rfl, ?_⟩⟩
        simp [add_comm]
      | ioScreenResponse pcb | ioKeyboardResponse pcb =>
        simp only [receiveConsole, hthread, hk, Option.some.injEq] at h
        subst h
        refine ⟨_, _, rfl, fun p hp => ?_, Or.inl ⟨rfl, by simp⟩⟩
        simp only [withConsole, hthread, hk, List.mem_append, returning, List.flatMap_cons, answered]
          at hp ⊢
        tauto
  | _ =>
    simp only [receiveConsole, scheduleNextToReady, addToReady, hthread] at h
    repeat' split at h
    all_goals simp only [Option.some.injEq, reduceCtorEq] at h
    all_goals subst h
    all_goals exact ⟨_, _, rfl, by simp [withConsole], Or.inl ⟨rfl, rfl⟩⟩

theorem receive_console_dialogue (hs : Dialogue s) {i : ℕ} {c : Console}
    (hc : s.consoles[i]? = some c) (h : receiveConsole cfg s i c = some t) : Dialogue t := by
  obtain ⟨hborn, hown, htold⟩ := hs.consoles i c hc
  obtain ⟨thread, toKernel, hconsoles, hwith, hcreated⟩ := receive_console_talk h
  obtain ⟨_, _, _, _, _, _, _, _, _, _, _, _, rfl⟩ := receive_console_frame h
  refine dialogue_of_set hs hc hconsoles ?_ rfl rfl ⟨?_, fun pcb hpcb => hown pcb (hwith hpcb), htold⟩
  · intro j hj
    rcases hcreated with ⟨hsame, -⟩ | ⟨pid, hadded, -⟩
    · rw [hsame]
    · have hother : ofConsole j (pid, (i : ℤ)) = 0 := if_neg (by simpa using Ne.symm hj)
      rw [hadded, total_append, total_cons, total_nil, hother]
      ring
  · rcases hcreated with ⟨hsame, hprogram⟩ | ⟨pid, hadded, hprogram⟩
    · rw [hsame]
      exact hprogram ▸ hborn
    · rw [hadded, total_append, total_cons, total_nil, ofConsole, if_pos rfl]
      show total program toKernel+_ = 1
      omega

/-- The console answers one request, or reads its end. -/
theorem consola_dialogue (hs : Dialogue s) {i : ℕ} {c : Console} {value : UInt32}
    (hc : s.consoles[i]? = some c) (hio : ∀ message ∈ c.toConsole, IoRequest message)
    (h : consola s i c value = some t) : Dialogue t := by
  obtain ⟨hborn, hown, htold⟩ := hs.consoles i c hc
  cases hended : c.ended with
  | true => simp [consola, hended] at h
  | false =>
  cases hk : c.toConsole with
  | nil => simp [consola, hended, hk] at h
  | cons message rest =>
  have hmessage := hio message (by simp [hk])
  cases message with
  | io package =>
    cases package
    case ioScreen pcb device parameter | ioKeyboard pcb device parameter =>
      simp only [consola, hended, hk, Bool.false_eq_true, if_false, Option.some.injEq] at h
      subst h
      refine dialogue_of_set hs hc rfl (fun _ _ => rfl) rfl rfl ⟨?_, fun p hp => ?_, ?_⟩
      · simpa [System.setConsole] using hborn
      · have hpcb : pcb.clientSocket = i := hown pcb (by simp [withConsole, hk])
        have hothers : ∀ q, q ∈ rest.flatMap requested ∨ q ∈ c.toKernel.flatMap answered ∨
            q ∈ returning c.thread → q.clientSocket = i := fun q hq => hown q (by
          simp only [withConsole, hk, List.flatMap_cons, List.mem_append]
          tauto)
        simp only [withConsole, List.flatMap_append, List.flatMap_singleton, answered,
          List.mem_append, List.mem_singleton] at hp
        rcases hp with (hp | hp | rfl) | hp
        · exact hothers p (Or.inl hp)
        · exact hothers p (Or.inr (Or.inl hp))
        · exact hpcb
        · exact hothers p (Or.inr (Or.inr hp))
      · simpa [endings, hended, hk, System.setConsole] using htold
    all_goals exact hmessage.elim
  | endConsole | endConsoleSegFault =>
    simp only [consola, hended, hk, Bool.false_eq_true, if_false, Option.some.injEq] at h
    subst h
    refine dialogue_of_set hs hc rfl (fun _ _ => rfl) rfl rfl ⟨hborn, fun p hp => ?_, ?_⟩
    · exact hown p (by simpa [withConsole, hk] using hp)
    · have hread : total ending rest+1 = total ending (c.toConsole) := by simp [hk, add_comm]
      simpa [endings, hended, hread, System.setConsole] using htold

/-- A package for a console that is there, told or asked. -/
theorem sent_dialogue (hs : Dialogue s) {pcb : Pcb} {message : ConsoleMessage} {c : Console}
    {next : ThreadDispatch} (hc : listGet s.consoles pcb.clientSocket = some c)
    (hrequested : ∀ p ∈ requested message, p.clientSocket = pcb.clientSocket)
    (hannounced : announcing next = [])
    (hending : announcing s.threadDispatch = if ending message = 1 then [pcb] else [])
    (hmessage : ending message = 0 ∨ ending message = 1) :
    Dialogue { sendToConsole s pcb.clientSocket message with threadDispatch := next } := by
  obtain ⟨h0, hj⟩ := list_get_some hc
  have hsocket : pcb.clientSocket = (pcb.clientSocket.toNat : ℤ) := by omega
  obtain ⟨hborn, hown, htold⟩ := hs.consoles _ c hj
  simp only [sendToConsole, hc]
  constructor
  · intro i d hd
    simp only [System.setConsole] at hd ⊢
    by_cases hij : i = pcb.clientSocket.toNat
    · subst hij
      rw [List.getElem?_set_self (List.getElem?_eq_some_iff.mp hj).1] at hd
      obtain rfl := Option.some.inj hd
      refine ⟨hborn, fun p hp => ?_, ?_⟩
      · simp only [withConsole, List.flatMap_append, List.flatMap_singleton, List.mem_append] at hp
        rcases hp with ((hp | hp) | hp) | hp
        · exact hown p (by simp only [withConsole, List.mem_append]; tauto)
        · rw [hrequested p hp, ← hsocket]
        · exact hown p (by simp only [withConsole, List.mem_append]; tauto)
        · exact hown p (by simp only [withConsole, List.mem_append]; tauto)
      · simp only [endings, total_append, total_cons, total_nil, hannounced, count_of_nil]
        rw [← htold, hending]
        simp only [endings]
        rcases hmessage with hzero | hone
        · simp [hzero]
        · simp only [hone, if_true, count_of_one, if_pos hsocket]
          ring
    · rw [List.getElem?_set_ne (Ne.symm hij)] at hd
      obtain ⟨hborn', hown', htold'⟩ := hs.consoles i d hd
      refine ⟨hborn', hown', ?_⟩
      rw [← htold', hending, hannounced]
      have hother : countOf i [pcb] = 0 := by
        rw [count_of_one, if_neg (by omega)]
      split <;> simp [hother]
  · simp [hannounced]

theorem io_message_socket {package : CpuPackage} {p : Pcb} (h : p ∈ requested (ioMessage package)) :
    p.clientSocket = (packagePcb package).clientSocket := by
  obtain ⟨sent, hsent, hidentity⟩ := io_message_identity package
  rw [hsent] at h
  obtain rfl := List.mem_singleton.mp h
  exact congrArg Prod.snd hidentity

theorem io_message_ending (package : CpuPackage) : ending (ioMessage package) = 0 := by
  cases package <;> rfl

theorem manage_dispatch_dialogue (hsound : Sound cfg s) (hs : Dialogue s)
    (h : manageDispatch cfg s = some t) : Dialogue t := by
  cases hthread : s.threadDispatch with
  | sendConsole package =>
    have hplace : packagePcb package ∈ processesAt s .cpu :=
      List.mem_append_right _ (by simp [hthread])
    obtain ⟨c, hc⟩ := socket_found hsound.balanced hsound.registered hplace
    simp only [manageDispatch, hthread, Option.some.injEq] at h
    subst h
    refine sent_dialogue hs hc (fun p hp => io_message_socket hp) rfl ?_
      (Or.inl (io_message_ending package))
    rw [hthread, io_message_ending]
    rfl
  | sendEnd package =>
    obtain ⟨exited, hexited, hidentity⟩ := hs.announced (packagePcb package) (by
      simp [hthread, announcing])
    have hplace : exited ∈ processesAt s .exit := List.mem_append_left _ hexited
    obtain ⟨c, hc⟩ := socket_found hsound.balanced hsound.registered hplace
    rw [show exited.clientSocket = (packagePcb package).clientSocket from congrArg Prod.snd hidentity]
      at hc
    cases package
    all_goals
      simp only [manageDispatch, hthread, Option.some.injEq] at h
      subst h
      refine sent_dialogue hs hc (by simp) ?_ (by simp [hthread, announcing]) (Or.inr rfl)
      rfl
  | addExit package =>
    simp only [manageDispatch, hthread, Option.some.injEq] at h
    obtain ⟨next, hnext, rfl⟩ : ∃ next, announcing next = [packagePcb package] ∧ t = { s with
        listExit := s.listExit++[changePcbStateTo (packagePcb package) .exit]
        threadDispatch := next } := ⟨_, by cases package <;> rfl, h.symm⟩
    constructor
    · intro i c hc
      obtain ⟨hborn, hown, htold⟩ := hs.consoles i c hc
      refine ⟨hborn, hown, ?_⟩
      simp only [hthread, announcing, count_of_nil, add_zero] at htold
      simp only [hnext, count_of_append, htold, count_of_one]
      rfl
    · intro pcb hpcb
      obtain rfl : pcb = packagePcb package := by simpa [hnext] using hpcb
      exact ⟨_, List.mem_append_right _ (List.mem_singleton_self _), rfl⟩
  | sendMemory package =>
    simp only [manageDispatch, hthread, Option.some.injEq] at h
    subst h
    exact dialogue_of_same hs rfl rfl (by cases package <;> simp [hthread, announcing]) rfl
  | postFree package =>
    simp only [manageDispatch, hthread, Option.some.injEq] at h
    subst h
    exact dialogue_of_same hs rfl rfl (by cases package <;> simp [hthread, announcing, afterFree]) rfl
  | unlockOut package =>
    simp only [manageDispatch, hthread, Option.some.injEq] at h
    subst h
    exact dialogue_of_same hs rfl rfl (by cases package <;> simp [hthread, announcing, afterFlag]) rfl
  | removeRunning package =>
    simp only [manageDispatch, hthread, Option.some.injEq] at h
    subst h
    exact dialogue_of_same hs rfl rfl (by cases package <;> simp [hthread, announcing, afterRunning])
      rfl
  | _ =>
    simp only [manageDispatch, hthread] at h
    repeat' split at h
    all_goals simp only [Option.some.injEq, reduceCtorEq] at h
    all_goals subst h
    all_goals exact dialogue_of_same hs rfl rfl (by simp [hthread, announcing]) rfl

/-- The console that connects is the first with its socket. -/
theorem connect_dialogue (hsound : Sound cfg s) (hs : Dialogue s)
    (instructions segments : List String) : Dialogue (connect s instructions segments) where
  consoles := by
    intro i c hc
    rcases Nat.lt_or_ge i s.consoles.length with hlt | hge
    · rw [connect, List.getElem?_append_left hlt] at hc
      obtain ⟨hborn, hown, htold⟩ := hs.consoles i c hc
      exact ⟨hborn, hown, htold⟩
    · rw [connect, List.getElem?_append_right hge, List.getElem?_singleton] at hc
      have hi : i = s.consoles.length := by
        split at hc
        · omega
        · cases hc
      subst hi
      obtain rfl : ⟨.receive, [.initProcess instructions segments], [], false⟩ = c := by simpa using hc
      have hnew : ∀ p ∈ s.listExit, p.clientSocket ≠ (s.consoles.length : ℤ) := by
        intro p hp heq
        have hplace : p ∈ processesAt s .exit := List.mem_append_left _ hp
        obtain ⟨c, hc⟩ := socket_found hsound.balanced hsound.registered hplace
        rw [heq, list_get_nat] at hc
        simp at hc
      have hexit : countOf s.consoles.length s.listExit = 0 :=
        total_zero fun p hp => if_neg (hnew p hp)
      have hannouncing : countOf s.consoles.length (announcing s.threadDispatch) = 0 := by
        apply total_zero
        intro p hp
        obtain ⟨exited, hexited, hidentity⟩ := hs.announced p hp
        exact hidentity ▸ if_neg (hnew exited hexited)
      have hcreated : total (ofConsole s.consoles.length) s.created = 0 := by
        apply total_zero
        intro e he
        obtain ⟨j, hj, hsocket⟩ := hsound.registered.sockets e he
        simp only [threads, List.length_map] at hj
        exact if_neg (by omega)
      refine ⟨?_, by simp [withConsole], ?_⟩
      · simp [connect, hcreated]
      · simp [connect, endings, hexit, hannouncing]
  announced := hs.announced

theorem step_dialogue (hsound : Sound cfg s) (hs : Dialogue s) {e : Event}
    (h : step cfg s e = some t) : Dialogue t := by
  cases e with
  | connect instructions segments =>
    obtain rfl := Option.some.inj h
    exact connect_dialogue hsound hs instructions segments
  | console i value =>
    obtain ⟨c, hc, h⟩ := Option.bind_eq_some_iff.mp h
    exact consola_dialogue hs hc (hsound.messages c (List.mem_of_getElem? hc)) h
  | receiveConsole i =>
    obtain ⟨c, hc, h⟩ := Option.bind_eq_some_iff.mp h
    exact receive_console_dialogue hs hc h
  | manageDispatch => exact manage_dispatch_dialogue hsound hs h
  | scheduleNextToRunning =>
    obtain ⟨_, _, _, _, _, _, _, _, _, _, _, rfl⟩ := schedule_next_to_running_frame h
    exact dialogue_of_same hs rfl rfl rfl rfl
  | manageInterrupt =>
    obtain ⟨_, _, _, _, rfl⟩ := manage_interrupt_frame h
    exact dialogue_of_same hs rfl rfl rfl rfl
  | countQuantum expired =>
    obtain ⟨_, _, _, _, _, _, rfl⟩ := count_quantum_frame h
    exact dialogue_of_same hs rfl rfl rfl rfl
  | manageMemory =>
    obtain ⟨_, _, _, _, _, _, _, _, rfl⟩ := manage_memory_frame h
    exact dialogue_of_same hs rfl rfl rfl rfl
  | resolvePageFault i =>
    obtain ⟨_, -, h⟩ := Option.bind_eq_some_iff.mp h
    obtain ⟨_, _, _, rfl⟩ := resolve_page_fault_frame h
    exact dialogue_of_same hs rfl rfl rfl rfl
  | simulateIo i =>
    obtain ⟨_, -, h⟩ := Option.bind_eq_some_iff.mp h
    obtain ⟨_, _, _, _, rfl⟩ := simulate_io_default_frame h
    exact dialogue_of_same hs rfl rfl rfl rfl
  | processDispatch answers =>
    obtain ⟨_, _, _, _, _, _, _, rfl⟩ := process_dispatch_frame h
    exact dialogue_of_same hs rfl rfl rfl rfl
  | processInterrupt =>
    obtain ⟨_, _, -, rfl⟩ := process_interrupt_cases h
    exact dialogue_of_same hs rfl rfl rfl rfl
  | memoria segments =>
    obtain ⟨_, _, -, rfl⟩ := memoria_cases h
    exact dialogue_of_same hs rfl rfl rfl rfl

theorem boot_dialogue (cfg : KernelConfig) (time : TimeVal) : Dialogue (boot cfg time) where
  consoles := by simp [boot]
  announced := by simp [boot, announcing]

end Steps

/-- What goes between the kernel and console `i`: one message at a time, the last of them the end
of the process, and all of them about the process that was created for it. -/
structure Conversation (s : System) (i : ℕ) (c : Console) : Prop where
  one : c.toKernel.length+c.toConsole.length+(if c.ended then 1 else 0) ≤ 1
  begins : (∃ instructions segments, c.toKernel = [.initProcess instructions segments] ∧
      ∀ pid, (pid, (i : ℤ)) ∉ s.created) ∨
    ∃ pid, (∀ q, (q, (i : ℤ)) ∈ s.created ↔ q = pid) ∧ ∀ pcb ∈ withConsole c, pcb.processId = pid
  ends : c.ended = true ∨ (∃ message ∈ c.toConsole, ending message = 1) →
    ∃ pcb ∈ s.listExit, pcb.clientSocket = i ∧
      ∀ place, place ≠ .exit → ∀ p ∈ processesAt s place, p.clientSocket ≠ i

section Conversations
variable {cfg : KernelConfig} {s : System} {i : ℕ} {c : Console}

theorem count_of_own {l : List Pcb} (h : ∀ pcb ∈ l, pcb.clientSocket = i) : countOf i l = l.length := by
  induction l with
  | nil => rfl
  | cons pcb l ih =>
    have hrest := ih fun p hp => h p (List.mem_cons_of_mem pcb hp)
    rw [show countOf i (pcb::l) = countOf i [pcb]+countOf i l from count_of_append i [pcb] l,
      count_of_one, if_pos (h pcb List.mem_cons_self), hrest, List.length_cons]
    push_cast
    ring

theorem to_kernel_length (l : List ConsoleRequest) :
    (l.length : ℤ) = total program l+(l.flatMap answered).length := by
  induction l with
  | nil => rfl
  | cons request l ih =>
    cases request <;> simp [ih] <;> ring

theorem to_console_length (l : List ConsoleMessage) :
    (l.length : ℤ) = total ending l+(l.flatMap requested).length := by
  induction l with
  | nil => rfl
  | cons message l ih =>
    cases message <;> simp [ih] <;> ring

/-- A console's process is in one place, and there once. -/
theorem places_of_console (hb : Balanced cfg s) (hc : Attended s i c) :
    countOf i (processesAt s .new)+countOf i (processesAt s .ready)+countOf i (processesAt s .cpu)+
      countOf i (processesAt s .console)+countOf i (processesAt s .device)+
      countOf i (processesAt s .pageFault)+countOf i (processesAt s .exit)+
      total program c.toKernel = 1 := by
  have hcensus := hb.census (ofConsole i)
  have hborn := hc.born
  simp only [census, admitted, weight] at hcensus
  simp only [countOf]
  omega

theorem exit_told (hc : Attended s i c) : endings c ≤ countOf i (processesAt s .exit) := by
  have htold := hc.told
  have := count_of_nonneg i (announcing s.threadDispatch)
  have := count_of_nonneg i (exiting s.threadDispatch)
  rw [show processesAt s .exit = s.listExit++exiting s.threadDispatch from rfl, count_of_append]
  omega

theorem console_holds (hi : s.consoles[i]? = some c) (hc : Attended s i c) :
    ((withConsole c).length : ℤ) ≤ countOf i (processesAt s .console) := by
  have hle := le_total (f := fun c : Console => countOf i (withConsole c))
    (fun _ => count_of_nonneg i _) (List.mem_of_getElem? hi)
  rw [← count_of_own hc.own]
  simpa [countOf, processesAt] using hle

theorem program_nonneg (l : List ConsoleRequest) : 0 ≤ total program l :=
  total_nonneg (fun request => by cases request <;> simp) l

theorem ending_nonneg (l : List ConsoleMessage) : 0 ≤ total ending l :=
  total_nonneg (fun message => by cases message <;> simp) l

theorem one_message (hb : Balanced cfg s) (hi : s.consoles[i]? = some c) (hc : Attended s i c) :
    c.toKernel.length+c.toConsole.length+(if c.ended then 1 else 0) ≤ 1 := by
  have hplaces := places_of_console hb hc
  have hexit := exit_told hc
  have hholds := console_holds hi hc
  have hkernel := to_kernel_length c.toKernel
  have hconsole := to_console_length c.toConsole
  have := count_of_nonneg i (processesAt s .new)
  have := count_of_nonneg i (processesAt s .ready)
  have := count_of_nonneg i (processesAt s .cpu)
  have := count_of_nonneg i (processesAt s .device)
  have := count_of_nonneg i (processesAt s .pageFault)
  simp only [withConsole, List.length_append] at hholds
  unfold endings at hexit
  push_cast at hholds
  cases hended : c.ended <;> simp only [hended, Bool.false_eq_true, if_false, if_true] at hexit ⊢ <;>
    omega

/-- The only process that was created for a console. -/
theorem created_once {pid : ℤ} (hone : total (ofConsole i) s.created = 1)
    (hpid : (pid, (i : ℤ)) ∈ s.created) (q : ℤ) : (q, (i : ℤ)) ∈ s.created ↔ q = pid := by
  constructor
  · intro hq
    obtain ⟨j, hj⟩ := List.mem_iff_getElem?.mp hq
    obtain ⟨k, hk⟩ := List.mem_iff_getElem?.mp hpid
    by_cases hjk : j = k
    · subst hjk
      exact congrArg Prod.fst (Option.some.inj (hj.symm.trans hk))
    · have hother := others_zero (of_console_nonneg i) hone.le hjk hj hk (if_pos rfl)
      simp [ofConsole] at hother
  · rintro rfl
    exact hpid

theorem conversation_begins (hb : Balanced cfg s) (hi : s.consoles[i]? = some c)
    (hc : Attended s i c) : (∃ instructions segments,
      c.toKernel = [.initProcess instructions segments] ∧ ∀ pid, (pid, (i : ℤ)) ∉ s.created) ∨
    ∃ pid, (∀ q, (q, (i : ℤ)) ∈ s.created ↔ q = pid) ∧
      ∀ pcb ∈ withConsole c, pcb.processId = pid := by
  have hborn := hc.born
  have hprogram := program_nonneg c.toKernel
  have hcreated := total_nonneg (of_console_nonneg i) s.created
  obtain hone | hzero : total program c.toKernel = 1 ∨ total program c.toKernel = 0 := by omega
  · left
    have hlength := one_message hb hi hc
    obtain ⟨request, hmem, hne⟩ := exists_of_total_ne_zero (by omega : total program c.toKernel ≠ 0)
    obtain ⟨only, honly⟩ := List.length_eq_one_iff.mp
      (by have := List.length_pos_of_mem hmem; omega : c.toKernel.length = 1)
    obtain rfl : request = only := by simpa [honly] using hmem
    cases request with
    | initProcess instructions segments =>
      refine ⟨instructions, segments, honly, fun pid hpid => ?_⟩
      have hle := le_total (of_console_nonneg i) hpid
      simp only [ofConsole, if_true] at hle
      omega
    | ioScreenResponse pcb | ioKeyboardResponse pcb => simp at hne
  · right
    have hone : total (ofConsole i) s.created = 1 := by omega
    obtain ⟨⟨pid, socket⟩, hmem, hne⟩ :=
      exists_of_total_ne_zero (by omega : total (ofConsole i) s.created ≠ 0)
    obtain rfl : socket = (i : ℤ) := by simpa [ofConsole] using hne
    refine ⟨pid, created_once hone hmem, fun pcb hpcb => ?_⟩
    have hplace : pcb ∈ processesAt s .console :=
      List.mem_flatMap.mpr ⟨c, List.mem_of_getElem? hi, hpcb⟩
    apply (created_once hone hmem _).mp
    rw [← hc.own pcb hpcb]
    exact identity_created hb hplace

theorem none_of_count {l : List Pcb} (h : countOf i l = 0) : ∀ p ∈ l, p.clientSocket ≠ i := by
  intro p hp hsocket
  have hle := le_total (f := fun pcb : Pcb => ofConsole i (identity pcb))
    (fun _ => of_console_nonneg i _) hp
  have hself : ofConsole i (identity p) = 1 := if_pos hsocket
  unfold countOf at h
  omega

theorem conversation_ends (hb : Balanced cfg s) (hc : Attended s i c) (hends : 1 ≤ endings c) :
    ∃ pcb ∈ s.listExit, pcb.clientSocket = i ∧
      ∀ place, place ≠ .exit → ∀ p ∈ processesAt s place, p.clientSocket ≠ i := by
  have htold := hc.told
  have hannouncing := count_of_nonneg i (announcing s.threadDispatch)
  obtain ⟨pcb, hmem, hne⟩ := exists_of_total_ne_zero (by
    show countOf i s.listExit ≠ 0
    omega : total (fun pcb => ofConsole i (identity pcb)) s.listExit ≠ 0)
  have hsocket : pcb.clientSocket = i := by
    by_contra hother
    exact hne (if_neg hother)
  refine ⟨pcb, hmem, hsocket, fun place hplace => none_of_count ?_⟩
  have hplaces := places_of_console hb hc
  have hexit := exit_told hc
  have := program_nonneg c.toKernel
  have := count_of_nonneg i (processesAt s .new)
  have := count_of_nonneg i (processesAt s .ready)
  have := count_of_nonneg i (processesAt s .cpu)
  have := count_of_nonneg i (processesAt s .console)
  have := count_of_nonneg i (processesAt s .device)
  have := count_of_nonneg i (processesAt s .pageFault)
  cases place with
  | exit => exact absurd rfl hplace
  | _ => omega

theorem conversation_of_dialogue (hb : Balanced cfg s) (hs : Dialogue s)
    (hi : s.consoles[i]? = some c) : Conversation s i c where
  one := one_message hb hi (hs.consoles i c hi)
  begins := conversation_begins hb hi (hs.consoles i c hi)
  ends := by
    rintro (hended | ⟨message, hmem, hone⟩)
    · refine conversation_ends hb (hs.consoles i c hi) ?_
      have := ending_nonneg c.toConsole
      simp only [endings, hended, if_true]
      omega
    · refine conversation_ends hb (hs.consoles i c hi) ?_
      have := le_total (f := ending) (fun message => by cases message <;> simp) hmem
      unfold endings
      split <;> omega

end Conversations

end Geck.ConsoleDialogue
