import Geck.KernelSoundness

/-!
# What holds of a PCB on its way through the kernel

From the removal from NEW to the request that ends its structures a PCB is
copied from thread to thread. The copies differ in the state and the registers,
so a property of the rest is kept by every step of the kernel. A process with a
page fault to be served may have a property of its own.
-/

set_option autoImplicit false

namespace Geck.PcbTrail
open Geck.Tallies Geck.BlockStore Geck.SharedPcb Geck.MemoryHandlers Geck.CpuExecution
open Geck.CpuEffects Geck.CpuFlags Geck.KernelState Geck.KernelThreads Geck.KernelFrames Geck.KernelLedger
open Geck.KernelLaws Geck.KernelInvariant Geck.KernelSoundness

/-- What every copy of a PCB keeps. -/
def core (pcb : Pcb) : ℤ × ℤ × List String × List Segment :=
  (pcb.processId, pcb.programCounter, pcb.instructions, pcb.segmentTable)

section Trail
variable (S : Pcb → Prop) (A : Pcb → ℤ → ℤ → Prop)

/-- `S` is for a process that goes on, `A` for one whose page fault is not served. -/
structure Persistent : Prop where
  settled : ∀ p q, core p = core q → S p → S q
  asking : ∀ p q segment page, core p = core q → A p segment page → A q segment page

def Packed : CpuPackage → Prop
  | .pageFault pcb segment page => A pcb segment page
  | package => S (packagePcb package)

def Handed : ThreadDispatch → Prop
  | .postFree package => Packed S A package
  | .postGrado package => Packed S A package
  | .lockOut package => Packed S A package
  | .setFlag package => Packed S A package
  | .unlockOut package => Packed S A package
  | .removeRunning package => Packed S A package
  | .sendConsole package => S (packagePcb package)
  | .addExit package => S (packagePcb package)
  | .sendMemory package => S (packagePcb package)
  | .sendEnd (.segFault pcb) => S pcb
  | .addBlocked pcb _ _ => S pcb
  | .addTime pcb _ _ => S pcb
  | .addProcess pcb _ => S pcb
  | .addReady pcb => S pcb
  | .createThread pcb segment page => A pcb segment page
  | _ => True

def Faulting : PageFaultThread → Prop
  | .lock pcb segment page => A pcb segment page
  | .send pcb segment page => A pcb segment page
  | .finished => True

def Requesting : KernelRequest → Prop
  | .initProcessStructuresMemory _ => True
  | .requestPageFault pcb segment page => A pcb segment page
  | .endStructures pcb => S pcb

def Answering : KernelResponse → Prop
  | .initProcessStructuresMemoryResponse pcb => S pcb
  | .responsePageFault pcb => S pcb

def Resolved : ThreadMemory → Prop
  | .replaceNew pcb => S pcb
  | .addReady pcb => S pcb
  | _ => True

/-- A process whose instruction faulted is on the CPU until the loop ends. -/
def Executed (cpu : Cpu) (pcb : Pcb) : Prop :=
  if cpu.pageFault then
    A pcb cpu.numeroSegmentoGlobalPageFault cpu.numeroPaginaGlobalPageFault
  else S pcb

def OnCpu (cpu : Cpu) : CpuThread → Prop
  | .receive => True
  | .running _ pcb => Executed S A cpu pcb
  | .leaving _ pcb => Executed S A cpu pcb
  | .sending reply => Packed S A reply.package

/-- Memory has answered for the head of NEW. -/
def Admittable (s : System) : Prop :=
  initDone s.threadMemory = 1 ∨ 0 < s.semInitProcessMemory ∨ ∃ c ∈ s.consoles, c.thread = .removeNew

structure Trail (s : System) : Prop where
  consoles : ∀ c ∈ s.consoles, ∀ pcb ∈ admitting c.thread++withConsole c, S pcb
  ready : ∀ pcb ∈ s.listReady++s.listReadyRr++s.listReadyFifo, S pcb
  scheduler : ∀ pcb ∈ dispatching s.shortTermScheduler, S pcb
  toCpu : ∀ sent ∈ s.toCpu, S sent.2
  cpu : OnCpu S A s.cpu s.cpuThread
  fromCpu : ∀ reply ∈ s.fromCpu, Packed S A reply.package
  dispatch : Handed S A s.threadDispatch
  devices : ∀ d ∈ s.devices, ∀ pcb ∈ inDevice d, S pcb
  pageFaults : ∀ p ∈ s.pageFaultThreads, Faulting A p
  toMemory : ∀ request ∈ s.toMemory, Requesting S A request
  fromMemory : ∀ response ∈ s.fromMemory, Answering S response
  memory : Resolved S s.threadMemory
  new : Admittable s → ∀ pcb ∈ s.listNew.head?, S pcb

end Trail

section Admission
variable {cfg : KernelConfig} {s : System}

/-- A console waits for that answer, and so NEW is not empty. -/
theorem admittable_new (hb : Balanced cfg s) (h : Admittable s) : s.listNew ≠ [] := by
  rcases h with hdone | hsem | ⟨c, hc, hthread⟩
  case inr.inr => exact new_not_empty hb hc (by simp [hthread])
  all_goals
    have hinit := hb.init
    have hdone : 0 ≤ initDone s.threadMemory := by cases s.threadMemory <;> simp
    unfold initTokens at hinit
    obtain ⟨c, hc, hwaits⟩ := exists_of_total_ne_zero
      (show total (fun c => waitsInit c.thread) s.consoles ≠ 0 by omega)
    refine new_not_empty hb hc ?_
    cases hthread : c.thread <;> simp [hthread] at hwaits ⊢

/-- The console that removes the head is the only one that memory has answered. -/
theorem removed_not_admittable (hb : Balanced cfg s) {i : ℕ} {c : Console}
    (hc : s.consoles[i]? = some c) (hthread : c.thread = .removeNew) {c' : Console}
    (hnext : c'.thread ≠ .removeNew) :
    initDone s.threadMemory ≠ 1 ∧ s.semInitProcessMemory = 0 ∧
      ∀ x ∈ s.consoles.set i c', x.thread ≠ .removeNew := by
  have hothers (j : ℕ) (x : Console) (hij : i ≠ j) (hj : s.consoles[j]? = some x) :
      scheduling x.thread = 0 :=
    scheduling_alone hb hij hc hj (by simp [hthread])
  have hwaits : total (fun c => waitsInit c.thread) s.consoles = 0 := by
    refine total_zero fun x hx => ?_
    obtain ⟨j, hj⟩ := List.mem_iff_getElem?.mp hx
    by_cases hij : i = j
    · subst hij
      obtain rfl := Option.some.inj (hj.symm.trans hc)
      simp [hthread]
    · have h0 := hothers j x hij hj
      cases h : x.thread <;> simp [h] at h0 ⊢
  have hinit := hb.init
  have hdone : 0 ≤ initDone s.threadMemory := by cases s.threadMemory <;> simp
  unfold initTokens at hinit
  refine ⟨by omega, by omega, fun x hx => ?_⟩
  obtain ⟨j, hj⟩ := List.mem_iff_getElem?.mp hx
  by_cases hij : i = j
  · subst hij
    rw [List.getElem?_set_self (List.getElem?_eq_some_iff.mp hc).1] at hj
    obtain rfl := Option.some.inj hj
    exact hnext
  · rw [List.getElem?_set_ne hij] at hj
    have h0 := hothers j x hij hj
    intro h
    simp [h] at h0

end Admission

section Threads
variable {cfg : KernelConfig} {S : Pcb → Prop} {A : Pcb → ℤ → ℤ → Prop} {s t : System}

theorem add_to_ready_mem {pcb p : Pcb} (h : p ∈ (addToReady cfg s pcb).listReady++
    (addToReady cfg s pcb).listReadyRr++(addToReady cfg s pcb).listReadyFifo) :
    p ∈ s.listReady++s.listReadyRr++s.listReadyFifo ∨ p = changePcbStateTo pcb .ready := by
  unfold addToReady at h
  split at h <;> simp only [List.mem_append, List.mem_singleton] at h ⊢ <;> tauto

variable (cfg) in
theorem add_to_ready_settled (hp : Persistent S A)
    (hready : ∀ p ∈ s.listReady++s.listReadyRr++s.listReadyFifo, S p) {pcb : Pcb} (h : S pcb) :
    ∀ p ∈ (addToReady cfg s pcb).listReady++(addToReady cfg s pcb).listReadyRr++
      (addToReady cfg s pcb).listReadyFifo, S p := by
  intro p hmem
  rcases add_to_ready_mem hmem with hold | rfl
  · exact hready p hold
  · exact hp.settled pcb _ rfl h

section Consoles
variable {i : ℕ} {c : Console}

/-- The thread of a console moved on to anything but the removal from NEW. -/
theorem admittable_of_set {c' : Console} (hconsoles : t.consoles = s.consoles.set i c')
    (hthread : c'.thread ≠ .removeNew) (hmemory : t.threadMemory = s.threadMemory)
    (hsem : t.semInitProcessMemory = s.semInitProcessMemory) (h : Admittable t) : Admittable s := by
  rcases h with hdone | hsem' | ⟨x, hx, hxthread⟩
  · exact Or.inl (hmemory ▸ hdone)
  · exact Or.inr (Or.inl (hsem ▸ hsem'))
  · rw [hconsoles] at hx
    rcases List.mem_or_eq_of_mem_set hx with hx | rfl
    · exact Or.inr (Or.inr ⟨x, hx, hxthread⟩)
    · exact absurd hxthread hthread

/-- What is left to show of a step of a console's thread. -/
theorem trail_console (hs : Trail S A s) (h : receiveConsole cfg s i c = some t) {c' : Console}
    (hconsoles : t.consoles = s.consoles.set i c')
    (hconsole : ∀ pcb ∈ admitting c'.thread++withConsole c', S pcb)
    (hready : ∀ pcb ∈ t.listReady++t.listReadyRr++t.listReadyFifo, S pcb)
    (hmemory : ∀ request ∈ t.toMemory, Requesting S A request)
    (hnew : Admittable t → ∀ pcb ∈ t.listNew.head?, S pcb) : Trail S A t := by
  have hall : ∀ x ∈ t.consoles, ∀ pcb ∈ admitting x.thread++withConsole x, S pcb := by
    intro x hx
    rw [hconsoles] at hx
    rcases List.mem_or_eq_of_mem_set hx with hx | rfl
    · exact hs.consoles x hx
    · exact hconsole
  obtain ⟨_, _, _, _, _, _, _, _, _, _, _, _, rfl⟩ := receive_console_frame h
  exact ⟨hall, hready, hs.scheduler, hs.toCpu, hs.cpu, hs.fromCpu, hs.dispatch, hs.devices,
    hs.pageFaults, hmemory, hs.fromMemory, hs.memory, hnew⟩

/-- The thread moved on to anything but the removal from NEW. -/
theorem trail_console_moved (hs : Trail S A s) (h : receiveConsole cfg s i c = some t)
    {c' : Console} (hconsoles : t.consoles = s.consoles.set i c') (hthread : c'.thread ≠ .removeNew)
    (hconsole : ∀ pcb ∈ admitting c'.thread++withConsole c', S pcb)
    (hready : ∀ pcb ∈ t.listReady++t.listReadyRr++t.listReadyFifo, S pcb)
    (hmemory : ∀ request ∈ t.toMemory, Requesting S A request)
    (hsem : t.semInitProcessMemory = s.semInitProcessMemory)
    (hnew : Admittable s → ∀ pcb ∈ t.listNew.head?, S pcb) : Trail S A t := by
  have hsame : t.threadMemory = s.threadMemory := by
    obtain ⟨_, _, _, _, _, _, _, _, _, _, _, _, rfl⟩ := receive_console_frame h
    rfl
  apply trail_console hs h hconsoles hconsole hready hmemory
  exact fun h => hnew (admittable_of_set hconsoles hthread hsame hsem h)

theorem console_settled {thread : ConsoleThread}
    (hconsole : ∀ pcb ∈ admitting c.thread++withConsole c, S pcb)
    (hadmitting : admitting thread = []) (hreturning : returning thread = []) :
    ∀ pcb ∈ admitting thread++withConsole { c with thread := thread }, S pcb := by
  intro pcb hpcb
  apply hconsole
  simp only [hadmitting, withConsole, hreturning, List.mem_append] at hpcb ⊢
  tauto

variable (hc : s.consoles[i]? = some c)
include hc

theorem receive_console_trail (hp : Persistent S A) (hb : Balanced cfg s) (hs : Trail S A s)
    (h : receiveConsole cfg s i c = some t) : Trail S A t := by
  have hconsole := hs.consoles c (List.mem_of_getElem? hc)
  have hstep := h
  cases hthread : c.thread with
  | receive =>
    cases hk : c.toKernel with
    | nil => simp [receiveConsole, hthread, hk] at h
    | cons request rest =>
      have hrequest (pcb : Pcb) (hpcb : pcb ∈ answered request) : S pcb :=
        hconsole pcb (by simp [withConsole, hk, hpcb])
      have hrest (pcb : Pcb) (hpcb : pcb ∈ c.toConsole.flatMap requested++
          rest.flatMap answered) : S pcb := by
        apply hconsole
        simp only [withConsole, hk, List.flatMap_cons, List.mem_append] at hpcb ⊢
        tauto
      cases request with
      | initProcess instructions segments =>
        simp only [receiveConsole, hthread, hk, Option.some.injEq] at h
        subst h
        refine trail_console_moved hs hstep rfl (by simp) ?_ hs.ready hs.toMemory rfl hs.new
        simpa [withConsole] using hrest
      | ioScreenResponse pcb | ioKeyboardResponse pcb =>
        simp only [receiveConsole, hthread, hk, Option.some.injEq] at h
        subst h
        refine trail_console_moved hs hstep rfl (by simp) ?_ hs.ready hs.toMemory rfl hs.new
        intro p hp
        simp only [withConsole, admitting, returning, List.nil_append, List.mem_append,
          List.mem_singleton] at hp hrest
        rcases hp with hp | rfl
        · exact hrest p hp
        · exact hrequest p (by simp)
  | created pcb =>
    simp only [receiveConsole, hthread, Option.some.injEq] at h
    subst h
    refine trail_console_moved hs hstep rfl (by simp) (console_settled hconsole rfl rfl) hs.ready
      hs.toMemory rfl ?_
    intro hadmittable p hpmem
    apply hs.new hadmittable
    change p ∈ (s.listNew++[changePcbStateTo pcb .new]).head? at hpmem
    rwa [List.head?_append_of_ne_nil _ (admittable_new hb hadmittable)] at hpmem
  | sendInit pcb =>
    simp only [receiveConsole, scheduleNextToReady, hthread, Option.some.injEq] at h
    subst h
    refine trail_console_moved hs hstep rfl (by simp) (console_settled hconsole rfl rfl) hs.ready
      ?_ rfl hs.new
    intro request hrequest
    rcases List.mem_append.mp hrequest with hold | hnew
    · exact hs.toMemory request hold
    · obtain rfl := List.mem_singleton.mp hnew
      trivial
  | waitInit =>
    simp only [receiveConsole, scheduleNextToReady, hthread, Option.ite_none_right_eq_some,
      Option.some.injEq] at h
    obtain ⟨hsem, rfl⟩ := h
    apply trail_console hs hstep rfl
    · simpa [hthread, withConsole] using hconsole
    · exact hs.ready
    · exact hs.toMemory
    · exact fun _ => hs.new (Or.inr (Or.inl hsem))
  | removeNew =>
    have hadmittable : Admittable s := Or.inr (Or.inr ⟨c, List.mem_of_getElem? hc, hthread⟩)
    cases hn : s.listNew with
    | nil => simp [receiveConsole, scheduleNextToReady, hthread, hn] at h
    | cons pcb rest =>
      simp only [receiveConsole, scheduleNextToReady, hthread, hn, Option.some.injEq] at h
      subst h
      apply trail_console hs hstep rfl
      · intro p hpmem
        simp only [admitting, withConsole, returning, hthread, List.mem_append, List.append_nil,
          List.mem_singleton] at hpmem hconsole
        rcases hpmem with rfl | hwith
        · exact hs.new hadmittable p (by simp [hn])
        · exact hconsole p (by simpa using hwith)
      · exact hs.ready
      · exact hs.toMemory
      · obtain ⟨hdone, hsem, hothers⟩ := removed_not_admittable hb hc hthread
          (show ({ c with thread := .addReady pcb } : Console).thread ≠ .removeNew by simp)
        rintro (h | h | ⟨x, hx, hxthread⟩)
        · exact absurd h hdone
        · change 0 < s.semInitProcessMemory at h
          omega
        · exact absurd hxthread (hothers x hx)
  | addReady pcb =>
    have hpcb : S pcb := hconsole pcb (by simp [hthread])
    have hready := add_to_ready_settled cfg hp hs.ready hpcb
    simp only [receiveConsole, scheduleNextToReady, hthread, Option.some.injEq] at h
    subst h
    obtain ⟨ready, rr, hadd⟩ := add_to_ready_frame cfg s pcb
    rw [hadd] at hready hstep ⊢
    exact trail_console_moved hs hstep rfl (by simp) (console_settled hconsole rfl rfl) hready
      hs.toMemory rfl hs.new
  | returned pcb =>
    have hpcb : S pcb := hconsole pcb (by simp [hthread, withConsole])
    have hready := add_to_ready_settled cfg hp hs.ready hpcb
    simp only [receiveConsole, hthread, Option.some.injEq] at h
    subst h
    obtain ⟨ready, rr, hadd⟩ := add_to_ready_frame cfg s pcb
    rw [hadd] at hready hstep ⊢
    exact trail_console_moved hs hstep rfl (by simp) (console_settled hconsole rfl rfl) hready
      hs.toMemory rfl hs.new
  | testNew =>
    simp only [receiveConsole, scheduleNextToReady, hthread, Option.some.injEq] at h
    subst h
    by_cases hempty : s.listNew = []
    all_goals
      simp only [hempty, if_true, if_false] at hstep ⊢
      exact trail_console_moved hs hstep rfl (by simp) (console_settled hconsole rfl rfl) hs.ready
        hs.toMemory rfl hs.new
  | getNew =>
    cases hn : s.listNew with
    | nil => simp [receiveConsole, scheduleNextToReady, hthread, hn] at h
    | cons pcb rest =>
      simp only [receiveConsole, scheduleNextToReady, hthread, hn, Option.some.injEq] at h
      subst h
      exact trail_console_moved hs hstep rfl (by simp) (console_settled hconsole rfl rfl) hs.ready
        hs.toMemory rfl hs.new
  | waitScheduleReady | waitGrado =>
    simp only [receiveConsole, scheduleNextToReady, hthread, Option.ite_none_right_eq_some,
      Option.some.injEq] at h
    obtain ⟨-, rfl⟩ := h
    exact trail_console_moved hs hstep rfl (by simp) (console_settled hconsole rfl rfl) hs.ready
      hs.toMemory rfl hs.new
  | postReady | postScheduleReady | postReturned =>
    simp only [receiveConsole, scheduleNextToReady, hthread, Option.some.injEq] at h
    subst h
    exact trail_console_moved hs hstep rfl (by simp) (console_settled hconsole rfl rfl) hs.ready
      hs.toMemory rfl hs.new

theorem consola_trail {value : UInt32} (hp : Persistent S A) (hs : Trail S A s)
    (h : consola s i c value = some t) : Trail S A t := by
  have hconsole := hs.consoles c (List.mem_of_getElem? hc)
  have hthread : ∀ c' : Console, c'.thread = c.thread → Admittable (s.setConsole i c') →
      Admittable s := by
    rintro c' hsame (hdone | hsem | ⟨x, hx, hxthread⟩)
    · exact Or.inl hdone
    · exact Or.inr (Or.inl hsem)
    · rcases List.mem_or_eq_of_mem_set hx with hx | rfl
      · exact Or.inr (Or.inr ⟨x, hx, hxthread⟩)
      · exact Or.inr (Or.inr ⟨c, List.mem_of_getElem? hc, hsame ▸ hxthread⟩)
  have hset : ∀ c' : Console, c'.thread = c.thread →
      (∀ pcb ∈ c'.toConsole.flatMap requested++c'.toKernel.flatMap answered, S pcb) →
      Trail S A (s.setConsole i c') := by
    intro c' hsame hc'
    refine ⟨fun x hx => ?_, hs.ready, hs.scheduler, hs.toCpu, hs.cpu, hs.fromCpu, hs.dispatch,
      hs.devices, hs.pageFaults, hs.toMemory, hs.fromMemory, hs.memory,
      fun h => hs.new (hthread c' hsame h)⟩
    rcases List.mem_or_eq_of_mem_set hx with hx | rfl
    · exact hs.consoles x hx
    · intro pcb hpcb
      simp only [withConsole, hsame, List.mem_append] at hpcb hc' hconsole
      have hold := hconsole pcb
      have hnew := hc' pcb
      tauto
  cases hend : c.ended with
  | true => simp [consola, hend] at h
  | false =>
  cases hq : c.toConsole with
  | nil => simp [consola, hend, hq] at h
  | cons message rest =>
    have hmessage : ∀ pcb ∈ requested message, S pcb := fun pcb hpcb =>
      hconsole pcb (by simp [withConsole, hq, hpcb])
    have hrest : ∀ pcb ∈ rest.flatMap requested++c.toKernel.flatMap answered, S pcb := by
      intro pcb hpcb
      apply hconsole
      simp only [withConsole, hq, List.flatMap_cons, List.mem_append] at hpcb ⊢
      tauto
    have hanswer : ∀ request, (∀ pcb ∈ answered request, S pcb) → ∀ pcb ∈
        rest.flatMap requested++(c.toKernel++[request]).flatMap answered, S pcb := by
      intro request hrequest pcb hpcb
      simp only [List.flatMap_append, List.flatMap_cons, List.flatMap_nil, List.append_nil,
        List.mem_append] at hpcb hrest
      have hold := hrest pcb
      have hnew := hrequest pcb
      tauto
    cases message with
    | io package =>
      cases package
      case ioScreen pcb _ _ =>
        simp only [consola, hend, hq, Bool.false_eq_true, if_false, Option.some.injEq] at h
        subst h
        exact hset _ rfl (hanswer _ hmessage)
      case ioKeyboard pcb _ parameter =>
        simp only [consola, hend, hq, Bool.false_eq_true, if_false, Option.some.injEq] at h
        subst h
        refine hset _ rfl (hanswer _ fun p hpmem => ?_)
        obtain rfl := List.mem_singleton.mp hpmem
        exact hp.settled pcb _ rfl (hmessage pcb (by simp))
      all_goals
        simp only [consola, hend, hq, Bool.false_eq_true, if_false, Option.some.injEq] at h
        subst h
        exact hset _ rfl hrest
    | endConsole | endConsoleSegFault =>
      simp only [consola, hend, hq, Bool.false_eq_true, if_false, Option.some.injEq] at h
      subst h
      exact hset _ rfl hrest

end Consoles

theorem connect_trail (instructions segments : List String) (hs : Trail S A s) :
    Trail S A (connect s instructions segments) where
  consoles := by
    intro x hx
    rcases List.mem_append.mp hx with hx | hx
    · exact hs.consoles x hx
    · obtain rfl := List.mem_singleton.mp hx
      simp [withConsole]
  ready := hs.ready
  scheduler := hs.scheduler
  toCpu := hs.toCpu
  cpu := hs.cpu
  fromCpu := hs.fromCpu
  dispatch := hs.dispatch
  devices := hs.devices
  pageFaults := hs.pageFaults
  toMemory := hs.toMemory
  fromMemory := hs.fromMemory
  memory := hs.memory
  new := by
    rintro (hdone | hsem | ⟨x, hx, hxthread⟩)
    · exact hs.new (Or.inl hdone)
    · exact hs.new (Or.inr (Or.inl hsem))
    · rcases List.mem_append.mp hx with hx | hx
      · exact hs.new (Or.inr (Or.inr ⟨x, hx, hxthread⟩))
      · obtain rfl := List.mem_singleton.mp hx
        simp at hxthread

theorem schedule_next_to_running_trail (hp : Persistent S A) (hs : Trail S A s)
    (h : scheduleNextToRunning cfg s = some t) : Trail S A t := by
  have hnext : (∀ pcb ∈ t.listReady++t.listReadyRr++t.listReadyFifo, S pcb) ∧
      (∀ pcb ∈ dispatching t.shortTermScheduler, S pcb) ∧ ∀ sent ∈ t.toCpu, S sent.2 := by
    have hready := hs.ready
    have hscheduler := hs.scheduler
    have hto := hs.toCpu
    simp only [List.mem_append] at hready
    cases hthread : s.shortTermScheduler with
    | addRunning pcb timed =>
      simp only [scheduleNextToRunning, hthread, Option.some.injEq] at h
      subst h
      refine ⟨hs.ready, fun p hpmem => ?_, hto⟩
      obtain rfl := List.mem_singleton.mp hpmem
      exact hp.settled pcb _ rfl (hscheduler pcb (by simp [hthread]))
    | send pcb timed =>
      simp only [scheduleNextToRunning, hthread, Option.some.injEq] at h
      subst h
      refine ⟨hs.ready, ?_, fun sent hsent => ?_⟩
      · split <;> simp
      · rcases List.mem_append.mp hsent with hold | hnew
        · exact hto sent hold
        · obtain rfl := List.mem_singleton.mp hnew
          exact hscheduler pcb (by simp [hthread])
    | waitReady | waitCpuFree =>
      simp only [scheduleNextToRunning, hthread, Option.ite_none_right_eq_some,
        Option.some.injEq] at h
      obtain ⟨-, rfl⟩ := h
      exact ⟨hs.ready, by simp, hto⟩
    | choose =>
      cases halg : cfg.algoritmoPlanificacion with
      | fifo | rr =>
        cases hq : s.listReady with
        | nil => simp [scheduleNextToRunning, hthread, halg, hq] at h
        | cons pcb rest =>
          simp only [scheduleNextToRunning, hthread, halg, hq, Option.some.injEq] at h
          subst h
          simp only [hq, List.mem_cons] at hready
          refine ⟨fun p hpmem => hready p ?_, fun p hpmem => hready p ?_, hto⟩
          · simp only [List.mem_append] at hpmem
            tauto
          · obtain rfl := List.mem_singleton.mp hpmem
            tauto
      | feedback =>
        cases hq : s.listReadyRr with
        | nil =>
          simp only [scheduleNextToRunning, hthread, halg, hq, Option.some.injEq] at h
          subst h
          exact ⟨by simpa only [hq] using hs.ready, by simp, hto⟩
        | cons pcb rest =>
          simp only [scheduleNextToRunning, hthread, halg, hq, Option.some.injEq] at h
          subst h
          simp only [hq, List.mem_cons] at hready
          refine ⟨fun p hpmem => hready p ?_, fun p hpmem => hready p ?_, hto⟩
          · simp only [List.mem_append] at hpmem
            tauto
          · obtain rfl := List.mem_singleton.mp hpmem
            tauto
    | chooseFifo =>
      cases hq : s.listReadyFifo with
      | nil =>
        simp only [scheduleNextToRunning, hthread, hq, Option.some.injEq] at h
        subst h
        exact ⟨by simpa only [hq] using hs.ready, by simp, hto⟩
      | cons pcb rest =>
        simp only [scheduleNextToRunning, hthread, hq, Option.some.injEq] at h
        subst h
        simp only [hq, List.mem_cons] at hready
        refine ⟨fun p hpmem => hready p ?_, fun p hpmem => hready p ?_, hto⟩
        · simp only [List.mem_append] at hpmem
          tauto
        · obtain rfl := List.mem_singleton.mp hpmem
          tauto
    | postBeggin dispatch | setUltimo timed =>
      simp only [scheduleNextToRunning, hthread, Option.some.injEq] at h
      subst h
      exact ⟨hs.ready, by simp, hto⟩
  obtain ⟨hready, hscheduler, hto⟩ := hnext
  obtain ⟨_, _, _, _, _, _, _, _, _, _, _, rfl⟩ := schedule_next_to_running_frame h
  exact ⟨hs.consoles, hready, hscheduler, hto, hs.cpu, hs.fromCpu, hs.dispatch, hs.devices,
    hs.pageFaults, hs.toMemory, hs.fromMemory, hs.memory, hs.new⟩

theorem after_free_handed {package : CpuPackage} (h : Packed S A package) :
    Handed S A (afterFree package) := by
  cases package <;> exact h

theorem after_flag_handed {package : CpuPackage} (h : Packed S A package) :
    Handed S A (afterFlag package) := by
  cases package <;> exact h

theorem after_running_handed {package : CpuPackage} (h : Packed S A package) :
    Handed S A (afterRunning package) := by
  cases package <;> exact h

theorem io_message_settled (hp : Persistent S A) {package : CpuPackage} (h : S (packagePcb package)) :
    ∀ pcb ∈ requested (ioMessage package), S pcb := by
  intro p hpmem
  cases package
  case ioScreen pcb device parameter | ioKeyboard pcb device parameter =>
    simp only [ioMessage, requested, send_pcb_io_package_pcb, List.mem_singleton] at hpmem
    subst hpmem
    exact hp.settled pcb _ rfl h
  all_goals
    obtain rfl := List.mem_singleton.mp hpmem
    exact h

theorem trail_sent (hs : Trail S A s) (clientSocket : ℤ) {message : ConsoleMessage}
    (hmessage : ∀ pcb ∈ requested message, S pcb) :
    Trail S A (sendToConsole s clientSocket message) := by
  unfold sendToConsole
  cases hget : listGet s.consoles clientSocket with
  | none => exact hs
  | some c =>
    have hc := (list_get_some hget).2
    have hconsole := hs.consoles c (List.mem_of_getElem? hc)
    refine ⟨fun x hx => ?_, hs.ready, hs.scheduler, hs.toCpu, hs.cpu, hs.fromCpu, hs.dispatch,
      hs.devices, hs.pageFaults, hs.toMemory, hs.fromMemory, hs.memory, ?_⟩
    · rcases List.mem_or_eq_of_mem_set hx with hx | rfl
      · exact hs.consoles x hx
      · intro pcb hpcb
        simp only [withConsole, List.flatMap_append, List.flatMap_cons, List.flatMap_nil,
          List.append_nil, List.mem_append] at hpcb hconsole
        have hold := hconsole pcb
        have hnew := hmessage pcb
        tauto
    · rintro (hdone | hsem | ⟨x, hx, hxthread⟩)
      · exact hs.new (Or.inl hdone)
      · exact hs.new (Or.inr (Or.inl hsem))
      · rcases List.mem_or_eq_of_mem_set hx with hx | rfl
        · exact hs.new (Or.inr (Or.inr ⟨x, hx, hxthread⟩))
        · exact hs.new (Or.inr (Or.inr ⟨c, List.mem_of_getElem? hc, hxthread⟩))

/-- A step that changes what the thread has at hand, and else only what no process is read from. -/
theorem trail_next (hs : Trail S A s) {thread : ThreadDispatch} (hnext : Handed S A thread)
    {free grado inReady : ℕ} {mutex flag : Bool} {blocked running exit : List Pcb} :
    Trail S A { s with
      threadDispatch := thread
      semCpuFreeToExecute := free
      semGradoMultiprogamacion := grado
      semProcessInReady := inReady
      mOutOfRunning := mutex
      flagOutOfRunning := flag
      listBlocked := blocked
      listRunning := running
      listExit := exit } :=
  ⟨hs.consoles, hs.ready, hs.scheduler, hs.toCpu, hs.cpu, hs.fromCpu, hnext, hs.devices,
    hs.pageFaults, hs.toMemory, hs.fromMemory, hs.memory, hs.new⟩

theorem trail_device (hs : Trail S A s) {i : ℕ} {d' : Device} (h : ∀ pcb ∈ inDevice d', S pcb) :
    Trail S A (s.setDevice i d') := by
  refine ⟨hs.consoles, hs.ready, hs.scheduler, hs.toCpu, hs.cpu, hs.fromCpu, hs.dispatch,
    fun d hd => ?_, hs.pageFaults, hs.toMemory, hs.fromMemory, hs.memory, hs.new⟩
  rcases List.mem_or_eq_of_mem_set hd with hd | rfl
  · exact hs.devices d hd
  · exact h

theorem manage_dispatch_trail (hp : Persistent S A) (hs : Trail S A s)
    (h : manageDispatch cfg s = some t) : Trail S A t := by
  have hdispatch := hs.dispatch
  cases hthread : s.threadDispatch with
  | receive =>
    cases hq : s.fromCpu with
    | nil => simp [manageDispatch, hthread, hq] at h
    | cons reply rest =>
      have hfrom := hs.fromCpu
      simp only [manageDispatch, hthread, hq, Option.some.injEq] at h
      rw [hq] at hfrom
      subst h
      exact ⟨hs.consoles, hs.ready, hs.scheduler, hs.toCpu, hs.cpu,
        fun r hr => hfrom r (List.mem_cons_of_mem reply hr), hfrom reply List.mem_cons_self,
        hs.devices, hs.pageFaults, hs.toMemory, hs.fromMemory, hs.memory, hs.new⟩
  | postFree package =>
    rw [hthread] at hdispatch
    simp only [manageDispatch, hthread, Option.some.injEq] at h
    subst h
    exact trail_next hs (after_free_handed hdispatch)
  | postGrado package =>
    rw [hthread] at hdispatch
    simp only [manageDispatch, hthread, Option.some.injEq] at h
    subst h
    refine trail_next hs ?_
    exact hdispatch
  | lockOut package =>
    rw [hthread] at hdispatch
    simp only [manageDispatch, hthread, Option.ite_none_left_eq_some, Option.some.injEq] at h
    obtain ⟨-, rfl⟩ := h
    refine trail_next hs ?_
    exact hdispatch
  | setFlag package =>
    rw [hthread] at hdispatch
    cases hu : s.ultimo with
    | none => simp [manageDispatch, hthread, hu] at h
    | some u =>
      simp only [manageDispatch, hthread, hu, Option.some.injEq] at h
      subst h
      rw [← hu]
      refine trail_next hs ?_
      exact hdispatch
  | unlockOut package =>
    rw [hthread] at hdispatch
    simp only [manageDispatch, hthread, Option.some.injEq] at h
    subst h
    exact trail_next hs (after_flag_handed hdispatch)
  | sendConsole package =>
    rw [hthread] at hdispatch
    simp only [manageDispatch, hthread, Option.some.injEq] at h
    subst h
    refine trail_next (trail_sent hs _ (io_message_settled hp hdispatch)) ?_
    trivial
  | addBlocked pcb device parameter =>
    rw [hthread] at hdispatch
    simp only [manageDispatch, hthread, Option.some.injEq] at h
    subst h
    refine trail_next hs ?_
    exact hp.settled pcb _ rfl hdispatch
  | addTime pcb device parameter =>
    rw [hthread] at hdispatch
    obtain ⟨i, d, -, hd, rfl⟩ := add_time_some hthread h
    refine trail_next (trail_device hs fun p hpmem => ?_) ?_
    · apply hs.devices d (List.mem_of_getElem? hd)
      simpa [inDevice] using hpmem
    · exact hdispatch
  | addProcess pcb i =>
    rw [hthread] at hdispatch
    obtain ⟨d, hd, rfl⟩ := add_process_some hthread h
    refine trail_next (trail_device hs fun p hpmem => ?_) ?_
    · have hold := hs.devices d (List.mem_of_getElem? hd)
      simp only [inDevice, List.flatMap_append, List.flatMap_cons, List.flatMap_nil, queuedItem,
        List.append_nil, List.mem_append, List.mem_singleton] at hpmem hold
      rcases hpmem with (hq | rfl) | hserving
      · exact hold p (Or.inl hq)
      · exact hdispatch
      · exact hold p (Or.inr hserving)
    · trivial
  | postDevice i =>
    obtain ⟨d, hd, rfl⟩ := post_device_some hthread h
    refine trail_next (trail_device hs fun p hpmem => ?_) ?_
    · exact hs.devices d (List.mem_of_getElem? hd) p hpmem
    · trivial
  | removeRunning package =>
    rw [hthread] at hdispatch
    simp only [manageDispatch, hthread, Option.some.injEq] at h
    subst h
    exact trail_next hs (after_running_handed hdispatch)
  | addReady pcb =>
    rw [hthread] at hdispatch
    have hready := hs.ready
    have hpcb : S (changePcbStateTo pcb .ready) := hp.settled pcb _ rfl hdispatch
    simp only [manageDispatch, hthread] at h
    simp only [List.mem_append] at hready
    split at h
    all_goals
      obtain rfl := Option.some.inj h
      refine ⟨hs.consoles, fun p hpmem => ?_, hs.scheduler, hs.toCpu, hs.cpu, hs.fromCpu, trivial,
        hs.devices, hs.pageFaults, hs.toMemory, hs.fromMemory, hs.memory, hs.new⟩
      simp only [List.mem_append, List.mem_singleton] at hpmem
    · rcases hpmem with ((hold | rfl) | hold) | hold
      · exact hready p (Or.inl (Or.inl hold))
      · exact hpcb
      · exact hready p (Or.inl (Or.inr hold))
      · exact hready p (Or.inr hold)
    · rcases hpmem with hold | hold | rfl
      · exact hready p (Or.inl hold)
      · exact hready p (Or.inr hold)
      · exact hpcb
    · exact hready p hpmem
  | postReady =>
    simp only [manageDispatch, hthread, Option.some.injEq] at h
    subst h
    refine trail_next hs ?_
    trivial
  | addExit package =>
    rw [hthread] at hdispatch
    simp only [manageDispatch, hthread, Option.some.injEq] at h
    subst h
    refine trail_next hs ?_
    cases package <;> exact hdispatch
  | sendMemory package =>
    rw [hthread] at hdispatch
    have hrequest : S (changePcbStateTo (packagePcb package) .exit) :=
      hp.settled (packagePcb package) _ rfl hdispatch
    simp only [manageDispatch, hthread, Option.some.injEq] at h
    subst h
    refine ⟨hs.consoles, hs.ready, hs.scheduler, hs.toCpu, hs.cpu, hs.fromCpu, ?_, hs.devices,
      hs.pageFaults, fun request hmem => ?_, hs.fromMemory, hs.memory, hs.new⟩
    · cases package <;> trivial
    · rcases List.mem_append.mp hmem with hold | hnew
      · exact hs.toMemory request hold
      · obtain rfl := List.mem_singleton.mp hnew
        exact hrequest
  | sendEnd package =>
    rw [hthread] at hdispatch
    cases package
    all_goals
      simp only [manageDispatch, hthread, Option.some.injEq] at h
      subst h
      refine trail_next (trail_sent hs _ (by simp)) ?_
      exact hdispatch
  | createThread pcb segmentNumber pageNumber =>
    rw [hthread] at hdispatch
    simp only [manageDispatch, hthread, Option.some.injEq] at h
    subst h
    refine ⟨hs.consoles, hs.ready, hs.scheduler, hs.toCpu, hs.cpu, hs.fromCpu, trivial, hs.devices,
      fun p hpmem => ?_, hs.toMemory, hs.fromMemory, hs.memory, hs.new⟩
    rcases List.mem_append.mp hpmem with hold | hnew
    · exact hs.pageFaults p hold
    · obtain rfl := List.mem_singleton.mp hnew
      exact hdispatch

theorem manage_memory_trail (hp : Persistent S A) (hheads : Heads s) (hs : Trail S A s)
    (h : manageMemory cfg s = some t) : Trail S A t := by
  have hmemory := hs.memory
  cases hthread : s.threadMemory with
  | receive =>
    have hfrom := hs.fromMemory
    cases hq : s.fromMemory with
    | nil => simp [manageMemory, hthread, hq] at h
    | cons response rest =>
      have hrest (r : KernelResponse) (hr : r ∈ rest) : Answering S r :=
        hfrom r (by simp [hq, hr])
      have hresponse : Answering S response := hfrom response (by simp [hq])
      cases response
      all_goals
        simp only [manageMemory, hthread, hq, Option.some.injEq] at h
        subst h
        refine ⟨hs.consoles, hs.ready, hs.scheduler, hs.toCpu, hs.cpu, hs.fromCpu, hs.dispatch,
          hs.devices, hs.pageFaults, hs.toMemory, hrest, hresponse, ?_⟩
        rintro (hdone | hsem | hconsole)
        · simp at hdone
        · exact hs.new (Or.inr (Or.inl hsem))
        · exact hs.new (Or.inr (Or.inr hconsole))
  | replaceNew pcb =>
    rw [hthread] at hmemory
    obtain ⟨head, rest, hn, -⟩ := head_of_copy hheads
      (show pcb ∈ pendingCopies s by simp [pendingCopies, copies, hthread])
    simp only [manageMemory, hthread, Option.some.injEq] at h
    subst h
    refine ⟨hs.consoles, hs.ready, hs.scheduler, hs.toCpu, hs.cpu, hs.fromCpu, hs.dispatch,
      hs.devices, hs.pageFaults, hs.toMemory, hs.fromMemory, trivial, fun _ p hpmem => ?_⟩
    simp only [hn, list_replace_zero, List.head?_cons, Option.mem_def, Option.some.injEq] at hpmem
    subst hpmem
    exact hmemory
  | postInit =>
    simp only [manageMemory, hthread, Option.some.injEq] at h
    subst h
    exact ⟨hs.consoles, hs.ready, hs.scheduler, hs.toCpu, hs.cpu, hs.fromCpu, hs.dispatch,
      hs.devices, hs.pageFaults, hs.toMemory, hs.fromMemory, trivial,
      fun _ => hs.new (Or.inl (by simp [hthread]))⟩
  | addReady pcb =>
    rw [hthread] at hmemory
    have hready := add_to_ready_settled cfg hp hs.ready hmemory
    simp only [manageMemory, hthread, Option.some.injEq] at h
    subst h
    obtain ⟨ready, rr, hadd⟩ := add_to_ready_frame cfg s pcb
    rw [hadd] at hready ⊢
    refine ⟨hs.consoles, hready, hs.scheduler, hs.toCpu, hs.cpu, hs.fromCpu, hs.dispatch,
      hs.devices, hs.pageFaults, hs.toMemory, hs.fromMemory, ?_, ?_⟩
    · cases cfg.algoritmoPlanificacion <;> trivial
    · rintro (hdone | hsem | hconsole)
      · cases halg : cfg.algoritmoPlanificacion <;> simp [halg] at hdone
      · exact hs.new (Or.inr (Or.inl hsem))
      · exact hs.new (Or.inr (Or.inr hconsole))
  | postReady | unlockPageFault =>
    simp only [manageMemory, hthread, Option.some.injEq] at h
    subst h
    refine ⟨hs.consoles, hs.ready, hs.scheduler, hs.toCpu, hs.cpu, hs.fromCpu, hs.dispatch,
      hs.devices, hs.pageFaults, hs.toMemory, hs.fromMemory, trivial, ?_⟩
    rintro (hdone | hsem | hconsole)
    · simp at hdone
    · exact hs.new (Or.inr (Or.inl hsem))
    · exact hs.new (Or.inr (Or.inr hconsole))

theorem resolve_page_fault_trail {i : ℕ} {p : PageFaultThread} (hp : Persistent S A)
    (hi : s.pageFaultThreads[i]? = some p) (hs : Trail S A s)
    (h : resolvePageFault s i p = some t) : Trail S A t := by
  have hfault := hs.pageFaults p (List.mem_of_getElem? hi)
  cases p with
  | lock pcb segmentNumber pageNumber =>
    simp only [resolvePageFault, Option.ite_none_left_eq_some, Option.some.injEq] at h
    obtain ⟨-, rfl⟩ := h
    refine ⟨hs.consoles, hs.ready, hs.scheduler, hs.toCpu, hs.cpu, hs.fromCpu, hs.dispatch,
      hs.devices, fun x hx => ?_, hs.toMemory, hs.fromMemory, hs.memory, hs.new⟩
    rcases List.mem_or_eq_of_mem_set hx with hx | rfl
    · exact hs.pageFaults x hx
    · exact hp.asking pcb _ _ _ rfl hfault
  | send pcb segmentNumber pageNumber =>
    simp only [resolvePageFault, Option.some.injEq] at h
    subst h
    refine ⟨hs.consoles, hs.ready, hs.scheduler, hs.toCpu, hs.cpu, hs.fromCpu, hs.dispatch,
      hs.devices, fun x hx => ?_, fun request hmem => ?_, hs.fromMemory, hs.memory, hs.new⟩
    · rcases List.mem_or_eq_of_mem_set hx with hx | rfl
      · exact hs.pageFaults x hx
      · trivial
    · rcases List.mem_append.mp hmem with hold | hnew
      · exact hs.toMemory request hold
      · obtain rfl := List.mem_singleton.mp hnew
        exact hfault
  | finished => simp [resolvePageFault] at h

theorem simulate_io_default_trail {i : ℕ} {d : Device} (hp : Persistent S A)
    (hd : s.devices[i]? = some d) (hs : Trail S A s) (h : simulateIoDefault cfg s i d = some t) :
    Trail S A t := by
  have hdevice := hs.devices d (List.mem_of_getElem? hd)
  cases hthread : d.thread with
  | wait =>
    simp only [simulateIoDefault, hthread, Option.ite_none_right_eq_some, Option.some.injEq] at h
    obtain ⟨-, rfl⟩ := h
    refine trail_device hs fun p hpmem => hdevice p ?_
    simpa [inDevice, hthread] using hpmem
  | removeTime =>
    simp only [simulateIoDefault, hthread] at h
    split at h
    next parameter rest hq =>
      simp only [Option.some.injEq] at h
      subst h
      refine trail_device hs fun p hpmem => hdevice p ?_
      simpa [inDevice, hthread, hq] using hpmem
    next => simp at h
  | removeProcess time =>
    simp only [simulateIoDefault, hthread] at h
    split at h
    next pcb rest hq =>
      simp only [Option.some.injEq] at h
      subst h
      refine trail_device hs fun p hpmem => hdevice p ?_
      simp only [inDevice, serving, hthread, hq, List.flatMap_cons, queuedItem, List.mem_append,
        List.mem_singleton] at hpmem ⊢
      tauto
    next => simp at h
  | serving time pcb =>
    have hpcb : S pcb := hdevice pcb (by simp [inDevice, hthread])
    have hready := add_to_ready_settled cfg hp hs.ready hpcb
    simp only [simulateIoDefault, hthread, Option.some.injEq] at h
    subst h
    apply trail_device
    · obtain ⟨ready, rr, hadd⟩ := add_to_ready_frame cfg s pcb
      rw [hadd] at hready ⊢
      exact ⟨hs.consoles, hready, hs.scheduler, hs.toCpu, hs.cpu, hs.fromCpu, hs.dispatch,
        hs.devices, hs.pageFaults, hs.toMemory, hs.fromMemory, hs.memory, hs.new⟩
    · intro p hpmem
      apply hdevice p
      simp only [inDevice, serving, List.append_nil, List.mem_append] at hpmem ⊢
      exact Or.inl hpmem
  | postReady =>
    simp only [simulateIoDefault, hthread, Option.some.injEq] at h
    subst h
    apply trail_device
    · exact ⟨hs.consoles, hs.ready, hs.scheduler, hs.toCpu, hs.cpu, hs.fromCpu, hs.dispatch,
        hs.devices, hs.pageFaults, hs.toMemory, hs.fromMemory, hs.memory, hs.new⟩
    · intro p hpmem
      apply hdevice p
      simpa [inDevice, hthread] using hpmem

/-- A turn of the loop that executes an instruction comes next. -/
def executes (s : System) : Bool :=
  match s.cpuThread with
  | .running _ _ => keepsRunning s.cpu
  | _ => false

theorem final_package_packed {pcb : Pcb} (h : S pcb) (stop : Stop) :
    Packed S A (finalPackage pcb stop) := by
  cases stop with
  | inputOuput device parameter =>
    simp only [finalPackage, sendPcbIoPackage]
    split
    · exact h
    · split <;> exact h
  | _ => exact h

/-- The package reports a page fault exactly when the flag is set. -/
theorem leave_process_packed {cpu cpu' : Cpu} {pcb : Pcb} {package : CpuPackage}
    (hexclusive : Exclusive cpu) (hkeep : keepsRunning cpu = false) (hs : Executed S A cpu pcb)
    (h : leaveProcess cpu pcb = (cpu', some package)) : Packed S A package := by
  unfold Executed at hs
  rcases hexclusive with ⟨hfault, hraised⟩ | ⟨hfault, stop, hraised⟩
  · rw [hfault, if_pos rfl] at hs
    rw [leave_process_sends cpu pcb none hraised hkeep] at h
    simp only [Prod.mk.injEq, Option.some.injEq, packageFor, returnedPackage, hfault, if_true] at h
    rw [← h.2]
    exact hs
  · simp only [hfault, Bool.false_eq_true, if_false] at hs
    rw [leave_process_sends cpu pcb stop hraised hkeep] at h
    simp only [Prod.mk.injEq, Option.some.injEq] at h
    rw [← h.2]
    cases stop with
    | none =>
      simp only [packageFor, returnedPackage, hfault, Bool.false_eq_true, if_false]
      exact hs
    | some stop => exact final_package_packed hs stop

theorem executed_saved (hp : Persistent S A) (cpu : Cpu) {pcb : Pcb} (h : Executed S A cpu pcb) :
    Executed S A cpu (saveContextPcb cpu pcb) := by
  unfold Executed at h ⊢
  by_cases hfault : cpu.pageFault
  · rw [if_pos hfault] at h ⊢
    exact hp.asking pcb _ _ _ rfl h
  · rw [if_neg hfault] at h ⊢
    exact hp.settled pcb _ rfl h

theorem process_dispatch_trail {answers : Answers} (hp : Persistent S A) (hflags : Flags s)
    (hs : Trail S A s) (hidle : executes s = false) (h : processDispatch cfg s answers = some t) :
    Trail S A t := by
  have hcpu := hs.cpu
  cases hthread : s.cpuThread with
  | receive =>
    have hto := hs.toCpu
    cases hq : s.toCpu with
    | nil => simp [processDispatch, hthread, hq] at h
    | cons sent rest =>
      obtain ⟨dispatch, pcb⟩ := sent
      simp only [processDispatch, hthread, hq, Option.some.injEq] at h
      simp only [Flags, hthread] at hflags
      rw [hq] at hto
      subst h
      refine ⟨hs.consoles, hs.ready, hs.scheduler, fun x hx => hto x (List.mem_cons_of_mem _ hx),
        ?_, hs.fromCpu, hs.dispatch, hs.devices, hs.pageFaults, hs.toMemory, hs.fromMemory,
        hs.memory, hs.new⟩
      show Executed S A (setRegisters s.cpu pcb) pcb
      simp only [Executed, setRegisters, hflags.2, Bool.false_eq_true, if_false]
      exact hto (dispatch, pcb) List.mem_cons_self
  | running dispatch pcb =>
    have hkeep : keepsRunning s.cpu = false := by simpa [executes, hthread] using hidle
    rw [hthread] at hcpu
    simp only [processDispatch, hthread, hkeep, Bool.false_eq_true, if_false, Option.some.injEq] at h
    subst h
    refine ⟨hs.consoles, hs.ready, hs.scheduler, hs.toCpu, ?_, hs.fromCpu, hs.dispatch, hs.devices,
      hs.pageFaults, hs.toMemory, hs.fromMemory, hs.memory, hs.new⟩
    exact executed_saved hp s.cpu hcpu
  | leaving dispatch pcb =>
    rw [hthread] at hcpu
    have hexclusive : Exclusive s.cpu ∧ keepsRunning s.cpu = false := by
      simpa only [Flags, hthread] using hflags
    obtain ⟨cpu, package, hpackage, -, -⟩ := leaving_flags hflags hthread
    simp only [processDispatch, hthread, hpackage, Option.some.injEq] at h
    subst h
    exact ⟨hs.consoles, hs.ready, hs.scheduler, hs.toCpu,
      leave_process_packed hexclusive.1 hexclusive.2 hcpu hpackage, hs.fromCpu, hs.dispatch,
      hs.devices, hs.pageFaults, hs.toMemory, hs.fromMemory, hs.memory, hs.new⟩
  | sending reply =>
    rw [hthread] at hcpu
    simp only [processDispatch, hthread, Option.some.injEq] at h
    subst h
    refine ⟨hs.consoles, hs.ready, hs.scheduler, hs.toCpu, trivial, fun r hr => ?_, hs.dispatch,
      hs.devices, hs.pageFaults, hs.toMemory, hs.fromMemory, hs.memory, hs.new⟩
    rcases List.mem_append.mp hr with hold | hnew
    · exact hs.fromCpu r hold
    · obtain rfl := List.mem_singleton.mp hnew
      exact hcpu

/-- The steps that depend neither on the memory module nor on an instruction. -/
def plain (s : System) : Event → Bool
  | .memoria _ => false
  | .processDispatch _ => !executes s
  | _ => true

theorem step_trail {e : Event} (hp : Persistent S A) (hsound : Sound cfg s) (hs : Trail S A s)
    (hplain : plain s e = true) (h : step cfg s e = some t) : Trail S A t := by
  cases e with
  | connect instructions segments =>
    obtain rfl := Option.some.inj h
    exact connect_trail instructions segments hs
  | console i value =>
    obtain ⟨c, hc, h⟩ := Option.bind_eq_some_iff.mp h
    exact consola_trail hc hp hs h
  | receiveConsole i =>
    obtain ⟨c, hc, h⟩ := Option.bind_eq_some_iff.mp h
    exact receive_console_trail hc hp hsound.balanced hs h
  | scheduleNextToRunning => exact schedule_next_to_running_trail hp hs h
  | manageDispatch => exact manage_dispatch_trail hp hs h
  | manageInterrupt =>
    obtain ⟨_, _, _, _, rfl⟩ := manage_interrupt_frame h
    exact ⟨hs.consoles, hs.ready, hs.scheduler, hs.toCpu, hs.cpu, hs.fromCpu, hs.dispatch,
      hs.devices, hs.pageFaults, hs.toMemory, hs.fromMemory, hs.memory, hs.new⟩
  | countQuantum expired =>
    obtain ⟨_, _, _, _, _, _, rfl⟩ := count_quantum_frame h
    exact ⟨hs.consoles, hs.ready, hs.scheduler, hs.toCpu, hs.cpu, hs.fromCpu, hs.dispatch,
      hs.devices, hs.pageFaults, hs.toMemory, hs.fromMemory, hs.memory, hs.new⟩
  | manageMemory => exact manage_memory_trail hp hsound.heads hs h
  | resolvePageFault i =>
    obtain ⟨p, hi, h⟩ := Option.bind_eq_some_iff.mp h
    exact resolve_page_fault_trail hp hi hs h
  | simulateIo i =>
    obtain ⟨d, hd, h⟩ := Option.bind_eq_some_iff.mp h
    exact simulate_io_default_trail hp hd hs h
  | processDispatch answers =>
    exact process_dispatch_trail hp hsound.flags hs (by simpa [plain] using hplain) h
  | processInterrupt =>
    obtain ⟨_, _, -, rfl⟩ := process_interrupt_cases h
    refine ⟨hs.consoles, hs.ready, hs.scheduler, hs.toCpu, ?_, hs.fromCpu, hs.dispatch,
      hs.devices, hs.pageFaults, hs.toMemory, hs.fromMemory, hs.memory, hs.new⟩
    have hcpu := hs.cpu
    show OnCpu S A { s.cpu with checkInterruption := true } s.cpuThread
    cases hthread : s.cpuThread <;> rw [hthread] at hcpu <;> exact hcpu
  | memoria segments => simp [plain] at hplain

end Threads

end Geck.PcbTrail
