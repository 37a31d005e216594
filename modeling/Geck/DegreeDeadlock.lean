import Geck.Standstill

/-!
# The deadlock of admission

The thread that serves a console's I/O also admits processes. When it waits for
the degree it cannot take back the process that holds the degree. The deadlock
is never left, and a degree of one for each console rules it out.
-/

set_option autoImplicit false

namespace Geck.DegreeDeadlock
open Geck.LabelledRuns Geck.Tallies Geck.BlockStore Geck.SharedPcb Geck.MemoryHandlers
open Geck.CpuTranslation Geck.CpuExecution Geck.KernelState Geck.KernelThreads Geck.KernelFrames
open Geck.KernelLedger Geck.KernelLaws Geck.KernelInvariant Geck.KernelSoundness
open Geck.ConsoleDialogue Geck.DeviceQueues Geck.MemoryDegree Geck.QuantumHandshake
open Geck.SharedSections Geck.Standstill

section Held
variable {cfg : KernelConfig} {s t : System} (hs : Kept cfg s) (hd : AdmissionDeadlock cfg s)
include hs hd

/-- The thread that waits for the degree is inside the section, so it is the only one. -/
theorem deadlock_section {c : Console} (hc : c ∈ s.consoles) (hne : c.thread ≠ .waitGrado) :
    scheduling c.thread = 0 ∧ s.semScheduleReady = 0 := by
  obtain ⟨w, hw, hthread⟩ := hd.waits
  obtain ⟨i, hi⟩ := List.mem_iff_getElem?.mp hw
  obtain ⟨j, hj⟩ := List.mem_iff_getElem?.mp hc
  have hij : i ≠ j := by
    rintro rfl
    obtain rfl := Option.some.inj (hi.symm.trans hj)
    exact hne hthread
  have hin : scheduling w.thread = 1 := by simp [hthread]
  refine ⟨scheduling_alone hs.sound.balanced hij hi hj hin, ?_⟩
  have hle := le_total (f := fun c : Console => scheduling c.thread)
    (fun c => by cases h : c.thread <;> simp) hw
  have htokens := hs.sound.balanced.schedule
  unfold scheduleTokens at htokens
  omega

theorem deadlock_copies : copies s = [] ∧ initDone s.threadMemory = 0 := by
  have hnone : total (fun c => waitsInit c.thread) s.consoles = 0 := by
    apply total_zero
    intro c hc
    by_cases hne : c.thread = .waitGrado
    · simp [hne]
    · have := (deadlock_section hs hd hc hne).1
      cases hthread : c.thread <;> simp [hthread] at this ⊢
  have hinit := hs.sound.balanced.init
  have hdone : 0 ≤ initDone s.threadMemory := by cases s.threadMemory <;> simp
  unfold initTokens at hinit
  rw [hnone] at hinit
  exact ⟨List.length_eq_zero_iff.mp (by omega), by omega⟩

omit hs in
/-- No term of what is owed can be positive when nothing is. -/
theorem deadlock_owes : (∀ c ∈ s.consoles, consoleOwes c.thread = 0) ∧ memoryOwes s.threadMemory = 0 ∧
    ∀ d ∈ s.devices, deviceOwes d.thread = 0 := by
  have hconsole (c : Console) : 0 ≤ consoleOwes c.thread := by cases h : c.thread <;> simp
  have hdevice (d : Device) : 0 ≤ deviceOwes d.thread := by cases h : d.thread <;> simp
  have hmemory : 0 ≤ memoryOwes s.threadMemory := by cases s.threadMemory <;> simp
  have hdispatch : 0 ≤ dispatchOwes s.threadDispatch := by cases s.threadDispatch <;> simp
  have htotal := total_nonneg hconsole s.consoles
  have htotal' := total_nonneg hdevice s.devices
  have howed := hd.rest.owed
  unfold KernelLedger.owed at howed
  refine ⟨fun c hc => ?_, by omega, fun d hmem => ?_⟩
  · have := le_total hconsole hc
    have := hconsole c
    omega
  · have := le_total hdevice hmem
    have := hdevice d
    omega

/-- The threads of the consoles can only begin to admit. -/
theorem deadlock_console {i : ℕ} {c : Console} (hc : s.consoles[i]? = some c)
    (h : receiveConsole cfg s i c = some t) :
    (∃ instructions segments rest, c.thread = .receive ∧
      c.toKernel = .initProcess instructions segments::rest) ∨ ∃ pcb, c.thread = .created pcb := by
  have hmem := List.mem_of_getElem? hc
  have howes := (deadlock_owes hd).1 c hmem
  have hheld := hd.held c hmem
  by_cases hgrado : c.thread = .waitGrado
  · simp [receiveConsole, scheduleNextToReady, hgrado, hd.degree] at h
  obtain ⟨hsection, hschedule⟩ := deadlock_section hs hd hmem hgrado
  cases hthread : c.thread with
  | receive =>
    left
    cases hk : c.toKernel with
    | nil => simp [receiveConsole, hthread, hk] at h
    | cons request rest =>
      cases request with
      | initProcess instructions segments => exact ⟨instructions, segments, rest, rfl, rfl⟩
      | ioScreenResponse pcb | ioKeyboardResponse pcb =>
        have hwaits := (hheld pcb (by simp [withConsole, hk])).2
        simp [hthread] at hwaits
  | created pcb => exact Or.inr ⟨pcb, rfl⟩
  | waitScheduleReady => simp [receiveConsole, hthread, hschedule] at h
  | returned pcb =>
    have hwaits := (hheld pcb (by simp [withConsole, hthread])).2
    simp [hthread] at hwaits
  | postReturned => simp [hthread] at howes
  | waitGrado => exact absurd hthread hgrado
  | _ => simp [hthread] at hsection

/-- No device holds a process, so none of them moves. -/
theorem deadlock_device {i : ℕ} {d : Device} (hi : s.devices[i]? = some d) :
    simulateIoDefault cfg s i d = none := by
  have hmem := List.mem_of_getElem? hi
  have howes := (deadlock_owes hd).2.2 d hmem
  have hempty : inDevice d = [] := List.flatMap_eq_nil_iff.mp hd.rest.device d hmem
  obtain ⟨hlist, hserving⟩ := List.append_eq_nil_iff.mp hempty
  obtain ⟨pairs, front, tail, hqueue, hfront, -, hlength⟩ := hs.sound.devices i d hi
  simp only [hqueue, List.flatMap_append, List.append_eq_nil_iff] at hlist
  have hpairs : pairs = [] := by
    cases pairs with
    | nil => rfl
    | cons p pairs => simp at hlist
  rw [hpairs, List.length_nil] at hlength
  cases hthread : d.thread with
  | wait =>
    have hsem : d.semDevices = 0 := by omega
    simp [simulateIoDefault, hthread, hsem]
  | removeTime =>
    rw [hthread] at hlength
    simp only [begun] at hlength
    omega
  | removeProcess time =>
    rw [hthread] at hfront
    obtain ⟨pcb, rfl⟩ := hfront
    simp at hlist
  | serving time pcb => simp [hthread] at hserving
  | postReady => simp [hthread] at howes

omit hs in
theorem deadlock_dispatch : manageDispatch cfg s = none := by
  have hcpu := hd.rest.cpu
  simp only [processesAt, List.append_eq_nil_iff, List.map_eq_nil_iff] at hcpu
  simp [manageDispatch, hd.rest.dispatch, hcpu.1.2]

omit hs in
theorem deadlock_cpu (answers : Answers) : processDispatch cfg s answers = none := by
  have hcpu := hd.rest.cpu
  simp only [processesAt, List.append_eq_nil_iff, List.map_eq_nil_iff] at hcpu
  have hthread : s.cpuThread = .receive := by
    have hexecuting := hcpu.1.1.2
    cases h : s.cpuThread <;> simp [h] at hexecuting ⊢
  simp [processDispatch, hthread, hcpu.1.1.1.2]

/-- Memory has nothing but ends left to serve, and nothing to answer. -/
theorem deadlock_memory : s.fromMemory = [] ∧ replacement s.threadMemory = [] ∧
    faultResolved s.threadMemory = [] ∧ ∀ request ∈ s.toMemory, memoryAnswer [] request = [] := by
  have hcopies := (deadlock_copies hs hd).1
  have hfaults := hd.rest.pageFault
  simp only [copies, processesAt, List.append_eq_nil_iff] at hcopies hfaults
  refine ⟨?_, hcopies.2, hfaults.2, fun request hmem => ?_⟩
  · cases hq : s.fromMemory with
    | nil => rfl
    | cons response rest =>
      simp only [hq, List.flatMap_cons, List.append_eq_nil_iff] at hcopies hfaults
      cases response with
      | initProcessStructuresMemoryResponse pcb => simp at hcopies
      | responsePageFault pcb => simp at hfaults
  · have hinit := List.flatMap_eq_nil_iff.mp hcopies.1.1 request hmem
    have hfault := List.flatMap_eq_nil_iff.mp hfaults.1.1.2 request hmem
    cases request with
    | initProcessStructuresMemory pcb => simp at hinit
    | requestPageFault pcb segment page => simp at hfault
    | endStructures pcb => rfl

omit hs in
/-- A step that moves one console and nothing that the deadlock is about. -/
theorem deadlock_of_set {i : ℕ} {c c' : Console} (hc : s.consoles[i]? = some c)
    (hconsoles : t.consoles = s.consoles.set i c') (hwith : withConsole c' = withConsole c)
    (hgrado : c.thread = .waitGrado → c'.thread = .waitGrado)
    (hheld : ∀ pcb ∈ withConsole c, pcb ∈ c'.toKernel.flatMap answered ∧
      (c'.thread = .waitGrado ∨ c'.thread = .waitScheduleReady))
    (hdegree : t.semGradoMultiprogamacion = s.semGradoMultiprogamacion) (hrest : Resting t) :
    AdmissionDeadlock cfg t := by
  refine ⟨hrest, ?_, hdegree.trans hd.degree, ?_, ?_⟩
  · obtain ⟨w, hw, hthread⟩ := hd.waits
    obtain ⟨j, hj⟩ := List.mem_iff_getElem?.mp hw
    have hlt := (List.getElem?_eq_some_iff.mp hc).1
    by_cases hij : i = j
    · subst hij
      obtain rfl := Option.some.inj (hc.symm.trans hj)
      refine ⟨c', ?_, hgrado hthread⟩
      rw [hconsoles]
      exact List.mem_iff_getElem?.mpr ⟨i, List.getElem?_set_self hlt⟩
    · refine ⟨w, ?_, hthread⟩
      rw [hconsoles]
      exact List.mem_iff_getElem?.mpr ⟨j, by rw [List.getElem?_set_ne hij, hj]⟩
  · have hsame (l : List Console) : ((l.flatMap withConsole).length : ℤ) =
        total (fun c => ((withConsole c).length : ℤ)) l := by
      simp [total, List.length_flatMap, Function.comp_def]
    have hfull : ((s.consoles.flatMap withConsole).length : ℤ) = cfg.gradoMaxMultiprogramacion := by
      exact_mod_cast hd.full
    have : ((t.consoles.flatMap withConsole).length : ℤ) = cfg.gradoMaxMultiprogramacion := by
      rw [hconsoles, hsame, total_set _ hc, hwith, ← hsame, hfull]
      ring
    exact_mod_cast this
  · intro d hmem pcb hpcb
    rw [hconsoles] at hmem
    rcases List.mem_or_eq_of_mem_set hmem with hold | rfl
    · exact hd.held d hold pcb hpcb
    · exact hheld pcb (hwith ▸ hpcb)

omit hs in
/-- A step that moves no console. -/
theorem deadlock_of_same (hconsoles : t.consoles = s.consoles)
    (hdegree : t.semGradoMultiprogamacion = s.semGradoMultiprogamacion) (hrest : Resting t) :
    AdmissionDeadlock cfg t := by
  refine ⟨hrest, by rw [hconsoles]; exact hd.waits, hdegree.trans hd.degree, ?_,
    by rw [hconsoles]; exact hd.held⟩
  have hfull := hd.full
  simpa only [processesAt, hconsoles] using hfull

omit hs in
theorem deadlock_connect (instructions segments : List String) :
    AdmissionDeadlock cfg (connect s instructions segments) := by
  obtain ⟨hready, hcpu, hdevice, hfault, hscheduler, hdispatch, howed⟩ := hd.rest
  refine ⟨⟨?_, hcpu, hdevice, hfault, hscheduler, hdispatch, ?_⟩, ?_, hd.degree, ?_, ?_⟩
  · simpa [processesAt, connect] using hready
  · simpa [KernelLedger.owed, connect] using howed
  · obtain ⟨c, hc, hthread⟩ := hd.waits
    exact ⟨c, List.mem_append_left _ hc, hthread⟩
  · simpa [processesAt, connect, withConsole] using hd.full
  · intro c hc pcb hpcb
    rcases List.mem_append.mp hc with hold | hnew
    · exact hd.held c hold pcb hpcb
    · obtain rfl := List.mem_singleton.mp hnew
      simp [withConsole] at hpcb

/-- The thread of a console begins to admit: it takes its program and enqueues its process. -/
theorem deadlock_receive_console {i : ℕ} {c : Console} (hc : s.consoles[i]? = some c)
    (h : receiveConsole cfg s i c = some t) : AdmissionDeadlock cfg t := by
  obtain ⟨hready, hcpu, hdevice, hfault, hscheduler, hdispatch, howed⟩ := hd.rest
  have hmem := List.mem_of_getElem? hc
  have hadmitting (thread : ConsoleThread) (toKernel : List ConsoleRequest)
      (hnone : admitting thread = []) : (s.consoles.set i { c with
        thread := thread, toKernel := toKernel }).flatMap (fun c => admitting c.thread) = [] := by
    simp only [processesAt, List.append_eq_nil_iff] at hready
    have hall := List.flatMap_eq_nil_iff.mp hready.2
    apply List.flatMap_eq_nil_iff.mpr
    intro d hd
    rcases List.mem_or_eq_of_mem_set hd with hold | rfl
    · exact hall d hold
    · exact hnone
  rcases deadlock_console hs hd hc h with ⟨instructions, segments, rest, hthread, hk⟩ | ⟨pcb, hthread⟩
  · simp only [receiveConsole, hthread, hk, Option.some.injEq] at h
    subst h
    refine deadlock_of_set hd hc rfl (by simp [withConsole, hthread, hk]) (by simp [hthread])
      (fun p hp => ?_) rfl ⟨?_, hcpu, hdevice, hfault, hscheduler, hdispatch, ?_⟩
    · have hwaits := (hd.held c hmem p hp).2
      simp [hthread] at hwaits
    · simp only [processesAt, List.append_eq_nil_iff] at hready
      simp [processesAt, System.setConsole, hready, hadmitting]
    · unfold KernelLedger.owed at howed ⊢
      simpa [System.setConsole, total_set _ hc, hthread] using howed
  · simp only [receiveConsole, hthread, Option.some.injEq] at h
    subst h
    refine deadlock_of_set hd hc rfl (by simp [withConsole, hthread]) (by simp [hthread])
      (fun p hp => ?_) rfl ⟨?_, hcpu, hdevice, hfault, hscheduler, hdispatch, ?_⟩
    · have hwaits := (hd.held c hmem p hp).2
      simp [hthread] at hwaits
    · simp only [processesAt, List.append_eq_nil_iff] at hready
      simpa [processesAt, System.setConsole, hready] using hadmitting .waitScheduleReady c.toKernel rfl
    · unfold KernelLedger.owed at howed ⊢
      simpa [System.setConsole, total_set _ hc, hthread] using howed

/-- A console with an I/O that is over is asked nothing, so it can only read its end. -/
theorem deadlock_consola {i : ℕ} {c : Console} {value : UInt32} (hc : s.consoles[i]? = some c)
    (h : consola s i c value = some t) : AdmissionDeadlock cfg t := by
  obtain ⟨hready, hcpu, hdevice, hfault, hscheduler, hdispatch, howed⟩ := hd.rest
  have hmem := List.mem_of_getElem? hc
  have hone := (conversation_of_dialogue hs.sound.balanced hs.dialogue hc).one
  have hnone : c.toConsole.flatMap requested = [] := by
    by_contra hne
    obtain ⟨pcb, hpcb⟩ := List.exists_mem_of_ne_nil _ hne
    obtain ⟨message, hmessage, -⟩ := List.mem_flatMap.mp hpcb
    obtain ⟨hanswer, -⟩ := hd.held c hmem pcb (by simp only [withConsole, List.mem_append]; tauto)
    obtain ⟨request, hrequest, -⟩ := List.mem_flatMap.mp hanswer
    have := List.length_pos_of_mem hmessage
    have := List.length_pos_of_mem hrequest
    omega
  have hresting (c' : Console) (hthread : c'.thread = c.thread) :
      Resting { s with consoles := s.consoles.set i c' } := by
    refine ⟨?_, hcpu, hdevice, hfault, hscheduler, hdispatch, ?_⟩
    · have hthreads := threads_same (s := s) hc hthread
      have hsame (l : List Console) : l.flatMap (fun c => admitting c.thread) =
          (l.map Console.thread).flatMap admitting := by simp [List.flatMap_map]
      simp only [processesAt, hsame] at hready ⊢
      rwa [show (s.consoles.set i c').map Console.thread = s.consoles.map Console.thread from hthreads]
    · unfold KernelLedger.owed at howed ⊢
      simpa [total_set _ hc, hthread] using howed
  cases hk : c.toConsole with
  | nil =>
    cases hended : c.ended <;> simp [consola, hended, hk] at h
  | cons message rest =>
    simp only [hk, List.flatMap_cons, List.append_eq_nil_iff] at hnone
    cases message with
    | io package => simp at hnone
    | endConsole | endConsoleSegFault =>
      cases hended : c.ended with
      | true => simp [consola, hended] at h
      | false =>
        simp only [consola, hended, hk, Bool.false_eq_true, if_false, Option.some.injEq] at h
        subst h
        exact deadlock_of_set hd hc rfl (by simp [withConsole, hk]) (fun hthread => hthread)
          (hd.held c hmem) rfl (hresting _ rfl)

theorem step_deadlock {e : Event} (h : step cfg s e = some t) :
    AdmissionDeadlock cfg t ∧ t.listExit = s.listExit ∧ t.sent = s.sent := by
  obtain ⟨hready, hcpu, hdevice, hfault, hscheduler, hdispatch, howed⟩ := hd.rest
  obtain ⟨hfrom, hreplaced, hresolved, hanswers⟩ := deadlock_memory hs hd
  cases e with
  | connect instructions segments =>
    obtain rfl := Option.some.inj h
    exact ⟨deadlock_connect hd instructions segments, rfl, rfl⟩
  | console i value =>
    obtain ⟨c, hc, h⟩ := Option.bind_eq_some_iff.mp h
    have hnext := deadlock_consola hs hd hc h
    obtain ⟨_, _, _, _, -, rfl⟩ := consola_frame h
    exact ⟨hnext, rfl, rfl⟩
  | receiveConsole i =>
    obtain ⟨c, hc, h⟩ := Option.bind_eq_some_iff.mp h
    have hnext := deadlock_receive_console hs hd hc h
    obtain ⟨_, _, _, _, _, _, _, _, _, _, _, _, rfl⟩ := receive_console_frame h
    exact ⟨hnext, rfl, rfl⟩
  | scheduleNextToRunning =>
    simp [step, scheduleNextToRunning, hscheduler] at h
  | manageDispatch =>
    rw [show step cfg s .manageDispatch = none from deadlock_dispatch hd] at h
    cases h
  | manageInterrupt =>
    obtain ⟨_, _, _, _, rfl⟩ := manage_interrupt_frame h
    exact ⟨deadlock_of_same hd rfl rfl ⟨hready, hcpu, hdevice, hfault, hscheduler, hdispatch,
      howed⟩, rfl, rfl⟩
  | countQuantum expired =>
    obtain ⟨_, _, _, _, _, _, rfl⟩ := count_quantum_frame h
    exact ⟨deadlock_of_same hd rfl rfl ⟨hready, hcpu, hdevice, hfault, hscheduler, hdispatch,
      howed⟩, rfl, rfl⟩
  | manageMemory =>
    have hdone := (deadlock_copies hs hd).2
    have hpost := (deadlock_owes hd).2.1
    cases hthread : s.threadMemory with
    | receive => simp [step, manageMemory, hthread, hfrom] at h
    | replaceNew pcb => simp [hthread] at hreplaced
    | postInit => simp [hthread] at hdone
    | addReady pcb => simp [hthread] at hresolved
    | postReady => simp [hthread] at hpost
    | unlockPageFault =>
      simp only [step, manageMemory, hthread, Option.some.injEq] at h
      subst h
      refine ⟨deadlock_of_same hd rfl rfl ⟨hready, hcpu, hdevice, ?_, hscheduler, hdispatch, ?_⟩,
        rfl, rfl⟩
      · simpa [processesAt, hthread] using hfault
      · unfold KernelLedger.owed at howed ⊢
        simpa [hthread] using howed
  | resolvePageFault i =>
    obtain ⟨p, hp, h⟩ := Option.bind_eq_some_iff.mp h
    have hnone : waitingFault p = [] := by
      simp only [processesAt, List.append_eq_nil_iff] at hfault
      exact List.flatMap_eq_nil_iff.mp hfault.1.1.1 p (List.mem_of_getElem? hp)
    cases p with
    | finished => simp [resolvePageFault] at h
    | _ => simp at hnone
  | simulateIo i =>
    obtain ⟨d, hi, h⟩ := Option.bind_eq_some_iff.mp h
    rw [deadlock_device hs hd hi] at h
    cases h
  | processDispatch answers =>
    rw [show step cfg s (.processDispatch answers) = none from deadlock_cpu hd answers] at h
    cases h
  | processInterrupt =>
    obtain ⟨_, _, -, rfl⟩ := process_interrupt_cases h
    exact ⟨deadlock_of_same hd rfl rfl ⟨hready, hcpu, hdevice, hfault, hscheduler, hdispatch,
      howed⟩, rfl, rfl⟩
  | memoria segments =>
    obtain ⟨request, rest, hq, rfl⟩ := memoria_cases h
    have hanswer : memoryAnswer segments request = [] := by
      have := hanswers request (by simp [hq])
      cases request <;> simp [memoryAnswer] at this ⊢
    refine ⟨deadlock_of_same hd rfl rfl ⟨hready, hcpu, hdevice, ?_, hscheduler, hdispatch, howed⟩,
      rfl, rfl⟩
    simp only [processesAt, hq, List.flatMap_cons, List.append_eq_nil_iff] at hfault
    simp [processesAt, hanswer, hfault]

end Held

section Degree
variable {cfg : KernelConfig} {s : System}

theorem total_of_console (i : ℕ) (l : List (ℤ × ℤ)) :
    total (ofConsole i) l = (l.map Prod.snd).count (i : ℤ) := by
  induction l with
  | nil => rfl
  | cons e l ih =>
    rw [total_cons, ih, List.map_cons, List.count_cons]
    by_cases he : e.2 = i
    · simp [ofConsole, he, add_comm]
    · simp [ofConsole, he]

/-- Each console sends one program. -/
theorem created_le_consoles (hs : Kept cfg s) : s.created.length ≤ s.consoles.length := by
  have hsockets : ∀ e ∈ s.created, ∃ i : ℕ, i < s.consoles.length ∧ e.2 = i := by
    intro e he
    obtain ⟨i, hi, hsocket⟩ := hs.sound.registered.sockets e he
    exact ⟨i, by simpa [threads] using hi, hsocket⟩
  have hnodup : (s.created.map Prod.snd).Nodup := by
    apply List.nodup_iff_count_le_one.mpr
    intro socket
    by_cases hmem : socket ∈ s.created.map Prod.snd
    · obtain ⟨e, he, rfl⟩ := List.mem_map.mp hmem
      obtain ⟨i, hi, hsocket⟩ := hsockets e he
      have hborn := (hs.dialogue.consoles i _ (List.getElem?_eq_getElem hi)).born
      have := program_nonneg s.consoles[i].toKernel
      rw [total_of_console] at hborn
      rw [hsocket]
      omega
    · rw [List.count_eq_zero_of_not_mem hmem]
      exact Nat.zero_le 1
  have hsubset : s.created.map Prod.snd ⊆ (List.range s.consoles.length).map fun i : ℕ => (i : ℤ) := by
    intro socket hmem
    obtain ⟨e, he, rfl⟩ := List.mem_map.mp hmem
    obtain ⟨i, hi, hsocket⟩ := hsockets e he
    exact List.mem_map.mpr ⟨i, List.mem_range.mpr hi, hsocket.symm⟩
  simpa using (hnodup.subperm hsubset).length_le

end Degree

/-- Once the threads that admit wait for the degree that finished I/O holds, no process is
dispatched and none ends, whatever is connected, typed or served from then on. -/
theorem admission_deadlock_lasts (cfg : KernelConfig) (time : TimeVal) (es : List Event) (s : System)
    (h : run (step cfg) (boot cfg time) es = some s) (hdead : AdmissionDeadlock cfg s)
    (later : List Event) (u : System) (hlater : run (step cfg) s later = some u) :
    AdmissionDeadlock cfg u ∧ u.listExit = s.listExit ∧ u.sent = s.sent := by
  have hkept : Kept cfg s := invariant_run (step cfg) (Kept cfg) (fun _ _ _ hs ht => step_kept hs ht)
    es _ s (boot_kept cfg time) h
  have hheld := invariant_run (step cfg)
    (fun t => Kept cfg t ∧ AdmissionDeadlock cfg t ∧ t.listExit = s.listExit ∧ t.sent = s.sent)
    (fun t e t' ht hstep => by
      obtain ⟨hkept, hdead, hexit, hsent⟩ := ht
      obtain ⟨hnext, hexit', hsent'⟩ := step_deadlock hkept hdead hstep
      exact ⟨step_kept hkept hstep, hnext, hexit'.trans hexit, hsent'.trans hsent⟩)
    later s u ⟨hkept, hdead, rfl, rfl⟩ hlater
  exact hheld.2

theorem admission_deadlock_lasts_crossed :
    run (step oneProcess) crossed [Event.connect ["EXIT"] ["16"], .receiveConsole 2,
        .receiveConsole 2] = some (reached (step oneProcess) crossed
          [Event.connect ["EXIT"] ["16"], .receiveConsole 2, .receiveConsole 2]) ∧
      AdmissionDeadlock oneProcess (reached (step oneProcess) crossed
        [Event.connect ["EXIT"] ["16"], .receiveConsole 2, .receiveConsole 2]) := by
  have hlater : run (step oneProcess) crossed [Event.connect ["EXIT"] ["16"], .receiveConsole 2,
      .receiveConsole 2] = some (reached (step oneProcess) crossed
        [Event.connect ["EXIT"] ["16"], .receiveConsole 2, .receiveConsole 2]) :=
    run_reached _ _ _ (by decide +kernel)
  exact ⟨hlater, (admission_deadlock_lasts oneProcess midnight crossedRun crossed
    (run_reached _ _ _ (by decide +kernel)) (by decide +kernel) _ _ hlater).1⟩

end Geck.DegreeDeadlock
