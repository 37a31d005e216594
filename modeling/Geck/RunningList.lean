import Geck.KernelSoundness

/-!
# What RUNNING and BLOCKED list

RUNNING lists the process of the dispatch under way and, before it, the one of
the package that is being handled, until a case of I/O comes to its end and
leaves its process listed.
-/

set_option autoImplicit false

namespace Geck.RunningList
open Geck.LabelledRuns Geck.SharedPcb Geck.CpuTranslation Geck.CpuExecution
open Geck.KernelState Geck.KernelThreads Geck.KernelFrames Geck.KernelLedger Geck.KernelLaws
open Geck.KernelInvariant Geck.KernelSoundness

def pids (l : List Pcb) : List ℤ := l.map Pcb.processId

@[simp] theorem pids_nil : pids [] = [] := rfl

@[simp] theorem pids_cons (pcb : Pcb) (l : List Pcb) : pids (pcb::l) = pcb.processId::pids l := rfl

@[simp] theorem pids_append (l l' : List Pcb) : pids (l++l') = pids l++pids l' := List.map_append

def announced : ShortTermScheduler → List Pcb
  | .send pcb _ => [pcb]
  | _ => []

/-- The process that the CPU executes, or has been or is being sent, or has sent back. -/
def withCpu (s : System) : List Pcb :=
  announced s.shortTermScheduler++s.toCpu.map Prod.snd++executing s.cpuThread++
    s.fromCpu.map fun reply => packagePcb reply.package

/-- The process whose package `manage_dispatch` removes a PCB of RUNNING for. -/
def removing : ThreadDispatch → List ℤ
  | .removeRunning package => [(packagePcb package).processId]
  | _ => []

/-- The two lists between the handling of two packages of the CPU, and what each
`list_remove` of RUNNING finds at position 0. -/
structure ListsTruthful (s : System) : Prop where
  running : s.threadDispatch = .receive →
    pids s.listRunning = pids (withCpu s) ∧ s.listRunning.length ≤ 1
  blocked : s.threadDispatch = .receive →
    (pids s.listBlocked).Perm (pids (processesAt s .device))
  removed : ∀ pid ∈ removing s.threadDispatch, (pids s.listRunning).head? = some pid

theorem lists_truthful_iff_fields (s : System) : ListsTruthful s ↔
    (s.threadDispatch = .receive →
      (pids s.listRunning = pids (withCpu s) ∧ s.listRunning.length ≤ 1) ∧
        (pids s.listBlocked).Perm (pids (processesAt s .device))) ∧
      ∀ pid ∈ removing s.threadDispatch, (pids s.listRunning).head? = some pid :=
  ⟨fun h => ⟨fun hthread => ⟨h.running hthread, h.blocked hthread⟩, h.removed⟩,
    fun h => ⟨fun hthread => (h.1 hthread).1, fun hthread => (h.1 hthread).2, h.2⟩⟩

instance (s : System) : Decidable (ListsTruthful s) :=
  decidable_of_iff' _ (lists_truthful_iff_fields s)

/-- The last step of the three cases of I/O. -/
def endsIo : ThreadDispatch → Bool
  | .sendConsole _ => true
  | .postDevice _ => true
  | _ => false

def EndsNoIo (s : System) : Event → Prop
  | .manageDispatch => endsIo s.threadDispatch = false
  | _ => True

instance (s : System) (e : Event) : Decidable (EndsNoIo s e) :=
  match e with
  | .manageDispatch => inferInstanceAs (Decidable (_ = _))
  | .connect _ _ | .console _ _ | .receiveConsole _ | .scheduleNextToRunning | .processInterrupt
  | .manageInterrupt | .countQuantum _ | .manageMemory | .resolvePageFault _ | .simulateIo _
  | .processDispatch _ | .memoria _ => isTrue trivial

/-- The process of the package under way, while RUNNING still lists it. -/
def Listed : ThreadDispatch → List ℤ → Prop
  | .postFree package, listed => listed = [(packagePcb package).processId]
  | .postGrado package, listed => listed = [(packagePcb package).processId]
  | .lockOut package, listed => listed = [(packagePcb package).processId]
  | .setFlag package, listed => listed = [(packagePcb package).processId]
  | .unlockOut package, listed => listed = [(packagePcb package).processId]
  | .removeRunning package, listed => listed = [(packagePcb package).processId]
  | .sendConsole package, listed => listed = [(packagePcb package).processId]
  | .addBlocked pcb _ _, listed => listed = [pcb.processId]
  | .addTime pcb _ _, listed => listed = [pcb.processId]
  | .addProcess pcb _, listed => listed = [pcb.processId]
  | .postDevice _, listed => ∃ pid, listed = [pid]
  | _, listed => listed = []

/-- `manage_dispatch` has listed a process in BLOCKED and not left the case. -/
def blocking : ThreadDispatch → Bool
  | .addTime _ _ _ => true
  | .addProcess _ _ => true
  | .postDevice _ => true
  | _ => false

/-- The lists before the first case of I/O comes to its end. -/
structure Unended (s : System) : Prop where
  running : ∃ listed, Listed s.threadDispatch listed ∧ pids s.listRunning = listed++pids (withCpu s)
  waiting : ∀ d ∈ s.devices, d.semDevices = 0 ∧ d.thread = .wait
  blocked : blocking s.threadDispatch = false →
    s.listBlocked = [] ∧ ∀ d ∈ s.devices, d.listProcesses = []
  attached : ∀ i, s.threadDispatch = .postDevice i → i < s.devices.length

section Steps
variable {cfg : KernelConfig} {s t : System}

theorem with_cpu_length (hb : Balanced cfg s) : (withCpu s).length ≤ 1 := by
  have hcpu := hb.cpu
  have hannounced : ((announced s.shortTermScheduler).length : ℤ) ≤ holdsCpu s.shortTermScheduler := by
    cases s.shortTermScheduler <;> simp [announced]
  have hexecuting : ((executing s.cpuThread).length : ℤ) ≤ busy s.cpuThread := by
    cases s.cpuThread <;> simp
  have hreceived : 0 ≤ received s.threadDispatch := by cases s.threadDispatch <;> simp
  unfold cpuTokens outstanding at hcpu
  simp only [withCpu, List.length_append, List.length_map]
  omega

theorem unended_of_same (hs : Unended s) (hthread : t.threadDispatch = s.threadDispatch)
    (hrunning : t.listRunning = s.listRunning) (hblocked : t.listBlocked = s.listBlocked)
    (hdevices : t.devices = s.devices) (hcpu : pids (withCpu t) = pids (withCpu s)) :
    Unended t where
  running := by
    rw [hthread, hrunning, hcpu]
    exact hs.running
  waiting := by
    rw [hdevices]
    exact hs.waiting
  blocked := by
    rw [hthread, hblocked, hdevices]
    exact hs.blocked
  attached := by
    rw [hthread, hdevices]
    exact hs.attached

theorem schedule_next_to_running_unended (hb : Balanced cfg s) (hs : Unended s)
    (h : scheduleNextToRunning cfg s = some t) : Unended t := by
  cases hthread : s.shortTermScheduler with
  | addRunning pcb timed =>
    obtain ⟨hto, hcpu, hfrom⟩ := holds_cpu_idle hb (by simp [hthread])
    simp only [scheduleNextToRunning, hthread, Option.some.injEq] at h
    subst h
    obtain ⟨listed, hlisted, hrunning⟩ := hs.running
    refine ⟨⟨listed, hlisted, ?_⟩, hs.waiting, hs.blocked, hs.attached⟩
    simp only [withCpu, hthread, announced, hto, hcpu, hfrom] at hrunning
    simp [withCpu, announced, hto, hcpu, hfrom, hrunning, changePcbStateTo]
  | send pcb timed =>
    obtain ⟨hto, hcpu, hfrom⟩ := holds_cpu_idle hb (by simp [hthread])
    simp only [scheduleNextToRunning, hthread, Option.some.injEq] at h
    subst h
    refine unended_of_same hs rfl rfl rfl rfl ?_
    have hsent : announced (if timed then ShortTermScheduler.postBeggin ⟨s.sent, timed⟩
        else .setUltimo timed) = [] := by
      split <;> rfl
    simp only [withCpu, hsent]
    simp [announced, hthread, hto, hcpu, hfrom]
  | _ =>
    simp only [scheduleNextToRunning, hthread] at h
    repeat' split at h
    all_goals simp only [Option.some.injEq, reduceCtorEq] at h
    all_goals subst h
    all_goals refine unended_of_same hs rfl rfl rfl rfl ?_
    all_goals simp only [withCpu, announced, hthread]

theorem process_dispatch_unended {answers : Answers} (hsound : Sound cfg s) (hs : Unended s)
    (h : processDispatch cfg s answers = some t) : Unended t := by
  have hlength := with_cpu_length hsound.balanced
  have hpids : pids (withCpu t) = pids (withCpu s) := by
    cases hthread : s.cpuThread with
    | receive =>
      cases hq : s.toCpu with
      | nil => simp [processDispatch, hthread, hq] at h
      | cons sent rest =>
        obtain ⟨dispatch, pcb⟩ := sent
        simp only [processDispatch, hthread, hq, Option.some.injEq] at h
        subst h
        simp only [withCpu, hq, hthread, List.length_append, List.length_map, List.length_cons] at hlength
        obtain rfl : rest = [] := List.length_eq_zero_iff.mp (by omega)
        simp [withCpu, hq, hthread]
    | running dispatch pcb =>
      simp only [processDispatch, hthread] at h
      split at h
      · simp only [Option.bind_eq_bind, Option.bind_eq_some_iff, Option.some.injEq] at h
        obtain ⟨⟨cpu, pcb', access⟩, hcycle, rfl⟩ := h
        have hid : pcb'.processId = pcb.processId :=
          congrArg Prod.fst (instruction_cycle_identity hcycle)
        simp [withCpu, hthread, hid]
      · simp only [Option.some.injEq] at h
        subst h
        simp [withCpu, hthread, saveContextPcb]
    | leaving dispatch pcb =>
      obtain ⟨cpu, package, hpackage, -, -⟩ := leaving_flags hsound.flags hthread
      have hpcb := leave_process_pcb hpackage
      simp only [processDispatch, hthread, hpackage, Option.some.injEq] at h
      subst h
      simp [withCpu, hthread, hpcb]
    | sending reply =>
      obtain ⟨hto, hfrom⟩ := busy_alone hsound.balanced (by simp [hthread])
      simp only [processDispatch, hthread, Option.some.injEq] at h
      subst h
      simp [withCpu, hthread, hto, hfrom]
  obtain ⟨_, _, _, _, _, _, _, rfl⟩ := process_dispatch_frame h
  exact unended_of_same hs rfl rfl rfl rfl hpids

theorem after_free_listed {package : CpuPackage} {listed : List ℤ}
    (h : listed = [(packagePcb package).processId]) :
    Listed (afterFree package) listed ∧ blocking (afterFree package) = false := by
  cases package <;> exact ⟨h, rfl⟩

theorem after_flag_listed {package : CpuPackage} {listed : List ℤ}
    (h : listed = [(packagePcb package).processId]) :
    Listed (afterFlag package) listed ∧ blocking (afterFlag package) = false := by
  cases package <;> exact ⟨h, rfl⟩

theorem after_running_listed (package : CpuPackage) :
    Listed (afterRunning package) [] ∧ blocking (afterRunning package) = false := by
  cases package <;> exact ⟨rfl, rfl⟩

/-- A step of `manage_dispatch` that touches neither RUNNING nor BLOCKED nor a device. -/
theorem unended_of_moved {thread : ThreadDispatch} (hs : Unended s)
    (hthread : s.threadDispatch = thread) (hbefore : blocking thread = false)
    (hafter : blocking t.threadDispatch = false)
    (hlisted : ∀ listed, Listed thread listed → Listed t.threadDispatch listed)
    (hrunning : t.listRunning = s.listRunning) (hblocked : t.listBlocked = s.listBlocked)
    (hdevices : t.devices = s.devices) (hcpu : withCpu t = withCpu s) : Unended t where
  running := by
    obtain ⟨listed, h, hlist⟩ := hs.running
    exact ⟨listed, hlisted listed (hthread ▸ h), by rw [hrunning, hcpu, hlist]⟩
  waiting := by
    rw [hdevices]
    exact hs.waiting
  blocked := by
    rw [hblocked, hdevices]
    exact fun _ => hs.blocked (hthread ▸ hbefore)
  attached := by
    intro i hi
    simp [hi, blocking] at hafter

theorem manage_dispatch_unended (hb : Balanced cfg s) (hs : Unended s)
    (hends : endsIo s.threadDispatch = false) (h : manageDispatch cfg s = some t) : Unended t := by
  have hlength := with_cpu_length hb
  obtain ⟨listed, hlisted, hrunning⟩ := hs.running
  cases hthread : s.threadDispatch with
  | receive =>
    rw [hthread] at hlisted
    obtain rfl : listed = [] := hlisted
    cases hq : s.fromCpu with
    | nil => simp [manageDispatch, hthread, hq] at h
    | cons reply rest =>
      simp only [manageDispatch, hthread, hq, Option.some.injEq] at h
      subst h
      refine ⟨⟨_, rfl, ?_⟩, hs.waiting, fun _ => hs.blocked (by rw [hthread]; rfl), by simp⟩
      simp only [withCpu, hq, List.length_append, List.length_map, List.length_cons] at hlength
      have hannounced := List.length_eq_zero_iff.mp
        (show (announced s.shortTermScheduler).length = 0 by omega)
      have hto := List.length_eq_zero_iff.mp (show s.toCpu.length = 0 by omega)
      have hcpu := List.length_eq_zero_iff.mp (show (executing s.cpuThread).length = 0 by omega)
      have hrest := List.length_eq_zero_iff.mp (show rest.length = 0 by omega)
      simp [hrunning, withCpu, hq, hannounced, hto, hcpu, hrest]
  | postFree package =>
    simp only [manageDispatch, hthread, Option.some.injEq] at h
    subst h
    exact unended_of_moved hs hthread rfl (after_free_listed rfl).2
      (fun _ hlisted => (after_free_listed hlisted).1) rfl rfl rfl rfl
  | postGrado package =>
    simp only [manageDispatch, hthread, Option.some.injEq] at h
    subst h
    exact unended_of_moved hs hthread rfl rfl (fun _ hlisted => hlisted) rfl rfl rfl rfl
  | lockOut package =>
    simp only [manageDispatch, hthread, Option.ite_none_left_eq_some, Option.some.injEq] at h
    obtain ⟨-, rfl⟩ := h
    exact unended_of_moved hs hthread rfl rfl (fun _ hlisted => hlisted) rfl rfl rfl rfl
  | setFlag package =>
    cases hu : s.ultimo with
    | none => simp [manageDispatch, hthread, hu] at h
    | some u =>
      simp only [manageDispatch, hthread, hu, Option.some.injEq] at h
      subst h
      exact unended_of_moved hs hthread rfl rfl (fun _ hlisted => hlisted) rfl rfl rfl rfl
  | unlockOut package =>
    simp only [manageDispatch, hthread, Option.some.injEq] at h
    subst h
    exact unended_of_moved hs hthread rfl (after_flag_listed rfl).2
      (fun _ hlisted => (after_flag_listed hlisted).1) rfl rfl rfl rfl
  | sendConsole package => simp [hthread, endsIo] at hends
  | postDevice i => simp [hthread, endsIo] at hends
  | addBlocked pcb device parameter =>
    simp only [manageDispatch, hthread, Option.some.injEq] at h
    subst h
    rw [hthread] at hlisted
    exact ⟨⟨listed, hlisted, hrunning⟩, hs.waiting, by simp [blocking], by simp⟩
  | addTime pcb device parameter =>
    rw [hthread] at hlisted
    obtain ⟨i, d, -, hd, rfl⟩ := add_time_some hthread h
    refine ⟨⟨listed, hlisted, hrunning⟩, fun x hx => ?_, by simp [blocking], by simp⟩
    rcases List.mem_or_eq_of_mem_set hx with hx | rfl
    · exact hs.waiting x hx
    · exact hs.waiting d (List.mem_of_getElem? hd)
  | addProcess pcb i =>
    rw [hthread] at hlisted
    obtain ⟨d, hd, rfl⟩ := add_process_some hthread h
    refine ⟨⟨listed, ⟨_, hlisted⟩, hrunning⟩, fun x hx => ?_, by simp [blocking], ?_⟩
    · rcases List.mem_or_eq_of_mem_set hx with hx | rfl
      · exact hs.waiting x hx
      · exact hs.waiting d (List.mem_of_getElem? hd)
    · intro j hj
      obtain rfl : i = j := by simpa using hj
      simpa [System.setDevice] using (List.getElem?_eq_some_iff.mp hd).1
  | removeRunning package =>
    rw [hthread] at hlisted
    obtain rfl : listed = [_] := hlisted
    simp only [manageDispatch, hthread, Option.some.injEq] at h
    subst h
    obtain ⟨hlisted, hblocking⟩ := after_running_listed package
    refine ⟨⟨[], hlisted, ?_⟩, hs.waiting, fun _ => hs.blocked (by rw [hthread]; rfl), ?_⟩
    · rw [pids, List.map_tail]
      exact congrArg List.tail hrunning
    · intro i hi
      simp [show afterRunning package = _ from hi, blocking] at hblocking
  | addReady pcb =>
    simp only [manageDispatch, hthread] at h
    split at h
    all_goals
      obtain rfl := Option.some.inj h
      exact unended_of_moved hs hthread rfl rfl (fun _ hlisted => hlisted) rfl rfl rfl rfl
  | postReady =>
    simp only [manageDispatch, hthread, Option.some.injEq] at h
    subst h
    exact unended_of_moved hs hthread rfl rfl (fun _ hlisted => hlisted) rfl rfl rfl rfl
  | addExit package =>
    simp only [manageDispatch, hthread, Option.some.injEq] at h
    subst h
    cases package
    all_goals
      exact unended_of_moved hs hthread rfl rfl (fun _ hlisted => hlisted) rfl rfl rfl rfl
  | sendMemory package =>
    simp only [manageDispatch, hthread, Option.some.injEq] at h
    subst h
    cases package
    all_goals
      exact unended_of_moved hs hthread rfl rfl (fun _ hlisted => hlisted) rfl rfl rfl rfl
  | sendEnd package =>
    simp only [manageDispatch, hthread] at h
    split at h
    all_goals
      obtain rfl := Option.some.inj h
      rw [(send_to_console_frame _ _ _).choose_spec]
      exact unended_of_moved hs hthread rfl rfl (fun _ hlisted => hlisted) rfl rfl rfl rfl
  | createThread pcb segmentNumber pageNumber =>
    simp only [manageDispatch, hthread, Option.some.injEq] at h
    subst h
    exact unended_of_moved hs hthread rfl rfl (fun _ hlisted => hlisted) rfl rfl rfl rfl

/-- No device has anything to serve. -/
theorem simulate_io_waits {i : ℕ} {d : Device} (hs : Unended s) (hd : s.devices[i]? = some d) :
    simulateIoDefault cfg s i d = none := by
  obtain ⟨hsem, hthread⟩ := hs.waiting d (List.mem_of_getElem? hd)
  simp [simulateIoDefault, hthread, hsem]

theorem step_unended {e : Event} (hsound : Sound cfg s) (hs : Unended s) (hends : EndsNoIo s e)
    (h : step cfg s e = some t) : Unended t := by
  cases e with
  | connect instructions segments =>
    obtain rfl := Option.some.inj h
    exact unended_of_same hs rfl rfl rfl rfl rfl
  | console i value =>
    obtain ⟨c, -, h⟩ := Option.bind_eq_some_iff.mp h
    obtain ⟨_, _, _, _, -, rfl⟩ := consola_frame h
    exact unended_of_same hs rfl rfl rfl rfl rfl
  | receiveConsole i =>
    obtain ⟨c, -, h⟩ := Option.bind_eq_some_iff.mp h
    obtain ⟨_, _, _, _, _, _, _, _, _, _, _, _, rfl⟩ := receive_console_frame h
    exact unended_of_same hs rfl rfl rfl rfl rfl
  | scheduleNextToRunning => exact schedule_next_to_running_unended hsound.balanced hs h
  | manageDispatch => exact manage_dispatch_unended hsound.balanced hs hends h
  | manageInterrupt =>
    obtain ⟨_, _, _, _, rfl⟩ := manage_interrupt_frame h
    exact unended_of_same hs rfl rfl rfl rfl rfl
  | countQuantum expired =>
    obtain ⟨_, _, _, _, _, _, rfl⟩ := count_quantum_frame h
    exact unended_of_same hs rfl rfl rfl rfl rfl
  | manageMemory =>
    obtain ⟨_, _, _, _, _, _, _, _, rfl⟩ := manage_memory_frame h
    exact unended_of_same hs rfl rfl rfl rfl rfl
  | resolvePageFault i =>
    obtain ⟨p, -, h⟩ := Option.bind_eq_some_iff.mp h
    obtain ⟨_, _, _, rfl⟩ := resolve_page_fault_frame h
    exact unended_of_same hs rfl rfl rfl rfl rfl
  | simulateIo i =>
    obtain ⟨d, hd, h⟩ := Option.bind_eq_some_iff.mp h
    simp [simulate_io_waits hs hd] at h
  | processDispatch answers => exact process_dispatch_unended hsound hs h
  | processInterrupt =>
    obtain ⟨_, _, -, rfl⟩ := process_interrupt_cases h
    exact unended_of_same hs rfl rfl rfl rfl rfl
  | memoria segments =>
    obtain ⟨_, _, -, rfl⟩ := memoria_cases h
    exact unended_of_same hs rfl rfl rfl rfl rfl

theorem in_no_device (hs : Unended s) (h : blocking s.threadDispatch = false) :
    processesAt s .device = [] := by
  simp only [processesAt, List.flatMap_eq_nil_iff]
  intro d hd
  simp [inDevice, (hs.blocked h).2 d hd, (hs.waiting d hd).2]

theorem truthful_of_unended (hb : Balanced cfg s) (hs : Unended s) : ListsTruthful s := by
  obtain ⟨listed, hlisted, hrunning⟩ := hs.running
  refine ⟨fun hthread => ?_, fun hthread => ?_, fun pid hpid => ?_⟩
  · rw [hthread] at hlisted
    obtain rfl : listed = [] := hlisted
    have hlength := congrArg List.length hrunning
    simp only [pids, List.nil_append, List.length_map] at hlength
    exact ⟨hrunning, hlength ▸ with_cpu_length hb⟩
  · have hblocking : blocking s.threadDispatch = false := by rw [hthread]; rfl
    rw [(hs.blocked hblocking).1, in_no_device hs hblocking]
  · cases hthread : s.threadDispatch
    case removeRunning package =>
      obtain rfl : pid = (packagePcb package).processId := by simpa [hthread, removing] using hpid
      rw [hthread] at hlisted
      obtain rfl : listed = [_] := hlisted
      rw [hrunning]
      rfl
    all_goals simp [hthread, removing] at hpid

/-- The end of a case of I/O leaves in RUNNING a process that the CPU does not have. -/
theorem end_of_io_untruthful (hs : Unended s) (hends : endsIo s.threadDispatch = true)
    (h : manageDispatch cfg s = some t) : ¬ListsTruthful t := by
  obtain ⟨listed, hlisted, hrunning⟩ := hs.running
  have hlength : listed.length = 1 := by
    cases hthread : s.threadDispatch <;> simp [hthread, endsIo] at hends <;> rw [hthread] at hlisted
    · rw [hlisted]
      rfl
    · obtain ⟨pid, rfl⟩ := hlisted
      rfl
  have hkept : t.threadDispatch = .receive ∧ t.listRunning = s.listRunning ∧ withCpu t = withCpu s := by
    cases hthread : s.threadDispatch <;> simp [hthread, endsIo] at hends
    all_goals simp only [manageDispatch, hthread] at h
    · obtain rfl := Option.some.inj h
      rw [(send_to_console_frame _ _ _).choose_spec]
      exact ⟨rfl, rfl, rfl⟩
    · split at h
      · simp at h
      · obtain rfl := Option.some.inj h
        exact ⟨rfl, rfl, rfl⟩
  intro ht
  have hlist := (ht.running hkept.1).1
  rw [hkept.2.1, hkept.2.2, hrunning] at hlist
  have := congrArg List.length hlist
  rw [List.length_append, hlength] at this
  omega

theorem refused_ends_no_io {e : Event} (hs : Unended s) (h : step cfg s e = none) : EndsNoIo s e := by
  cases e with
  | manageDispatch =>
    show endsIo s.threadDispatch = false
    cases hthread : s.threadDispatch
    case sendConsole package => simp [step, manageDispatch, hthread] at h
    case postDevice i =>
      have hi := List.getElem?_eq_getElem (hs.attached i hthread)
      simp [step, manageDispatch, hthread, hi] at h
    all_goals rfl
  | _ => trivial

/-- Nothing removes a process from BLOCKED. -/
theorem blocked_prefix {e : Event} (h : step cfg s e = some t) : s.listBlocked <+: t.listBlocked := by
  cases e with
  | manageDispatch =>
    cases hthread : s.threadDispatch
    case addBlocked pcb device parameter =>
      simp only [step, manageDispatch, hthread, Option.some.injEq] at h
      subst h
      exact List.prefix_append _ _
    all_goals
      simp only [step, manageDispatch, hthread, sendToConsole] at h
      repeat' split at h
      all_goals simp only [Option.some.injEq, reduceCtorEq] at h
      all_goals subst h
      all_goals exact List.prefix_refl _
  | connect instructions segments =>
    obtain rfl := Option.some.inj h
    exact List.prefix_refl _
  | console i value =>
    obtain ⟨c, -, h⟩ := Option.bind_eq_some_iff.mp h
    obtain ⟨_, _, _, _, -, rfl⟩ := consola_frame h
    exact List.prefix_refl _
  | receiveConsole i =>
    obtain ⟨c, -, h⟩ := Option.bind_eq_some_iff.mp h
    obtain ⟨_, _, _, _, _, _, _, _, _, _, _, _, rfl⟩ := receive_console_frame h
    exact List.prefix_refl _
  | scheduleNextToRunning =>
    obtain ⟨_, _, _, _, _, _, _, _, _, _, _, rfl⟩ := schedule_next_to_running_frame h
    exact List.prefix_refl _
  | manageInterrupt =>
    obtain ⟨_, _, _, _, rfl⟩ := manage_interrupt_frame h
    exact List.prefix_refl _
  | countQuantum expired =>
    obtain ⟨_, _, _, _, _, _, rfl⟩ := count_quantum_frame h
    exact List.prefix_refl _
  | manageMemory =>
    obtain ⟨_, _, _, _, _, _, _, _, rfl⟩ := manage_memory_frame h
    exact List.prefix_refl _
  | resolvePageFault i =>
    obtain ⟨p, -, h⟩ := Option.bind_eq_some_iff.mp h
    obtain ⟨_, _, _, rfl⟩ := resolve_page_fault_frame h
    exact List.prefix_refl _
  | simulateIo i =>
    obtain ⟨d, -, h⟩ := Option.bind_eq_some_iff.mp h
    obtain ⟨_, _, _, _, rfl⟩ := simulate_io_default_frame h
    exact List.prefix_refl _
  | processDispatch answers =>
    obtain ⟨_, _, _, _, _, _, _, rfl⟩ := process_dispatch_frame h
    exact List.prefix_refl _
  | processInterrupt =>
    obtain ⟨_, _, -, rfl⟩ := process_interrupt_cases h
    exact List.prefix_refl _
  | memoria segments =>
    obtain ⟨_, _, -, rfl⟩ := memoria_cases h
    exact List.prefix_refl _

end Steps

theorem boot_unended (cfg : KernelConfig) (time : TimeVal) : Unended (boot cfg time) where
  running := ⟨[], rfl, rfl⟩
  waiting := fun _ hd => (init_device_idle hd).2
  blocked := fun _ => ⟨rfl, fun _ hd => (init_device_idle hd).1⟩
  attached := by simp [boot]

/-- A run keeps the two lists true if and only if no case of I/O comes to its end in it. -/
theorem lists_truthful_iff (cfg : KernelConfig) (time : TimeVal) (es : List Event) :
    Always (step cfg) ListsTruthful (boot cfg time) es ↔
      Guarded (step cfg) EndsNoIo (boot cfg time) es := by
  apply always_iff_of_breaks (step cfg) (Sound cfg) Unended ListsTruthful (fun _ _ => True) EndsNoIo
  · exact fun _ _ _ hsound _ h => step_sound hsound h
  · exact fun _ _ _ hsound hs _ hends h => step_unended hsound hs hends h
  · exact fun _ hsound hs => truthful_of_unended hsound.balanced hs
  · intro s e t hsound hs _ hends h
    cases e with
    | manageDispatch =>
      refine end_of_io_untruthful hs ?_ h
      simpa [EndsNoIo] using hends
    | _ => exact absurd trivial hends
  · exact fun _ _ _ hs _ h => refused_ends_no_io hs h
  · exact boot_sound cfg time
  · exact boot_unended cfg time
  · exact guarded_trivial (step cfg) es _

/-- The first process comes back from a device before the second one, which ends. -/
def mixedRun : List Event :=
  admission 0 ["I/O DISCO 1", "EXIT"]++admission 1 ["EXIT"]++dispatching .fifo++stopping++
    List.replicate 9 .manageDispatch++List.replicate 5 (.simulateIo 0)++dispatching .fifo++stopping++
    List.replicate 6 .manageDispatch

/-- The first process is in READY and is still listed in RUNNING and in BLOCKED;
the end of the second one will remove the PCB of the first. -/
theorem io_stays_listed :
    run (step (smallKernel .fifo)) (boot (smallKernel .fifo) midnight) mixedRun =
        some (reached (step (smallKernel .fifo)) (boot (smallKernel .fifo) midnight) mixedRun) ∧
      ¬ListsTruthful (reached (step (smallKernel .fifo)) (boot (smallKernel .fifo) midnight) mixedRun) :=
  ⟨run_reached _ _ _ (by decide +kernel), by decide +kernel⟩

end Geck.RunningList
