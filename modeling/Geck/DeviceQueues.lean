import Geck.KernelSoundness

/-!
# The queues of the devices

The time and the PCB of a request are two entries of one list, and each thread
can stop between its two list operations. The half that is missing is then a
local variable of a thread: with these halves put back, the list is always a list
of whole requests, the oldest first, and it loses at the front what is served and
gains at the end what is asked.
-/

set_option autoImplicit false

namespace Geck.DeviceQueues
open Geck.LabelledRuns Geck.SharedPcb Geck.CpuTranslation Geck.CpuExecution Geck.KernelState
open Geck.KernelThreads Geck.KernelFrames Geck.KernelInvariant Geck.KernelSoundness

/-- Requests as `list_processes` holds them. -/
def laid (requests : List (ℤ × Pcb)) : List DeviceItem :=
  requests.flatMap fun p => [.time p.1, .process p.2]

/-- What an `IO_DEFAULT` asks of the device `i`: a wait, and a process that blocks for it. -/
def asks (cfg : KernelConfig) (i : ℕ) : CpuPackage → List (ℤ × Pcb)
  | .ioDefault pcb device parameter =>
    if dictionaryGet (initDeviceConfigDictionary cfg) device = some i then
      [(parameter, changePcbStateTo pcb .blocked)]
    else []
  | _ => []

/-- The requests for the device among the packages that `manage_dispatch` receives. -/
def requested (cfg : KernelConfig) (i : ℕ) (s : System) : Event → List (ℤ × Pcb)
  | .manageDispatch =>
    match s.threadDispatch with
    | .receive => s.fromCpu.head?.elim [] fun reply => asks cfg i reply.package
    | _ => []
  | _ => []

def slept : DeviceThread → List (ℤ × Pcb)
  | .serving time pcb => [(time, pcb)]
  | _ => []

/-- The process that the device puts in READY, with the time that it has slept for it. -/
def served (i : ℕ) (s : System) : Event → List (ℤ × Pcb)
  | .simulateIo j => if j = i then s.devices[i]?.elim [] fun d => slept d.thread else []
  | _ => []

/-- What the device has removed of the request it is at. -/
def removed : DeviceThread → List DeviceItem
  | .removeProcess time => [.time time]
  | .serving time pcb => [.time time, .process pcb]
  | _ => []

/-- The half that `execute_io_default` has still to add. -/
def missing : ThreadDispatch → ℕ → List DeviceItem
  | .addProcess pcb j, i => if j = i then [.process pcb] else []
  | _, _ => []

def completed (thread : ThreadDispatch) (i : ℕ) (d : Device) : List DeviceItem :=
  removed d.thread++d.listProcesses++missing thread i

/-- The request that `manage_dispatch` has received and has added nothing of. -/
def notAdded (cfg : KernelConfig) (i : ℕ) : ThreadDispatch → List (ℤ × Pcb)
  | .postFree package => asks cfg i package
  | .postGrado package => asks cfg i package
  | .lockOut package => asks cfg i package
  | .setFlag package => asks cfg i package
  | .unlockOut package => asks cfg i package
  | .addBlocked pcb device parameter => asks cfg i (.ioDefault pcb device parameter)
  | .addTime pcb device parameter =>
    if dictionaryGet (initDeviceConfigDictionary cfg) device = some i then [(parameter, pcb)]
    else []
  | _ => []

def ahead : DeviceThread → ℕ
  | .wait => 0
  | .removeTime => 4
  | .removeProcess _ => 3
  | .serving _ _ => 2
  | .postReady => 1

/-- The steps that the device thread can take for what is announced to it. -/
def owed (d : Device) : ℕ := 5*d.semDevices+ahead d.thread

/-- No half request is in the list, and the semaphore counts all that are in it. -/
def Announced (thread : ThreadDispatch) (i : ℕ) : Prop :=
  missing thread i = [] ∧ unannounced thread i = 0

/-- What a device in the state `s` has done, and has still to do, of what it was asked for. -/
structure ServesInOrder (cfg : KernelConfig) (i : ℕ) (s : System) (d : Device)
    (asked done : List (ℤ × Pcb)) : Prop where
  order : ∃ waiting, asked = done++waiting ∧
    laid waiting = completed s.threadDispatch i d++laid (notAdded cfg i s.threadDispatch)
  pairs : Paired s.threadDispatch i d
  time : d.thread = .removeTime → ∃ parameter rest, d.listProcesses = .time parameter::rest
  process : ∀ time, d.thread = .removeProcess time →
    ∃ pcb rest, d.listProcesses = .process pcb::rest
  drains : Announced s.threadDispatch i → ∃ n u,
    run (step cfg) s (List.replicate n (.simulateIo i)) = some u ∧
      laid (collected (step cfg) (served i) s (List.replicate n (.simulateIo i))) =
        completed s.threadDispatch i d

theorem laid_append (l l' : List (ℤ × Pcb)) : laid (l++l') = laid l++laid l' :=
  List.flatMap_append

/-- What follows whole requests is whole requests. -/
theorem laid_rest {asked done : List (ℤ × Pcb)} {rest : List DeviceItem}
    (h : laid asked = laid done++rest) : ∃ waiting, asked = done++waiting ∧ laid waiting = rest := by
  induction done generalizing asked with
  | nil => exact ⟨asked, rfl, h⟩
  | cons p done ih =>
    cases asked with
    | nil => simp [laid] at h
    | cons q asked =>
      simp only [laid, List.flatMap_cons, List.cons_append, List.nil_append, List.cons.injEq,
        DeviceItem.time.injEq, DeviceItem.process.injEq] at h
      obtain ⟨htime, hprocess, h⟩ := h
      obtain ⟨waiting, rfl, hrest⟩ := ih h
      exact ⟨waiting, by rw [Prod.ext htime hprocess]; rfl, hrest⟩

section Names
variable {cfg : KernelConfig} {s t : System}

theorem dictionary_get_names {ds ds' : List Device}
    (h : ds.map Device.deviceName = ds'.map Device.deviceName) (name : String) :
    dictionaryGet ds name = dictionaryGet ds' name := by
  induction ds generalizing ds' with
  | nil =>
    cases ds' with
    | nil => rfl
    | cons d' ds' => simp at h
  | cons d ds ih =>
    cases ds' with
    | nil => simp at h
    | cons d' ds' =>
      obtain ⟨hname, hrest⟩ := List.cons.inj h
      rw [dictionaryGet, dictionaryGet, ih hrest, hname]

theorem set_device_names {ds : List Device} {i : ℕ} {d d' : Device} (hd : ds[i]? = some d)
    (hname : d'.deviceName = d.deviceName) :
    (ds.set i d').map Device.deviceName = ds.map Device.deviceName := by
  obtain ⟨hi, rfl⟩ := List.getElem?_eq_some_iff.mp hd
  have hi' : i < (ds.map Device.deviceName).length := by simpa using hi
  rw [List.map_set, hname, ← List.getElem_map Device.deviceName (h := hi')]
  exact List.set_getElem_self hi'

/-- Only two threads have to do with the devices. -/
theorem step_devices_kept {e : Event} (hdispatch : e ≠ .manageDispatch)
    (hdevice : ∀ i, e ≠ .simulateIo i) (h : step cfg s e = some t) :
    t.devices = s.devices ∧ t.threadDispatch = s.threadDispatch := by
  cases e with
  | connect instructions segments =>
    obtain rfl := Option.some.inj h
    exact ⟨rfl, rfl⟩
  | console i value =>
    obtain ⟨c, -, h⟩ := Option.bind_eq_some_iff.mp h
    obtain ⟨_, _, _, _, -, rfl⟩ := consola_frame h
    exact ⟨rfl, rfl⟩
  | receiveConsole i =>
    obtain ⟨c, -, h⟩ := Option.bind_eq_some_iff.mp h
    obtain ⟨_, _, _, _, _, _, _, _, _, _, _, _, rfl⟩ := receive_console_frame h
    exact ⟨rfl, rfl⟩
  | scheduleNextToRunning =>
    obtain ⟨_, _, _, _, _, _, _, _, _, _, _, rfl⟩ := schedule_next_to_running_frame h
    exact ⟨rfl, rfl⟩
  | manageDispatch => exact absurd rfl hdispatch
  | manageInterrupt =>
    obtain ⟨_, _, _, _, rfl⟩ := manage_interrupt_frame h
    exact ⟨rfl, rfl⟩
  | countQuantum expired =>
    obtain ⟨_, _, _, _, _, _, rfl⟩ := count_quantum_frame h
    exact ⟨rfl, rfl⟩
  | manageMemory =>
    obtain ⟨_, _, _, _, _, _, _, _, rfl⟩ := manage_memory_frame h
    exact ⟨rfl, rfl⟩
  | resolvePageFault i =>
    obtain ⟨p, -, h⟩ := Option.bind_eq_some_iff.mp h
    obtain ⟨_, _, _, rfl⟩ := resolve_page_fault_frame h
    exact ⟨rfl, rfl⟩
  | simulateIo i => exact absurd rfl (hdevice i)
  | processDispatch answers =>
    obtain ⟨_, _, _, _, _, _, _, rfl⟩ := process_dispatch_frame h
    exact ⟨rfl, rfl⟩
  | processInterrupt =>
    obtain ⟨_, _, -, rfl⟩ := process_interrupt_cases h
    exact ⟨rfl, rfl⟩
  | memoria segments =>
    obtain ⟨_, _, -, rfl⟩ := memoria_cases h
    exact ⟨rfl, rfl⟩

end Names

section Threads
variable {cfg : KernelConfig} {s t : System}

/-- A step of the device thread keeps the list of whole requests, but for the one it ends. -/
theorem simulate_io_sets {i : ℕ} {d : Device} (h : simulateIoDefault cfg s i d = some t) :
    ∃ d' : Device, t.devices = s.devices.set i d' ∧ t.threadDispatch = s.threadDispatch ∧
      d'.deviceName = d.deviceName ∧ owed d' < owed d ∧
      removed d.thread++d.listProcesses =
        laid (slept d.thread)++(removed d'.thread++d'.listProcesses) := by
  cases hthread : d.thread with
  | wait =>
    simp only [simulateIoDefault, hthread, Option.ite_none_right_eq_some, Option.some.injEq] at h
    obtain ⟨hpos, rfl⟩ := h
    refine ⟨_, rfl, rfl, rfl, ?_, rfl⟩
    simp only [owed, hthread, ahead]
    omega
  | removeTime =>
    simp only [simulateIoDefault, hthread] at h
    split at h
    · next parameter rest hlist =>
      obtain rfl := Option.some.inj h
      exact ⟨_, rfl, rfl, rfl, by simp [owed, hthread, ahead], hlist⟩
    · simp at h
  | removeProcess time =>
    simp only [simulateIoDefault, hthread] at h
    split at h
    · next pcb rest hlist =>
      obtain rfl := Option.some.inj h
      exact ⟨_, rfl, rfl, rfl, by simp [owed, hthread, ahead],
        congrArg (DeviceItem.time time::·) hlist⟩
    · simp at h
  | serving time pcb =>
    simp only [simulateIoDefault, hthread, Option.some.injEq] at h
    subst h
    obtain ⟨ready, rr, hready⟩ := add_to_ready_frame cfg s pcb
    rw [hready]
    exact ⟨_, rfl, rfl, rfl, by simp [owed, hthread, ahead], rfl⟩
  | postReady =>
    simp only [simulateIoDefault, hthread, Option.some.injEq] at h
    subst h
    exact ⟨_, rfl, rfl, rfl, by simp [owed, hthread, ahead], rfl⟩

/-- A step of `manage_dispatch` changes at most one device. -/
theorem manage_dispatch_sets (h : manageDispatch cfg s = some t) :
    t.devices = s.devices ∨ ∃ (j : ℕ) (d d' : Device), s.devices[j]? = some d ∧
      t.devices = s.devices.set j d' ∧ d'.deviceName = d.deviceName := by
  cases hthread : s.threadDispatch with
  | addTime pcb device parameter =>
    obtain ⟨j, d, -, hd, rfl⟩ := add_time_some hthread h
    exact Or.inr ⟨j, d, _, hd, rfl, rfl⟩
  | addProcess _ j =>
    obtain ⟨d, hd, rfl⟩ := add_process_some hthread h
    exact Or.inr ⟨j, d, _, hd, rfl, rfl⟩
  | postDevice j =>
    obtain ⟨d, hd, rfl⟩ := post_device_some hthread h
    exact Or.inr ⟨j, d, _, hd, rfl, rfl⟩
  | _ =>
    exact Or.inl (manage_dispatch_idle (by simp [hthread]) (by simp [hthread]) (by simp [hthread])
      h).1

/-- Before it adds to a list, `manage_dispatch` only carries the request that it received. -/
theorem manage_dispatch_carries (i : ℕ)
    (hadd : ∀ pcb device parameter, s.threadDispatch ≠ .addTime pcb device parameter)
    (hprocess : ∀ pcb j, s.threadDispatch ≠ .addProcess pcb j)
    (hpost : ∀ j, s.threadDispatch ≠ .postDevice j) (h : manageDispatch cfg s = some t) :
    missing t.threadDispatch i = missing s.threadDispatch i ∧
      notAdded cfg i s.threadDispatch++requested cfg i s .manageDispatch =
        notAdded cfg i t.threadDispatch := by
  cases hthread : s.threadDispatch with
  | addTime pcb device parameter => exact absurd hthread (hadd pcb device parameter)
  | addProcess pcb j => exact absurd hthread (hprocess pcb j)
  | postDevice j => exact absurd hthread (hpost j)
  | receive =>
    cases hq : s.fromCpu with
    | nil => simp [manageDispatch, hthread, hq] at h
    | cons reply rest =>
      simp only [manageDispatch, hthread, hq, Option.some.injEq] at h
      subst h
      exact ⟨rfl, by simp [notAdded, requested, hthread, hq]⟩
  | postFree package | unlockOut package | removeRunning package | addExit package
  | sendMemory package =>
    simp only [manageDispatch, hthread, Option.some.injEq] at h
    subst h
    cases package <;> exact ⟨rfl, by simp [notAdded, requested, hthread, asks, afterFree, afterFlag,
      afterRunning]⟩
  | addBlocked pcb device parameter =>
    simp only [manageDispatch, hthread, Option.some.injEq] at h
    subst h
    exact ⟨rfl, by simp [notAdded, requested, hthread, asks]⟩
  | _ =>
    simp only [manageDispatch, hthread] at h
    repeat' split at h
    all_goals simp only [Option.some.injEq, reduceCtorEq] at h
    all_goals
      subst h
      exact ⟨rfl, by simp [notAdded, requested, hthread]⟩

end Threads

/-- What the device has been asked for and has not served. -/
def content (cfg : KernelConfig) (i : ℕ) (s : System) : List DeviceItem :=
  (s.devices[i]?.elim [] fun d => completed s.threadDispatch i d)++
    laid (notAdded cfg i s.threadDispatch)

def deviceNames (s : System) : List String := s.devices.map Device.deviceName

section Content
variable {cfg : KernelConfig} {s t : System} {i : ℕ}

theorem content_some {d : Device} (hd : s.devices[i]? = some d) :
    content cfg i s =
      completed s.threadDispatch i d++laid (notAdded cfg i s.threadDispatch) := by
  simp [content, hd]

theorem requested_elsewhere {e : Event} (he : e ≠ .manageDispatch) : requested cfg i s e = [] := by
  cases e with
  | manageDispatch => exact absurd rfl he
  | _ => rfl

theorem served_elsewhere {e : Event} (he : ∀ j, e ≠ .simulateIo j) : served i s e = [] := by
  cases e with
  | simulateIo j => exact absurd rfl (he j)
  | _ => rfl

theorem content_kept (cfg : KernelConfig) (hdevice : t.devices[i]? = s.devices[i]?)
    (hmissing : missing t.threadDispatch i = missing s.threadDispatch i)
    (hnotAdded : notAdded cfg i t.threadDispatch = notAdded cfg i s.threadDispatch) :
    content cfg i s = content cfg i t := by
  simp only [content, completed, hdevice, hmissing, hnotAdded]

/-- A step that leaves the device as it is carries at most a request that has come. -/
theorem content_carried {requests : List (ℤ × Pcb)} (hdevice : t.devices[i]? = s.devices[i]?)
    (hmissing : missing t.threadDispatch i = missing s.threadDispatch i)
    (hcarried : notAdded cfg i s.threadDispatch++requests = notAdded cfg i t.threadDispatch) :
    content cfg i s++laid requests = content cfg i t := by
  rw [content, content, List.append_assoc, ← laid_append, hcarried, hdevice]
  simp only [completed, hmissing]

theorem simulate_io_content {j : ℕ} {d : Device} (hd : s.devices[j]? = some d)
    (h : simulateIoDefault cfg s j d = some t) :
    content cfg i s = laid (served i s (.simulateIo j))++content cfg i t := by
  obtain ⟨d', hset, hthread, -, -, hlaw⟩ := simulate_io_sets h
  by_cases hij : j = i
  · subst hij
    have hd' : t.devices[j]? = some d' := by
      rw [hset, List.getElem?_set_self (List.getElem?_eq_some_iff.mp hd).1]
    have hserved : served j s (.simulateIo j) = slept d.thread := by simp [served, hd]
    rw [content_some hd, content_some hd', hserved, hthread, completed, completed, hlaw]
    simp only [List.append_assoc]
  · have hserved : served i s (.simulateIo j) = [] := if_neg hij
    have hkept : content cfg i s = content cfg i t :=
      content_kept cfg (by rw [hset, List.getElem?_set_ne hij]) (by rw [hthread]) (by rw [hthread])
    rw [hserved, hkept]
    rfl

/-- A step that changes one device keeps what is to be done by it and by the others. -/
theorem content_set {j : ℕ} {d d' : Device} (hd : s.devices[j]? = some d)
    (hset : t.devices = s.devices.set j d')
    (hown : j = i → completed s.threadDispatch i d++laid (notAdded cfg i s.threadDispatch) =
      completed t.threadDispatch i d'++laid (notAdded cfg i t.threadDispatch))
    (hothers : j ≠ i → missing t.threadDispatch i = missing s.threadDispatch i ∧
      notAdded cfg i t.threadDispatch = notAdded cfg i s.threadDispatch) :
    content cfg i s = content cfg i t := by
  by_cases hij : j = i
  · subst hij
    have hd' : t.devices[j]? = some d' := by
      rw [hset, List.getElem?_set_self (List.getElem?_eq_some_iff.mp hd).1]
    rw [content_some hd, content_some hd', hown rfl]
  · obtain ⟨hmissing, hnotAdded⟩ := hothers hij
    exact content_kept cfg (by rw [hset, List.getElem?_set_ne hij]) hmissing hnotAdded

theorem manage_dispatch_content
    (hnames : deviceNames s = (initDeviceConfigDictionary cfg).map Device.deviceName)
    (h : manageDispatch cfg s = some t) :
    content cfg i s++laid (requested cfg i s .manageDispatch) = content cfg i t := by
  have hnone (hreceive : s.threadDispatch ≠ .receive) :
      laid (requested cfg i s .manageDispatch) = [] := by
    cases hthread : s.threadDispatch with
    | receive => exact absurd hthread hreceive
    | _ => simp [requested, hthread, laid]
  cases hthread : s.threadDispatch with
  | addTime pcb device parameter =>
    rw [hnone (by simp [hthread]), List.append_nil]
    obtain ⟨j, d, hj, hd, rfl⟩ := add_time_some hthread h
    rw [dictionary_get_names hnames] at hj
    refine content_set hd rfl (fun hij => ?_) fun hij => ?_
    · simp [completed, hthread, missing, notAdded, hj, hij, laid]
    · simp [hthread, missing, notAdded, hj, hij]
  | addProcess pcb j =>
    rw [hnone (by simp [hthread]), List.append_nil]
    obtain ⟨d, hd, rfl⟩ := add_process_some hthread h
    refine content_set hd rfl (fun hij => ?_) fun hij => ?_
    · simp [completed, hthread, missing, notAdded, hij]
    · simp [hthread, missing, notAdded, hij]
  | postDevice j =>
    rw [hnone (by simp [hthread]), List.append_nil]
    obtain ⟨d, hd, rfl⟩ := post_device_some hthread h
    refine content_set hd rfl (fun _ => ?_) fun _ => ?_
    · simp [completed, hthread, missing, notAdded]
    · simp [hthread, missing, notAdded]
  | _ =>
    have hadd : ∀ pcb device parameter, s.threadDispatch ≠ .addTime pcb device parameter := by
      simp [hthread]
    have hprocess : ∀ pcb j, s.threadDispatch ≠ .addProcess pcb j := by simp [hthread]
    have hpost : ∀ j, s.threadDispatch ≠ .postDevice j := by simp [hthread]
    obtain ⟨hmissing, hcarried⟩ := manage_dispatch_carries i hadd hprocess hpost h
    have hdevices := (manage_dispatch_idle hadd hprocess hpost h).1
    exact content_carried (by rw [hdevices]) hmissing hcarried

theorem step_content {e : Event}
    (hnames : deviceNames s = (initDeviceConfigDictionary cfg).map Device.deviceName)
    (h : step cfg s e = some t) :
    content cfg i s++laid (requested cfg i s e) = laid (served i s e)++content cfg i t := by
  by_cases hdispatch : e = .manageDispatch
  · subst hdispatch
    exact manage_dispatch_content hnames h
  rw [requested_elsewhere hdispatch]
  by_cases hdevice : ∃ j, e = .simulateIo j
  · obtain ⟨j, rfl⟩ := hdevice
    obtain ⟨d, hd, h⟩ := Option.bind_eq_some_iff.mp h
    rw [← simulate_io_content hd h]
    exact List.append_nil _
  · have hdevice : ∀ j, e ≠ .simulateIo j := fun j hj => hdevice ⟨j, hj⟩
    obtain ⟨hdevices, hthread⟩ := step_devices_kept hdispatch hdevice h
    rw [served_elsewhere hdevice]
    have hkept : content cfg i s = content cfg i t :=
      content_kept cfg (by rw [hdevices]) (by rw [hthread]) (by rw [hthread])
    exact (List.append_nil _).trans hkept

theorem step_device_names {e : Event} (h : step cfg s e = some t) :
    deviceNames t = deviceNames s := by
  by_cases hdispatch : e = .manageDispatch
  · subst hdispatch
    obtain hsame | ⟨j, d, d', hd, hset, hname⟩ := manage_dispatch_sets h
    · rw [deviceNames, hsame, deviceNames]
    · rw [deviceNames, hset]
      exact set_device_names hd hname
  by_cases hdevice : ∃ j, e = .simulateIo j
  · obtain ⟨j, rfl⟩ := hdevice
    obtain ⟨d, hd, h⟩ := Option.bind_eq_some_iff.mp h
    obtain ⟨d', hset, -, hname, -, -⟩ := simulate_io_sets h
    rw [deviceNames, hset]
    exact set_device_names hd hname
  · have hdevices := (step_devices_kept hdispatch (fun j hj => hdevice ⟨j, hj⟩) h).1
    rw [deviceNames, hdevices, deviceNames]

theorem run_content (events : List Event)
    (hnames : deviceNames s = (initDeviceConfigDictionary cfg).map Device.deviceName)
    (h : run (step cfg) s events = some t) :
    content cfg i s++laid (collected (step cfg) (requested cfg i) s events) =
      laid (collected (step cfg) (served i) s events)++content cfg i t := by
  have hqueue := collected_queue (step cfg)
    (fun s => deviceNames s = (initDeviceConfigDictionary cfg).map Device.deviceName)
    (content cfg i) (fun s e => laid (requested cfg i s e)) (fun s e => laid (served i s e))
    (fun _ _ _ hnames h => (step_device_names h).trans hnames)
    (fun _ _ _ hnames h => step_content hnames h) events s t hnames h
  have hasked : collected (step cfg) (fun s e => laid (requested cfg i s e)) s events =
      laid (collected (step cfg) (requested cfg i) s events) :=
    collected_flat_map (step cfg) (requested cfg i) _ events s
  have hdone : collected (step cfg) (fun s e => laid (served i s e)) s events =
      laid (collected (step cfg) (served i) s events) :=
    collected_flat_map (step cfg) (served i) _ events s
  rwa [hasked, hdone] at hqueue

end Content

section Draining
variable {cfg : KernelConfig} {s : System} {i : ℕ} {d : Device}

/-- The half that is left of a request is the PCB. -/
theorem paired_process {thread : ThreadDispatch} {time : ℤ} (hp : Paired thread i d)
    (hthread : d.thread = .removeProcess time) : ∃ pcb rest, d.listProcesses = .process pcb::rest := by
  obtain ⟨pairs, front, tail, hlist, hfront, -, -⟩ := hp
  rw [hthread] at hfront
  obtain ⟨pcb, rfl⟩ := hfront
  exact ⟨pcb, _, by simpa using hlist⟩

/-- A device with something announced to it does not have to wait, and is done with a part. -/
theorem device_moves (hs : Sound cfg s) (hd : s.devices[i]? = some d) (hbusy : 0 < owed d) :
    ∃ t d', step cfg s (.simulateIo i) = some t ∧ t.devices[i]? = some d' ∧ owed d' < owed d ∧
      t.threadDispatch = s.threadDispatch := by
  have hpaired := hs.devices i d hd
  have hsome : (simulateIoDefault cfg s i d).isSome := by
    cases hthread : d.thread with
    | wait =>
      have hpos : 0 < d.semDevices := by
        simp only [owed, hthread, ahead] at hbusy
        omega
      simp [simulateIoDefault, hthread, hpos]
    | removeTime =>
      obtain ⟨time, pcb, rest, hlist⟩ := paired_front hpaired hthread
      simp [simulateIoDefault, hthread, hlist]
    | removeProcess time =>
      obtain ⟨pcb, rest, hlist⟩ := paired_process hpaired hthread
      simp [simulateIoDefault, hthread, hlist]
    | _ => simp [simulateIoDefault, hthread]
  obtain ⟨t, ht⟩ := Option.isSome_iff_exists.mp hsome
  obtain ⟨d', hset, hthread, -, hless, -⟩ := simulate_io_sets ht
  exact ⟨t, d', by simp [step, hd, ht],
    by rw [hset, List.getElem?_set_self (List.getElem?_eq_some_iff.mp hd).1], hless, hthread⟩

/-- By its own steps a device does all that is announced to it. -/
theorem device_drains (hs : Sound cfg s) (hd : s.devices[i]? = some d) :
    ∃ n u d', run (step cfg) s (List.replicate n (.simulateIo i)) = some u ∧
      u.devices[i]? = some d' ∧ owed d' = 0 ∧ u.threadDispatch = s.threadDispatch := by
  induction hn : owed d using Nat.strong_induction_on generalizing s d with
  | _ n ih =>
    rcases Nat.eq_zero_or_pos n with rfl | hpos
    · exact ⟨0, s, d, rfl, hd, hn, rfl⟩
    · obtain ⟨t, d', hstep, hd', hlt, hthread⟩ := device_moves hs hd (hn ▸ hpos)
      obtain ⟨k, u, last, hrun, hlast, hdone, hsame⟩ :=
        ih (owed d') (hn ▸ hlt) (step_sound hs hstep) hd' rfl
      exact ⟨k+1, u, last, (run_cons (step cfg) _ hstep).trans hrun, hlast, hdone,
        hsame.trans hthread⟩

/-- A device that has done all that is announced to it has nothing left. -/
theorem idle_completed {thread : ThreadDispatch} (hp : Paired thread i d) (hidle : owed d = 0)
    (ha : Announced thread i) : completed thread i d = [] := by
  obtain ⟨pairs, front, tail, hlist, hfront, htail, hlength⟩ := hp
  have hsem : d.semDevices = 0 := by
    unfold owed at hidle
    omega
  have hthread : d.thread = .wait := by
    cases h : d.thread with
    | wait => rfl
    | _ => simp [owed, h, ahead] at hidle
  rw [hthread] at hfront hlength
  rw [hsem, ha.2] at hlength
  obtain rfl := List.length_eq_zero_iff.mp hlength
  obtain rfl : front = [] := hfront
  have hnone : tail = [] := by
    cases thread with
    | addProcess pcb j =>
      have hij : j ≠ i := by
        rintro rfl
        simp [Announced, missing] at ha
      simpa [Dangling, hij] using htail
    | _ => exact htail
  rw [completed, hthread, hlist, hnone, ha.1]
  rfl

end Draining

section Runs
variable {cfg : KernelConfig}

theorem drains_all {s : System} {i : ℕ} {d : Device} (hs : Sound cfg s)
    (hnames : deviceNames s = (initDeviceConfigDictionary cfg).map Device.deviceName)
    (hd : s.devices[i]? = some d) (ha : Announced s.threadDispatch i) :
    ∃ n u, run (step cfg) s (List.replicate n (.simulateIo i)) = some u ∧
      laid (collected (step cfg) (served i) s (List.replicate n (.simulateIo i))) =
        completed s.threadDispatch i d := by
  obtain ⟨n, u, d', hrun, hd', hidle, hthread⟩ := device_drains hs hd
  have hsound := invariant_run (step cfg) (Sound cfg) (fun _ _ _ hs h => step_sound hs h) _ _ _ hs
    hrun
  have hempty := idle_completed (hthread ▸ hsound.devices i d' hd') hidle ha
  have hlaw := run_content (i := i) _ hnames hrun
  have hnone : collected (step cfg) (requested cfg i) s (List.replicate n (.simulateIo i)) = [] :=
    collected_none (step cfg) _
      (fun _ e he => requested_elsewhere (by rw [List.eq_of_mem_replicate he]; simp)) s
  rw [hnone, content_some hd, content_some hd', hthread, hempty, List.nil_append] at hlaw
  exact ⟨n, u, hrun, (List.append_cancel_right ((List.append_nil _).symm.trans hlaw)).symm⟩

/-- Every device, in every interleaving of the threads. -/
theorem devices_serve_in_order (cfg : KernelConfig) (time : TimeVal) (events : List Event)
    (s : System) (h : run (step cfg) (boot cfg time) events = some s) (i : ℕ) (d : Device)
    (hd : s.devices[i]? = some d) :
    ServesInOrder cfg i s d (collected (step cfg) (requested cfg i) (boot cfg time) events)
      (collected (step cfg) (served i) (boot cfg time) events) := by
  have hs := invariant_run (step cfg) (Sound cfg) (fun _ _ _ hs h => step_sound hs h) _ _ _
    (boot_sound cfg time) h
  have hnames : deviceNames s = (initDeviceConfigDictionary cfg).map Device.deviceName :=
    invariant_run (step cfg)
      (fun s => deviceNames s = (initDeviceConfigDictionary cfg).map Device.deviceName)
      (fun _ _ _ hnames h => (step_device_names h).trans hnames) events _ s rfl h
  have hlaw := run_content (i := i) events (s := boot cfg time) rfl h
  have hboot : content cfg i (boot cfg time) = [] := by
    unfold content
    cases hfirst : (boot cfg time).devices[i]? with
    | none => rfl
    | some first =>
      obtain ⟨hlist, -, hthread⟩ := init_device_idle (List.mem_of_getElem? hfirst)
      simp [completed, hlist, hthread, removed, missing, notAdded, boot, laid]
  rw [hboot, List.nil_append, content_some hd] at hlaw
  have hpaired := hs.devices i d hd
  refine ⟨laid_rest hlaw, hpaired, fun hthread => ?_, fun _ => paired_process hpaired,
    drains_all hs hnames hd⟩
  obtain ⟨parameter, pcb, rest, hlist⟩ := paired_front hpaired hthread
  exact ⟨parameter, _, hlist⟩

end Runs

/-- Two processes ask the disk for a wait of 1 and of 2 before it serves any. -/
def twoWaiting : List Event :=
  admission 0 ["I/O DISCO 1", "EXIT"]++admission 1 ["I/O DISCO 2", "EXIT"]++
    dispatching .fifo++stopping++List.replicate 9 .manageDispatch++
    dispatching .fifo++stopping++List.replicate 9 .manageDispatch

/-- Both are then put in READY. -/
def diskRun : List Event := twoWaiting++List.replicate 10 (.simulateIo 0)

def diskSystem (events : List Event) : System :=
  reached (step (smallKernel .fifo)) (boot (smallKernel .fifo) midnight) events

theorem devices_serve_disk :
    (∃ d asked done, (diskSystem twoWaiting).devices[0]? = some d ∧
      ServesInOrder (smallKernel .fifo) 0 (diskSystem twoWaiting) d asked done ∧
      asked.map (fun p => (p.1, p.2.processId)) = [(1, 1), (2, 2)] ∧ done = []) ∧
    ∃ d asked done, (diskSystem diskRun).devices[0]? = some d ∧
      ServesInOrder (smallKernel .fifo) 0 (diskSystem diskRun) d asked done ∧
      asked.map (fun p => (p.1, p.2.processId)) = [(1, 1), (2, 2)] ∧ done = asked := by
  constructor
  · have hrun : run (step (smallKernel .fifo)) (boot (smallKernel .fifo) midnight) twoWaiting =
        some (diskSystem twoWaiting) := run_reached _ _ _ (by decide +kernel)
    have hsome : ((diskSystem twoWaiting).devices[0]?).isSome = true := by decide +kernel
    obtain ⟨d, hd⟩ := Option.isSome_iff_exists.mp hsome
    exact ⟨d, _, _, hd,
      devices_serve_in_order (smallKernel .fifo) midnight twoWaiting _ hrun 0 d hd,
      by decide +kernel, by decide +kernel⟩
  · have hrun : run (step (smallKernel .fifo)) (boot (smallKernel .fifo) midnight) diskRun =
        some (diskSystem diskRun) := run_reached _ _ _ (by decide +kernel)
    have hsome : ((diskSystem diskRun).devices[0]?).isSome = true := by decide +kernel
    obtain ⟨d, hd⟩ := Option.isSome_iff_exists.mp hsome
    exact ⟨d, _, _, hd,
      devices_serve_in_order (smallKernel .fifo) midnight diskRun _ hrun 0 d hd,
      by decide +kernel, by decide +kernel⟩

end Geck.DeviceQueues
