import Geck.WireFormat
import Geck.KernelState

/-!
# Messages that carry a PCB

What one module sends field by field another reads back field by field: each
receiver gets the message that the model of the other modules passes as a
value. The kernel chooses what to read by the op code, which the CPU chose by
the name of the device.
-/

set_option autoImplicit false

namespace Geck.WireMessages
open Geck.SharedPcb Geck.MemoryHandlers Geck.CpuExecution Geck.KernelState Geck.OffsetReader
open Geck.WireFormat

/-- The last argument of `send_pcb_io_package`. -/
inductive IoStatus where
  | request
  | response
  deriving DecidableEq, Repr

def ioOperation (device : String) (status : IoStatus) : OperationCode :=
  if device = "PANTALLA" then if status = .request then .ioScreen else .ioScreenResponse
  else if device = "TECLADO" then if status = .request then .ioKeyboard else .ioKeyboardResponse
  else .ioDefault

/-- `send_pcb_io_package`. -/
def ioPackage (pcb : Pcb) (device parameter : String) (status : IoStatus) : Package where
  opCode := opCode (ioOperation device status)
  buffer :=
    let b := addStringToPackage (addPcbToPackage [] pcb) device
    if device = "PANTALLA" ∨ device = "TECLADO" then addStringToPackage b parameter
    else addIntToPackage b (atoi parameter)

/-- From `execute_process`. -/
def pageFaultPackage (pcb : Pcb) (segment page : ℤ) : Package where
  opCode := opCode .pageFault
  buffer := addIntToPackage (addIntToPackage (addPcbToPackage [] pcb) segment) page

/-- From `resolve_page_fault`. -/
def requestPageFaultPackage (pcb : Pcb) (segmentNumber pageNumber : ℤ) : Package where
  opCode := opCode .requestPageFault
  buffer := addIntToPackage (addIntToPackage (addPcbToPackage [] pcb) segmentNumber) pageNumber

/-- From `find_frame`. -/
def frameRequestPackage (pcb : Pcb) (pageNum segmentNumber : ℤ) : Package where
  opCode := opCode .frameRequest
  buffer := addIntToPackage (addIntToPackage (addPcbToPackage [] pcb) pageNum) segmentNumber

/-- From `fetch_value_in_memory`. -/
def movInPackage (physicalAddress : ℤ) (pcb : Pcb) (segmentNumber pageNum : ℤ) : Package where
  opCode := opCode .movIn
  buffer := addIntToPackage (addIntToPackage (addPcbToPackage (addIntToPackage [] physicalAddress)
    pcb) segmentNumber) pageNum

/-- The reads of `manage_dispatch`. -/
def dispatchReads (code : ℤ) : Reader UInt8 CpuPackage := do
  let pcb ← readPcb
  if code = opCode .ioScreen then do
    let device ← readString
    let parameter ← readString
    return .ioScreen pcb device parameter
  else if code = opCode .ioKeyboard then do
    let device ← readString
    let parameter ← readString
    return .ioKeyboard pcb device parameter
  else if code = opCode .ioDefault then do
    let device ← readString
    let parameter ← readInt
    return .ioDefault pcb device parameter
  else if code = opCode .executeInterruption then return .executeInterruption pcb
  else if code = opCode .segFault then return .segFault pcb
  else if code = opCode .pageFault then do
    let segmentNumber ← readInt
    let pageNumber ← readInt
    return .pageFault pcb segmentNumber pageNumber
  else if code = opCode .endProcess then return .endProcess pcb
  else ofOption none

def manageDispatchReceives : Reader UInt8 CpuPackage := do
  let code ← receiveOperation
  let buffer ← receiveBuffer
  within buffer (dispatchReads code)

/-- The reads of the two cases of the console that carry a PCB. -/
def screenReads (code : ℤ) : Reader UInt8 ConsoleMessage := do
  let pcb ← readPcb
  let device ← readString
  let parameter ← readString
  if code = opCode .ioScreen then return .io (.ioScreen pcb device parameter)
  else if code = opCode .ioKeyboard then return .io (.ioKeyboard pcb device parameter)
  else ofOption none

def consoleReceives : Reader UInt8 ConsoleMessage := do
  let code ← receiveOperation
  let buffer ← receiveBuffer
  within buffer (screenReads code)

def kernelRequestReads (code : ℤ) : Reader UInt8 KernelRequest := do
  let pcb ← readPcb
  if code = opCode .requestPageFault then do
    let segmentNumber ← readInt
    let pageNumber ← readInt
    return .requestPageFault pcb segmentNumber pageNumber
  else if code = opCode .endStructures then return .endStructures pcb
  else ofOption none

/-- The reads of `attend_kernel`; an initialisation is read by `receive_pcb`. -/
def attendKernelReceives : Reader UInt8 KernelRequest := do
  let code ← receiveOperation
  if code = opCode .initProcessStructuresMemory then do
    let pcb ← receivePcb
    return .initProcessStructuresMemory pcb
  else do
    let buffer ← receiveBuffer
    within buffer (kernelRequestReads code)

def cpuRequestReads (code : ℤ) : Reader UInt8 CpuRequest :=
  if code = opCode .frameRequest then do
    let pcb ← readPcb
    let pageNumber ← readInt
    let segmentNumber ← readInt
    return .frameRequest pcb pageNumber segmentNumber
  else if code = opCode .movOut then do
    let physicalAddress ← readInt
    let registerValueMovOut ← readUint32
    let segmentIndex ← readInt
    let pid ← readInt
    return .movOut physicalAddress registerValueMovOut segmentIndex pid
  else if code = opCode .movIn then do
    let physicalAddress ← readInt
    let pcbToUse ← readPcb
    let segmentNumberToUse ← readInt
    let pageNumberToUse ← readInt
    return .movIn physicalAddress pcbToUse segmentNumberToUse pageNumberToUse
  else ofOption none

/-- The reads of `attend_cpu`; a request for the configuration is a bare op code. -/
def attendCpuReceives : Reader UInt8 CpuRequest := do
  let code ← receiveOperation
  if code = opCode .sendConfig then return .sendConfig
  else do
    let buffer ← receiveBuffer
    within buffer (cpuRequestReads code)

theorem add_string_bytes (b : Buffer) (s : String) :
    addStringToPackage b s = b++stringBytes s := by
  have hlen : (textBytes s++[0]).length = s.length+1 := by
    simp [text_bytes_length]
  rw [addStringToPackage, addValueToPackage, ← hlen, List.take_length, hlen, stringBytes,
    List.append_assoc]
  push_cast
  rfl

theorem add_strings_bytes (arr : List String) (b : Buffer) :
    arr.foldl addStringToPackage b = b++arr.flatMap stringBytes := by
  induction arr generalizing b with
  | nil => simp
  | cons s arr ih => rw [List.foldl_cons, ih, add_string_bytes, List.flatMap_cons, List.append_assoc]

theorem add_segments_bytes (table : List Segment) (b : Buffer) :
    table.foldl addSegmentToPackage b = b++table.flatMap segmentBytes := by
  induction table generalizing b with
  | nil => simp
  | cons segment table ih =>
    rw [List.foldl_cons, ih, List.flatMap_cons]
    simp [addSegmentToPackage, addIntToPackage, segmentBytes]

theorem add_pcb_bytes (b : Buffer) (pcb : Pcb) : addPcbToPackage b pcb = b++pcbBytes pcb := by
  simp only [addPcbToPackage, addSegmentTableToPackage, add_segments_bytes, addIntToPackage,
    addRegistersToPackage, addUint32ToPackage, addStringArrayToPackage, add_strings_bytes,
    pcbBytes, List.append_assoc]

theorem op_code_range (op : OperationCode) : IntRange (opCode op) := by
  cases op <;> exact ⟨by decide, by decide⟩

theorem atoi_range (s : String) : IntRange (atoi s) := by
  constructor
  · exact Int.le_bmod (by decide)
  · exact Int.bmod_lt (by decide)

theorem decodes_buffer {buffer : Buffer} (h : buffer.length < 2^31) :
    Decodes receiveBuffer (intBytes buffer.length++buffer) buffer := by
  apply decodes_bind (decodes_int (int_range_length h))
  rw [if_pos (by omega), Int.toNat_natCast]
  exact decodes_cells buffer

/-- A message is its op code and a buffer that its fields are read from. -/
theorem decodes_message {β : Type} {p : Package} {reads : ℤ → Reader UInt8 β} {v : β}
    (hcode : IntRange p.opCode) (hlen : p.buffer.length < 2^31)
    (h : Decodes (reads p.opCode) p.buffer v) :
    Decodes (do
      let code ← receiveOperation
      let buffer ← receiveBuffer
      within buffer (reads code)) (serializePackage p) v := by
  rw [serializePackage, List.append_assoc]
  apply decodes_bind (decodes_int hcode)
  apply decodes_return (decodes_buffer hlen)
  have := decodes_within h []
  rwa [List.append_nil] at this

theorem io_package_bytes (pcb : Pcb) (device : String) {parameter : String}
    (hp : CText parameter) (status : IoStatus) : ∃ tail, (ioPackage pcb device parameter status).buffer =
      pcbBytes pcb++(stringBytes device++tail) ∧
    (device = "PANTALLA" ∨ device = "TECLADO" → Decodes readString tail parameter) ∧
    (¬(device = "PANTALLA" ∨ device = "TECLADO") → Decodes readInt tail (atoi parameter)) := by
  by_cases h : device = "PANTALLA" ∨ device = "TECLADO"
  · refine ⟨stringBytes parameter, ?_, fun _ => decodes_string hp, fun hn => absurd h hn⟩
    simp [ioPackage, h, add_string_bytes, add_pcb_bytes]
  · refine ⟨intBytes (atoi parameter), ?_, fun hn => absurd hn h,
      fun _ => decodes_int (atoi_range parameter)⟩
    simp [ioPackage, h, add_string_bytes, add_pcb_bytes, addIntToPackage]

section Messages
variable {pcb : Pcb} (hpcb : WirePcb pcb)
include hpcb

/-- The kernel reads a string or an integer as the CPU wrote one or the other. -/
theorem decodes_io_request {device parameter : String} (hd : CText device) (hp : CText parameter)
    (hlen : (ioPackage pcb device parameter .request).buffer.length < 2^31) :
    Decodes manageDispatchReceives (serializePackage (ioPackage pcb device parameter .request))
      (sendPcbIoPackage pcb device parameter) := by
  apply decodes_message (op_code_range _) hlen
  obtain ⟨tail, hbuffer, htext, hunits⟩ := io_package_bytes pcb device hp .request
  rw [hbuffer]
  apply decodes_bind (decodes_pcb hpcb)
  by_cases hscreen : device = "PANTALLA"
  · subst hscreen
    apply decodes_bind (decodes_string hd)
    apply decodes_return (htext (Or.inl rfl))
    exact decodes_pure _
  by_cases hkeyboard : device = "TECLADO"
  · subst hkeyboard
    apply decodes_bind (decodes_string hd)
    apply decodes_return (htext (Or.inr rfl))
    exact decodes_pure _
  · have hop : (ioPackage pcb device parameter .request).opCode = opCode .ioDefault := by
      simp [ioPackage, ioOperation, hscreen, hkeyboard]
    have hsent : sendPcbIoPackage pcb device parameter =
        .ioDefault pcb device (atoi parameter) := by
      simp [sendPcbIoPackage, hscreen, hkeyboard]
    rw [hop, hsent]
    apply decodes_bind (decodes_string hd)
    apply decodes_return (hunits (not_or.mpr ⟨hscreen, hkeyboard⟩))
    exact decodes_pure _

/-- The console reads what the kernel forwards to it. -/
theorem decodes_io_forwarded {device parameter : String} (hd : CText device) (hp : CText parameter)
    (hdevice : device = "PANTALLA" ∨ device = "TECLADO")
    (hlen : (ioPackage pcb device parameter .request).buffer.length < 2^31) :
    Decodes consoleReceives (serializePackage (ioPackage pcb device parameter .request))
      (.io (sendPcbIoPackage pcb device parameter)) := by
  apply decodes_message (op_code_range _) hlen
  obtain ⟨tail, hbuffer, htext, _⟩ := io_package_bytes pcb device hp .request
  rw [hbuffer]
  apply decodes_bind (decodes_pcb hpcb)
  apply decodes_bind (decodes_string hd)
  apply decodes_return (htext hdevice)
  rcases hdevice with rfl | rfl
  · exact decodes_pure _
  · exact decodes_pure _

variable {segment page : ℤ} (hs : IntRange segment) (hp : IntRange page)
include hs hp

theorem decodes_page_fault (hlen : (pageFaultPackage pcb segment page).buffer.length < 2^31) :
    Decodes manageDispatchReceives (serializePackage (pageFaultPackage pcb segment page))
      (.pageFault pcb segment page) := by
  apply decodes_message (op_code_range _) hlen
  simp only [pageFaultPackage, add_pcb_bytes, addIntToPackage, List.nil_append, List.append_assoc]
  apply decodes_bind (decodes_pcb hpcb)
  apply decodes_bind (decodes_int hs)
  apply decodes_return (decodes_int hp)
  exact decodes_pure _

theorem decodes_request_page_fault
    (hlen : (requestPageFaultPackage pcb segment page).buffer.length < 2^31) :
    Decodes attendKernelReceives (serializePackage (requestPageFaultPackage pcb segment page))
      (.requestPageFault pcb segment page) := by
  have h : Decodes (kernelRequestReads (opCode .requestPageFault))
      (requestPageFaultPackage pcb segment page).buffer (.requestPageFault pcb segment page) := by
    simp only [requestPageFaultPackage, add_pcb_bytes, addIntToPackage, List.nil_append,
      List.append_assoc]
    apply decodes_bind (decodes_pcb hpcb)
    apply decodes_bind (decodes_int hs)
    apply decodes_return (decodes_int hp)
    exact decodes_pure _
  rw [serializePackage, List.append_assoc]
  apply decodes_bind (decodes_int (op_code_range .requestPageFault))
  apply decodes_return (decodes_buffer hlen)
  have hwithin := decodes_within h []
  rwa [List.append_nil] at hwithin

theorem decodes_frame_request
    (hlen : (frameRequestPackage pcb page segment).buffer.length < 2^31) :
    Decodes attendCpuReceives (serializePackage (frameRequestPackage pcb page segment))
      (.frameRequest pcb page segment) := by
  have h : Decodes (cpuRequestReads (opCode .frameRequest))
      (frameRequestPackage pcb page segment).buffer (.frameRequest pcb page segment) := by
    simp only [frameRequestPackage, add_pcb_bytes, addIntToPackage, List.nil_append,
      List.append_assoc]
    apply decodes_bind (decodes_pcb hpcb)
    apply decodes_bind (decodes_int hp)
    apply decodes_return (decodes_int hs)
    exact decodes_pure _
  rw [serializePackage, List.append_assoc]
  apply decodes_bind (decodes_int (op_code_range .frameRequest))
  apply decodes_return (decodes_buffer hlen)
  have hwithin := decodes_within h []
  rwa [List.append_nil] at hwithin

theorem decodes_mov_in {address : ℤ} (ha : IntRange address)
    (hlen : (movInPackage address pcb segment page).buffer.length < 2^31) :
    Decodes attendCpuReceives (serializePackage (movInPackage address pcb segment page))
      (.movIn address pcb segment page) := by
  have h : Decodes (cpuRequestReads (opCode .movIn)) (movInPackage address pcb segment page).buffer
      (.movIn address pcb segment page) := by
    simp only [movInPackage, add_pcb_bytes, addIntToPackage, List.nil_append, List.append_assoc]
    apply decodes_bind (decodes_int ha)
    apply decodes_bind (decodes_pcb hpcb)
    apply decodes_bind (decodes_int hs)
    apply decodes_return (decodes_int hp)
    exact decodes_pure _
  rw [serializePackage, List.append_assoc]
  apply decodes_bind (decodes_int (op_code_range .movIn))
  apply decodes_return (decodes_buffer hlen)
  have hwithin := decodes_within h []
  rwa [List.append_nil] at hwithin

end Messages

/-- `receive_pcb` reads the same fields as `read_pcb`. -/
theorem receive_pcb_reads : receivePcb = (receiveBuffer >>= fun buffer => within buffer readPcb) :=
  rfl

theorem read_pcb_added {pcb : Pcb} (h : WirePcb pcb) (before after : Buffer) :
    readPcb (addPcbToPackage before pcb++after) before.length =
      some (pcb, (addPcbToPackage before pcb).length) := by
  rw [add_pcb_bytes, List.append_assoc, decodes_pcb h before after, List.length_append]

/-- What follows the PCB in the buffer, or the buffer on the socket, is not read. -/
theorem receive_pcb_added {pcb : Pcb} (h : WirePcb pcb) (after : Buffer)
    (hlen : (addPcbToPackage [] pcb++after).length < 2^31) (received rest : List UInt8) :
    (receivePcb (received++(intBytes (addPcbToPackage [] pcb++after).length++
      (addPcbToPackage [] pcb++after)++rest)) received.length).map Prod.fst =
    (readPcb (addPcbToPackage [] pcb++after) 0).map Prod.fst := by
  have hbytes : addPcbToPackage [] pcb++after = pcbBytes pcb++after := by
    rw [add_pcb_bytes, List.nil_append]
  rw [hbytes] at hlen ⊢
  have hwithin : Decodes receivePcb (intBytes (pcbBytes pcb++after).length++(pcbBytes pcb++after))
      pcb := by
    rw [receive_pcb_reads]
    apply decodes_return (decodes_buffer hlen)
    exact decodes_within (decodes_pcb h) after
  rw [hwithin received rest, decodes_start (decodes_pcb h) after]
  rfl

/-- A PCB is read back wherever it was added, and every message that carries one is received as
it was sent. -/
theorem wire_round_trips {pcb : Pcb} (hpcb : WirePcb pcb) :
    (∀ before after : Buffer, readPcb (addPcbToPackage before pcb++after) before.length =
      some (pcb, (addPcbToPackage before pcb).length)) ∧
    (∀ after : Buffer, (addPcbToPackage [] pcb++after).length < 2^31 →
      ∀ received rest : List UInt8,
        (receivePcb (received++(intBytes (addPcbToPackage [] pcb++after).length++
          (addPcbToPackage [] pcb++after)++rest)) received.length).map Prod.fst =
        (readPcb (addPcbToPackage [] pcb++after) 0).map Prod.fst) ∧
    (∀ device parameter : String, CText device → CText parameter →
      (ioPackage pcb device parameter .request).buffer.length < 2^31 →
      Decodes manageDispatchReceives (serializePackage (ioPackage pcb device parameter .request))
        (sendPcbIoPackage pcb device parameter) ∧
      (device = "PANTALLA" ∨ device = "TECLADO" → Decodes consoleReceives
        (serializePackage (ioPackage pcb device parameter .request))
        (.io (sendPcbIoPackage pcb device parameter)))) ∧
    (∀ segment page : ℤ, IntRange segment → IntRange page →
      ((pageFaultPackage pcb segment page).buffer.length < 2^31 →
        Decodes manageDispatchReceives (serializePackage (pageFaultPackage pcb segment page))
          (.pageFault pcb segment page)) ∧
      ((requestPageFaultPackage pcb segment page).buffer.length < 2^31 →
        Decodes attendKernelReceives (serializePackage (requestPageFaultPackage pcb segment page))
          (.requestPageFault pcb segment page)) ∧
      ((frameRequestPackage pcb page segment).buffer.length < 2^31 →
        Decodes attendCpuReceives (serializePackage (frameRequestPackage pcb page segment))
          (.frameRequest pcb page segment)) ∧
      ∀ address : ℤ, IntRange address →
        (movInPackage address pcb segment page).buffer.length < 2^31 →
        Decodes attendCpuReceives (serializePackage (movInPackage address pcb segment page))
          (.movIn address pcb segment page)) := by
  refine ⟨read_pcb_added hpcb, receive_pcb_added hpcb, ?_, ?_⟩
  · intro device parameter hd hp hlen
    constructor
    · exact decodes_io_request hpcb hd hp hlen
    · intro hdevice
      exact decodes_io_forwarded hpcb hd hp hdevice hlen
  · intro segment page hs hp
    refine ⟨decodes_page_fault hpcb hs hp, decodes_request_page_fault hpcb hs hp,
      decodes_frame_request hpcb hs hp, ?_⟩
    intro address ha
    exact decodes_mov_in hpcb hs hp ha

def sentPcb : Pcb where
  processId := 7
  size := 0
  programCounter := 2
  clientSocket := -1
  cpuRegisters := ⟨1, 4294967295, 256, 0⟩
  instructions := ["SET AX 1", "MOV_IN BX 64", "EXIT"]
  status := .blocked
  segmentTable := [⟨3, 0, 64⟩, ⟨-1, 1, 128⟩]

theorem sent_pcb_wire : WirePcb sentPcb := by
  constructor
  · exact ⟨by decide, by decide⟩
  · exact ⟨by decide, by decide⟩
  · exact ⟨by decide, by decide⟩
  · exact ⟨by decide, by decide⟩
  · intro s hs
    simp only [sentPcb, List.mem_cons, List.not_mem_nil, or_false] at hs
    have hlen : s.length ≤ 12 := by
      rcases hs with rfl | rfl | rfl
      · decide
      · decide
      · decide
    constructor
    · rcases hs with rfl | rfl | rfl
      · simp
      · simp
      · simp
    · omega
  · decide
  · unfold IntRange
    decide
  · decide

/-- The process between other fields, in a package between others, and in each message. -/
theorem wire_round_trips_sent : WirePcb sentPcb ∧
    readPcb (addPcbToPackage [255, 0, 7] sentPcb++[9]) 3 =
      some (sentPcb, (addPcbToPackage [255, 0, 7] sentPcb).length) ∧
    (receivePcb ([1, 2]++(intBytes (addPcbToPackage [] sentPcb++[9]).length++
      (addPcbToPackage [] sentPcb++[9]))++[3]) 2).map Prod.fst = some sentPcb ∧
    Decodes manageDispatchReceives
      (serializePackage (ioPackage sentPcb "PANTALLA" "AX" .request))
      (sendPcbIoPackage sentPcb "PANTALLA" "AX") ∧
    Decodes consoleReceives (serializePackage (ioPackage sentPcb "PANTALLA" "AX" .request))
      (.io (sendPcbIoPackage sentPcb "PANTALLA" "AX")) ∧
    Decodes manageDispatchReceives (serializePackage (pageFaultPackage sentPcb 1 3))
      (.pageFault sentPcb 1 3) ∧
    Decodes attendKernelReceives (serializePackage (requestPageFaultPackage sentPcb 1 3))
      (.requestPageFault sentPcb 1 3) ∧
    Decodes attendCpuReceives (serializePackage (frameRequestPackage sentPcb 3 1))
      (.frameRequest sentPcb 3 1) ∧
    Decodes attendCpuReceives (serializePackage (movInPackage 64 sentPcb 1 3))
      (.movIn 64 sentPcb 1 3) := by
  obtain ⟨hread, hreceive, hio, hpage⟩ := wire_round_trips sent_pcb_wire
  obtain ⟨hkernel, hconsole⟩ := hio "PANTALLA" "AX" ⟨by simp, by decide⟩ ⟨by simp, by decide⟩
    (by decide +kernel)
  obtain ⟨hfault, hrequest, hframe, hload⟩ :=
    hpage 1 3 ⟨by decide, by decide⟩ ⟨by decide, by decide⟩
  refine ⟨sent_pcb_wire, hread [255, 0, 7] [9], ?_, hkernel, hconsole (Or.inl rfl),
    hfault (by decide +kernel), hrequest (by decide +kernel), hframe (by decide +kernel),
    hload 64 ⟨by decide, by decide⟩ (by decide +kernel)⟩
  have hfirst := hreceive [9] (by decide +kernel) [1, 2] [3]
  rw [show readPcb (addPcbToPackage [] sentPcb++[9]) 0 = _ from hread [] [9]] at hfirst
  exact hfirst

end Geck.WireMessages
