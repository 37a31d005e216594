import Geck.CpuExecution
import Geck.OffsetReader

/-!
# The wire format

Packages are an op code, the length of a buffer and the buffer. Numbers take
four bytes, the low one first; strings carry their length and their NUL;
arrays carry their length. A C string is a text of characters from 1 to 255.
-/

set_option autoImplicit false

namespace Geck.WireFormat
open Geck.SharedPcb Geck.MemoryHandlers Geck.CpuExecution Geck.OffsetReader

inductive OperationCode where
  | package
  | inputOutputInterruption
  | ioScreen
  | ioKeyboard
  | ioDefault
  | ioScreenResponse
  | ioKeyboardResponse
  | ioDefaultResponse
  | initProcess
  | initStructures
  | configMemory
  | executeInterruption
  | executePcb
  | sendConfig
  | endConsole
  | endProcess
  | endStructures
  | dirFisica
  | tablaPags
  | requestValueFromPhysicsAddr
  | responseValueFromPhysicsAddr
  | initProcessStructuresMemory
  | initProcessStructuresMemoryResponse
  | initStructuresMemory
  | initStructuresMemoryResponse
  | segFault
  | endConsoleSegFault
  | frameRequest
  | frameResponse
  | requestPageFault
  | responsePageFault
  | pageFault
  | movOut
  | movOutOk
  | movOutError
  | movIn
  | movInOk
  | movInError
  deriving DecidableEq, Repr

/-- The value of the enumerator. -/
def opCode (op : OperationCode) : ℤ := op.ctorIdx

def uint32Bytes (x : UInt32) : List UInt8 :=
  [wordByte x 0, wordByte x 1, wordByte x 2, wordByte x 3]

def intBytes (x : ℤ) : List UInt8 := uint32Bytes (UInt32.ofInt x)

/-- The bytes of the characters of a string, without the NUL. -/
def textBytes (s : String) : List UInt8 := s.toList.map fun c => UInt8.ofNat c.toNat

/-- What is in `package->buffer`. -/
abbrev Buffer := List UInt8

def addIntToPackage (b : Buffer) (x : ℤ) : Buffer := b++intBytes x

def addUint32ToPackage (b : Buffer) (x : UInt32) : Buffer := b++uint32Bytes x

/-- `value` points at the characters of a string and its NUL. -/
def addValueToPackage (b : Buffer) (value : List UInt8) (size : ℕ) : Buffer :=
  b++intBytes size++value.take size

def addStringToPackage (b : Buffer) (s : String) : Buffer :=
  addValueToPackage b (textBytes s++[0]) (s.length+1)

def addStringArrayToPackage (b : Buffer) (arr : List String) : Buffer :=
  arr.foldl addStringToPackage (addIntToPackage b arr.length)

def addRegistersToPackage (b : Buffer) (r : Registers) : Buffer :=
  addUint32ToPackage (addUint32ToPackage (addUint32ToPackage (addUint32ToPackage b r.ax) r.bx)
    r.cx) r.dx

def addSegmentToPackage (b : Buffer) (segment : Segment) : Buffer :=
  addIntToPackage (addIntToPackage (addIntToPackage b segment.number) segment.size)
    segment.indexPage

def addSegmentTableToPackage (b : Buffer) (segmentTable : List Segment) : Buffer :=
  segmentTable.foldl addSegmentToPackage (addIntToPackage b segmentTable.length)

def statusCode : PcbStatus → ℤ
  | .new => 0
  | .ready => 1
  | .blocked => 2
  | .running => 3
  | .exit => 4

def addPcbToPackage (b : Buffer) (pcb : Pcb) : Buffer :=
  let b := addIntToPackage b pcb.processId
  let b := addIntToPackage b (statusCode pcb.status)
  let b := addIntToPackage b pcb.size
  let b := addStringArrayToPackage b pcb.instructions
  let b := addRegistersToPackage b pcb.cpuRegisters
  let b := addIntToPackage b pcb.programCounter
  let b := addIntToPackage b pcb.clientSocket
  addSegmentTableToPackage b pcb.segmentTable

structure Package where
  opCode : ℤ
  buffer : Buffer
  deriving DecidableEq, Repr

def serializePackage (p : Package) : List UInt8 :=
  intBytes p.opCode++intBytes p.buffer.length++p.buffer

def readUint32 : Reader UInt8 UInt32 := do
  let b ← cells 4
  return loadWord (fun k => b.getD k 0) 0

def signed (x : UInt32) : ℤ := (x.toNat : ℤ).bmod (2^32)

def readInt : Reader UInt8 ℤ := do
  let x ← readUint32
  return signed x

/-- A `char*` ends at its first NUL. -/
def cString (bytes : List UInt8) : Option String :=
  if 0 ∈ bytes then
    some (String.ofList ((bytes.takeWhile fun b => b ≠ 0).map fun b => Char.ofNat b.toNat))
  else none

def readString : Reader UInt8 String := do
  let size ← readInt
  if 0 ≤ size then do
    let valor ← cells size.toNat
    ofOption (cString valor)
  else ofOption none

def readStringArray : Reader UInt8 (List String) := do
  let length ← readInt
  if 0 ≤ length then repeated readString length.toNat else ofOption none

def readStatus : Reader UInt8 PcbStatus := do
  let code ← readInt
  ofOption ([.new, .ready, .blocked, .running, .exit].find? fun status => statusCode status = code)

def readSegment : Reader UInt8 Segment := do
  let number ← readInt
  let size ← readInt
  let indexPage ← readInt
  return { indexPage := indexPage, number := number, size := size }

def readPcb : Reader UInt8 Pcb := do
  let processId ← readInt
  let status ← readStatus
  let size ← readInt
  let instructions ← readStringArray
  let ax ← readUint32
  let bx ← readUint32
  let cx ← readUint32
  let dx ← readUint32
  let programCounter ← readInt
  let clientSocket ← readInt
  let segments ← readInt
  let segmentTable ← repeated readSegment segments.toNat
  return {
    processId := processId
    size := size
    programCounter := programCounter
    clientSocket := clientSocket
    cpuRegisters := ⟨ax, bx, cx, dx⟩
    instructions := instructions
    status := status
    segmentTable := segmentTable }

/-- The next op code of a socket. -/
def receiveOperation : Reader UInt8 ℤ := readInt

def receiveBuffer : Reader UInt8 Buffer := do
  let size ← readInt
  if 0 ≤ size then cells size.toNat else ofOption none

/-- `receive_pcb` repeats the reads of `read_pcb` on a buffer it receives. -/
def receivePcb : Reader UInt8 Pcb := do
  let buffer ← receiveBuffer
  within buffer do
    let processId ← readInt
    let status ← readStatus
    let size ← readInt
    let instructions ← readStringArray
    let ax ← readUint32
    let bx ← readUint32
    let cx ← readUint32
    let dx ← readUint32
    let programCounter ← readInt
    let clientSocket ← readInt
    let s ← readInt
    let segmentTable ← repeated readSegment s.toNat
    return {
      processId := processId
      size := size
      programCounter := programCounter
      clientSocket := clientSocket
      cpuRegisters := ⟨ax, bx, cx, dx⟩
      instructions := instructions
      status := status
      segmentTable := segmentTable }

/-- A value of type `int`. -/
def IntRange (x : ℤ) : Prop := -2^31 ≤ x ∧ x < 2^31

/-- A C string whose length with its NUL is an `int`. -/
structure CText (s : String) : Prop where
  chars : ∀ c ∈ s.toList, 0 < c.toNat ∧ c.toNat < 256
  length : s.length+1 < 2^31

/-- The fields are of their C types and the arrays of `int` lengths. -/
structure WirePcb (pcb : Pcb) : Prop where
  processId : IntRange pcb.processId
  size : IntRange pcb.size
  programCounter : IntRange pcb.programCounter
  clientSocket : IntRange pcb.clientSocket
  instructions : ∀ s ∈ pcb.instructions, CText s
  instructionCount : pcb.instructions.length < 2^31
  segments : ∀ segment ∈ pcb.segmentTable,
    IntRange segment.number ∧ IntRange segment.size ∧ IntRange segment.indexPage
  segmentCount : pcb.segmentTable.length < 2^31

def stringBytes (s : String) : List UInt8 := intBytes (s.length+1)++(textBytes s++[0])

def segmentBytes (segment : Segment) : List UInt8 :=
  intBytes segment.number++(intBytes segment.size++intBytes segment.indexPage)

def pcbBytes (pcb : Pcb) : List UInt8 :=
  intBytes pcb.processId++(intBytes (statusCode pcb.status)++(intBytes pcb.size++
  ((intBytes pcb.instructions.length++pcb.instructions.flatMap stringBytes)++
  (uint32Bytes pcb.cpuRegisters.ax++(uint32Bytes pcb.cpuRegisters.bx++
  (uint32Bytes pcb.cpuRegisters.cx++(uint32Bytes pcb.cpuRegisters.dx++
  (intBytes pcb.programCounter++(intBytes pcb.clientSocket++
  (intBytes pcb.segmentTable.length++pcb.segmentTable.flatMap segmentBytes))))))))))

theorem int_range_length {n : ℕ} (h : n < 2^31) : IntRange n := by
  constructor
  · omega
  · omega

theorem load_word_bytes (x : UInt32) :
    loadWord (fun k => (uint32Bytes x).getD k 0) 0 = x := by
  have hx := x.toNat_lt
  apply UInt32.toNat_inj.mp
  simp [loadWord, uint32Bytes, wordByte]
  omega

theorem of_int_emod (x : ℤ) : ((UInt32.ofInt x).toNat : ℤ) = x % 2^32 := by
  show ((UInt32.ofNat (x % 2^32).toNat).toNat : ℤ) = _
  rw [UInt32.toNat_ofNat']
  omega

theorem bmod_emod_range {x : ℤ} (h : IntRange x) : (x % 2^32).bmod (2^32) = x := by
  have hlo : -2^31 ≤ x := h.1
  have hhi : x < 2^31 := h.2
  rw [Int.bmod_def]
  split
  · omega
  · omega

theorem signed_of_int {x : ℤ} (h : IntRange x) : signed (UInt32.ofInt x) = x := by
  unfold signed
  rewrite [of_int_emod]
  exact bmod_emod_range h

theorem decodes_uint32 (x : UInt32) : Decodes readUint32 (uint32Bytes x) x := by
  have hcells : Decodes (cells 4) (uint32Bytes x) (uint32Bytes x) := decodes_cells (uint32Bytes x)
  apply decodes_return hcells
  rw [load_word_bytes]
  exact decodes_pure x

theorem decodes_int {x : ℤ} (h : IntRange x) : Decodes readInt (intBytes x) x := by
  apply decodes_return (decodes_uint32 (UInt32.ofInt x))
  rw [signed_of_int h]
  exact decodes_pure x

theorem text_bytes_length (s : String) : (textBytes s).length = s.length := by
  rw [textBytes, List.length_map, String.length_toList]

theorem c_string_text {s : String} (h : CText s) : cString (textBytes s++[0]) = some s := by
  have hnonzero : ∀ b ∈ textBytes s, b ≠ 0 := by
    intro b hb
    obtain ⟨c, hc, rfl⟩ := List.mem_map.mp hb
    obtain ⟨h0, h1⟩ := h.chars c hc
    intro he
    have := congrArg UInt8.toNat he
    simp at this
    omega
  have htake : (textBytes s++[0]).takeWhile (fun b => b ≠ 0) = textBytes s := by
    rw [List.takeWhile_append_of_pos]
    · simp
    · intro b hb
      simpa using hnonzero b hb
  have hchars : (textBytes s).map (fun b => Char.ofNat b.toNat) = s.toList := by
    rw [textBytes, List.map_map]
    conv => rhs; rw [← List.map_id s.toList]
    apply List.map_congr_left
    intro c hc
    have h1 := (h.chars c hc).2
    simp only [Function.comp_apply, id, UInt8.toNat_ofNat']
    rw [Nat.mod_eq_of_lt h1]
    exact Char.ofNat_toNat c
  rw [cString, if_pos (by simp), htake, hchars, String.ofList_toList]

theorem decodes_string {s : String} (h : CText s) : Decodes readString (stringBytes s) s := by
  have hlen : (textBytes s++[0]).length = ((s.length : ℤ)+1).toNat := by
    simp [text_bytes_length]
  have hrange : IntRange ((s.length : ℤ)+1) := int_range_length h.length
  apply decodes_bind (decodes_int hrange)
  rw [if_pos (by omega), ← hlen]
  apply decodes_return (decodes_cells (textBytes s++[0]))
  exact decodes_of_option (c_string_text h)

theorem decodes_string_array {arr : List String} (h : ∀ s ∈ arr, CText s)
    (hlen : arr.length < 2^31) :
    Decodes readStringArray (intBytes arr.length++arr.flatMap stringBytes) arr := by
  apply decodes_bind (decodes_int (int_range_length hlen))
  rw [if_pos (by omega), Int.toNat_natCast]
  exact decodes_repeated readString stringBytes arr fun s hs => decodes_string (h s hs)

theorem decodes_status (status : PcbStatus) :
    Decodes readStatus (intBytes (statusCode status)) status := by
  have hrange : IntRange (statusCode status) := by
    cases status <;> exact ⟨by decide, by decide⟩
  apply decodes_return (decodes_int hrange)
  apply decodes_of_option
  cases status <;> rfl

theorem decodes_segment {segment : Segment}
    (h : IntRange segment.number ∧ IntRange segment.size ∧ IntRange segment.indexPage) :
    Decodes readSegment (segmentBytes segment) segment := by
  apply decodes_bind (decodes_int h.1)
  apply decodes_bind (decodes_int h.2.1)
  apply decodes_return (decodes_int h.2.2)
  exact decodes_pure segment

theorem decodes_segments {table : List Segment} (h : ∀ segment ∈ table,
      IntRange segment.number ∧ IntRange segment.size ∧ IntRange segment.indexPage) :
    Decodes (repeated readSegment (table.length : ℤ).toNat) (table.flatMap segmentBytes) table := by
  rw [Int.toNat_natCast]
  exact decodes_repeated readSegment segmentBytes table fun segment hs =>
    decodes_segment (h segment hs)

/-- `read_pcb` reads what `add_pcb_to_package` wrote, field by field. -/
theorem decodes_pcb {pcb : Pcb} (h : WirePcb pcb) : Decodes readPcb (pcbBytes pcb) pcb := by
  apply decodes_bind (decodes_int h.processId)
  apply decodes_bind (decodes_status pcb.status)
  apply decodes_bind (decodes_int h.size)
  apply decodes_bind (decodes_string_array h.instructions h.instructionCount)
  apply decodes_bind (decodes_uint32 pcb.cpuRegisters.ax)
  apply decodes_bind (decodes_uint32 pcb.cpuRegisters.bx)
  apply decodes_bind (decodes_uint32 pcb.cpuRegisters.cx)
  apply decodes_bind (decodes_uint32 pcb.cpuRegisters.dx)
  apply decodes_bind (decodes_int h.programCounter)
  apply decodes_bind (decodes_int h.clientSocket)
  apply decodes_bind (decodes_int (int_range_length h.segmentCount))
  apply decodes_return (decodes_segments h.segments)
  exact decodes_pure pcb

end Geck.WireFormat
