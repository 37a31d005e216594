import Geck.CpuTranslation

/-!
# The instruction cycle of the CPU

The global variables of the module are one record. What memory would answer and
what the clock reads are inputs, used only where the code asks. An instruction
gives `none` where the code would read a missing operand, a missing segment or
a value memory never sent.
-/

set_option autoImplicit false

namespace Geck.CpuExecution
open Geck.BlockStore Geck.SharedPcb Geck.MemoryHandlers Geck.CpuTranslation

structure Cpu where
  registers : Registers
  endProcess : Bool
  inputOuput : Bool
  checkInterruption : Bool
  pageFault : Bool
  sigsegv : Bool
  device : String
  parameter : String
  numeroSegmentoGlobalPageFault : ℤ
  numeroPaginaGlobalPageFault : ℤ
  tlb : List RowTlb

inductive InstructionKey where
  | set
  | add
  | io
  | movIn
  | movOut
  | exit
  | badkey
  deriving DecidableEq, Repr

def lookuptable : List (String × InstructionKey) :=
  [("SET", .set), ("ADD", .add), ("I/O", .io), ("MOV_IN", .movIn), ("MOV_OUT", .movOut),
    ("EXIT", .exit)]

def keyfromstring (key : String) : InstructionKey :=
  match lookuptable.find? fun sym => sym.1 = key with
  | some sym => sym.2
  | none => .badkey

def modifyRegister (r : Registers) (name : String) (f : UInt32 → UInt32) : Registers :=
  if name = "AX" then { r with ax := f r.ax }
  else if name = "BX" then { r with bx := f r.bx }
  else if name = "CX" then { r with cx := f r.cx }
  else if name = "DX" then { r with dx := f r.dx }
  else r

/-- `SET` adds to the register; it does not overwrite it. -/
def addValueToRegister (r : Registers) (registerToModify valueToAdd : String) : Registers :=
  modifyRegister r registerToModify fun v => v+UInt32.ofInt (atoi valueToAdd)

def storeValueInRegister (r : Registers) (registerMovIn : String) (value : UInt32) : Registers :=
  modifyRegister r registerMovIn fun _ => value

def findValueOfRegister (r : Registers) (name : String) : UInt32 :=
  if name = "AX" then r.ax
  else if name = "BX" then r.bx
  else if name = "CX" then r.cx
  else if name = "DX" then r.dx
  else 0

/-- `string_itoa` takes an `int`, so it prints the value as a signed number. -/
def stringItoa (value : UInt32) : String := toString ((value.toNat : ℤ).bmod (2^32))

def addTwoRegisters (r : Registers) (registerToModify source : String) : Registers :=
  addValueToRegister r registerToModify (stringItoa (findValueOfRegister r source))

/-- What memory answers to `FRAME_REQUEST` and to `MOV_IN`, if it is asked. -/
structure Answers where
  frame : CpuResponse
  value : CpuResponse
  times : Readings
  deriving DecidableEq, Repr

/-- A `MOV` that reached memory. -/
inductive Access where
  | load (params : LogicalAddressParameters) (physicalAddress : ℤ) (value : UInt32)
  | store (params : LogicalAddressParameters) (physicalAddress : ℤ) (value : UInt32)
  deriving DecidableEq, Repr

/-- The part `MOV_IN` and `MOV_OUT` share: translate the address and hand it to
`access`, unless there is a segmentation fault or a page fault. -/
def withAddress (cfg : CpuConfig) (answers : Answers) (cpu : Cpu) (pcb : Pcb) (logicalAddress : ℤ)
    (access : Cpu → LogicalAddressParameters → ℤ → Option (Cpu × Option Access)) :
    Option (Cpu × Option Access) := do
  let (params, outside) ← translateLogicalAddress cfg logicalAddress pcb
  let cpu := if outside then { cpu with sigsegv := true } else cpu
  if cpu.sigsegv then some (cpu, none)
  else do
    let (physicalAddress, tlb, fault) ← buildPhysicalAddress cfg cpu.tlb (some answers.frame)
      answers.times params pcb
    let cpu := { cpu with tlb := tlb }
    let cpu := if fault then { cpu with
      pageFault := true
      numeroSegmentoGlobalPageFault := params.segmentNumber
      numeroPaginaGlobalPageFault := params.pageNum } else cpu
    if physicalAddress = -1 then some (cpu, none) else access cpu params physicalAddress

/-- `fetch_value_in_memory` and `store_value_in_register`. -/
def movInAccess (answers : Answers) (register : String) (cpu : Cpu)
    (params : LogicalAddressParameters) (physicalAddress : ℤ) : Option (Cpu × Option Access) :=
  match answers.value with
  | .movInOk value => some ({ cpu with
      registers := storeValueInRegister cpu.registers register value },
      some (.load params physicalAddress value))
  | _ => none

/-- `write_value`, with the page table index read from the segment table. -/
def movOutAccess (pcb : Pcb) (register : String) (cpu : Cpu) (params : LogicalAddressParameters)
    (physicalAddress : ℤ) : Option (Cpu × Option Access) := do
  let _ ← listGet pcb.segmentTable params.segmentNumber
  some (cpu, some (.store params physicalAddress (findValueOfRegister cpu.registers register)))

def executeInstruction (cfg : CpuConfig) (answers : Answers) (cpu : Cpu) (pcb : Pcb)
    (instruction : List String) : Option (Cpu × Option Access) := do
  let name ← instruction[0]?
  match keyfromstring name with
  | .set => do
    let register ← instruction[1]?
    let value ← instruction[2]?
    some ({ cpu with registers := addValueToRegister cpu.registers register value }, none)
  | .add => do
    let register ← instruction[1]?
    let source ← instruction[2]?
    some ({ cpu with registers := addTwoRegisters cpu.registers register source }, none)
  | .io => do
    let device ← instruction[1]?
    let parameter ← instruction[2]?
    some ({ cpu with device := device, parameter := parameter, inputOuput := true }, none)
  | .movIn => do
    let register ← instruction[1]?
    let logicalAddress ← instruction[2]?
    withAddress cfg answers cpu pcb (atoi logicalAddress) (movInAccess answers register)
  | .movOut => do
    let logicalAddress ← instruction[1]?
    let register ← instruction[2]?
    withAddress cfg answers cpu pcb (atoi logicalAddress) (movOutAccess pcb register)
  | .exit => some ({ cpu with endProcess := true }, none)
  | .badkey => some (cpu, none)

def fetchNextInstructionToExecute (pcb : Pcb) : Option String :=
  listGet pcb.instructions pcb.programCounter

def decode (cfg : CpuConfig) (linea : String) : List String := cfg.stringSplit linea " "

def updateProgramCounter (pcb : Pcb) : Pcb := { pcb with programCounter := pcb.programCounter+1 }

/-- The test of the loop of `execute_process`. -/
def keepsRunning (cpu : Cpu) : Bool :=
  !cpu.checkInterruption && !cpu.endProcess && !cpu.inputOuput && !cpu.pageFault && !cpu.sigsegv

/-- One turn of the loop of `execute_process`. -/
def instructionCycle (cfg : CpuConfig) (answers : Answers) (cpu : Cpu) (pcb : Pcb) :
    Option (Cpu × Pcb × Option Access) := do
  let instruction ← fetchNextInstructionToExecute pcb
  let (cpu, access) ← executeInstruction cfg answers cpu pcb (decode cfg instruction)
  some (cpu, if cpu.pageFault then pcb else updateProgramCounter pcb, access)

def saveContextPcb (cpu : Cpu) (pcb : Pcb) : Pcb := { pcb with cpuRegisters := cpu.registers }

def setRegisters (cpu : Cpu) (pcb : Pcb) : Cpu := { cpu with registers := pcb.cpuRegisters }

/-- The packages `execute_process` sends back to the kernel. -/
inductive CpuPackage where
  | endProcess (pcb : Pcb)
  | ioScreen (pcb : Pcb) (device parameter : String)
  | ioKeyboard (pcb : Pcb) (device parameter : String)
  | ioDefault (pcb : Pcb) (device : String) (units : ℤ)
  | pageFault (pcb : Pcb) (segment page : ℤ)
  | segFault (pcb : Pcb)
  | executeInterruption (pcb : Pcb)
  deriving DecidableEq, Repr

/-- `send_pcb_io_package` with status `REQUEST`. -/
def sendPcbIoPackage (pcb : Pcb) (device parameter : String) : CpuPackage :=
  if device = "PANTALLA" then .ioScreen pcb device parameter
  else if device = "TECLADO" then .ioKeyboard pcb device parameter
  else .ioDefault pcb device (atoi parameter)

/-- The chain of tests after the loop: the flags it clears and the package it sends. -/
def leaveProcess (cpu : Cpu) (pcb : Pcb) : Cpu × Option CpuPackage :=
  if cpu.endProcess then
    ({ cpu with endProcess := false, checkInterruption := false }, some (.endProcess pcb))
  else if cpu.inputOuput then
    ({ cpu with inputOuput := false, checkInterruption := false },
      some (sendPcbIoPackage pcb cpu.device cpu.parameter))
  else if cpu.pageFault then
    ({ cpu with pageFault := false, checkInterruption := false },
      some (.pageFault pcb cpu.numeroSegmentoGlobalPageFault cpu.numeroPaginaGlobalPageFault))
  else if cpu.sigsegv then
    ({ cpu with sigsegv := false, checkInterruption := false }, some (.segFault pcb))
  else if cpu.checkInterruption then
    ({ cpu with checkInterruption := false }, some (.executeInterruption pcb))
  else (cpu, none)

end Geck.CpuExecution
