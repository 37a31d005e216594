import Geck.BlockStore

/-!
# The process control block shared by the modules

Every module holds its own copy of a PCB and sends copies over its sockets.
C `int` fields are integers and the four general registers are 32-bit words.
-/

set_option autoImplicit false

namespace Geck.SharedPcb

inductive PcbStatus where
  | new
  | ready
  | blocked
  | running
  | exit
  deriving DecidableEq, Repr

structure Segment where
  indexPage : ℤ
  number : ℤ
  size : ℤ
  deriving DecidableEq, Repr

/-- `cpu_registers[4]`, indexed by AX, BX, CX and DX. -/
structure Registers where
  ax : UInt32
  bx : UInt32
  cx : UInt32
  dx : UInt32
  deriving DecidableEq, Repr

structure Pcb where
  processId : ℤ
  size : ℤ
  programCounter : ℤ
  clientSocket : ℤ
  cpuRegisters : Registers
  instructions : List String
  status : PcbStatus
  segmentTable : List Segment
  deriving DecidableEq, Repr

def changePcbStateTo (pcb : Pcb) (newState : PcbStatus) : Pcb := { pcb with status := newState }

/-- The digits `atoi` reads before it meets another character. -/
def digits : List Char → ℕ → ℕ
  | [], n => n
  | c::cs, n => if c.isDigit then digits cs (10*n+(c.toNat - '0'.toNat)) else n

/-- `isspace` in the C locale: the blank and what lies between tab and carriage return. -/
def isSpace (c : Char) : Bool := c = ' ' || (9 ≤ c.toNat && c.toNat ≤ 13)

/-- `strtol` in base ten: blanks, a sign, digits, clamped to a 64-bit long. -/
def strtol : List Char → ℤ
  | [] => 0
  | c::cs =>
    if isSpace c then strtol cs
    else if c = '-' then max (-(digits cs 0 : ℤ)) (-2^63)
    else if c = '+' then min (digits cs 0 : ℤ) (2^63-1)
    else min (digits (c::cs) 0 : ℤ) (2^63-1)

/-- `atoi` keeps the low 32 bits of what `strtol` reads. -/
def atoi (s : String) : ℤ := (strtol s.toList).bmod (2^32)

def segmentRows : List String → ℤ → List Segment
  | [], _ => []
  | s::ss, i => { indexPage := -1, number := i, size := atoi s } :: segmentRows ss (i+1)

def pcbCreate (instructions : List String) (clientSocket pid : ℤ) (segments : List String) : Pcb where
  processId := pid
  size := 0
  programCounter := 0
  clientSocket := clientSocket
  cpuRegisters := { ax := 0, bx := 0, cx := 0, dx := 0 }
  instructions := instructions
  status := .new
  segmentTable := segmentRows segments 0

theorem change_pcb_state_process (pcb : Pcb) (st : PcbStatus) :
    (changePcbStateTo pcb st).processId = pcb.processId := rfl

end Geck.SharedPcb
