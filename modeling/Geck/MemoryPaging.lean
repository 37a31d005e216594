import Geck.MemoryState

/-!
# Page tables, swap and the two clock algorithms

The translation of the functions of `memoria.c` that build and delete page
tables, move pages between main memory and swap and choose a victim. Logging
and delays are left out. The two `while(1)` loops run on fuel; the module on
replacement proves that the fuel given here is never used up.
-/

set_option autoImplicit false

namespace Geck.MemoryPaging
open Geck.BlockStore Geck.SharedPcb Geck.MemoryState

def findPageFreeFrom (bitmap : List Bool) : ℕ → ℕ → Option ℤ
  | 0, _ => some (-1)
  | n+1, i => do
    let bit ← listGet bitmap i
    if bit then findPageFreeFrom bitmap n (i+1) else some (i : ℤ)

/-- The loop bound is the number of swap pages whichever bitmap is searched. -/
def findPageFree (cfg : MemoryConfig) (bitmap : List Bool) : Option ℤ :=
  findPageFreeFrom bitmap (swapPages cfg) 0

def calculateFramesOfSegment (cfg : MemoryConfig) (sizeOfSegment : ℤ) : ℤ :=
  if sizeOfSegment.tmod cfg.tamPagina ≠ 0 then sizeOfSegment.tdiv cfg.tamPagina+1
  else sizeOfSegment.tdiv cfg.tamPagina

def emptyRow (position : ℤ) : PageTableRow where
  frameNumber := -1
  swapPosition := position
  presence := false
  use := false
  modified := false

def builderRows (cfg : MemoryConfig) : ℕ → List Bool → Option (List PageTableRow × List Bool)
  | 0, bitmap => some ([], bitmap)
  | n+1, bitmap => do
    let position ← findPageFree cfg bitmap
    -- position -1 is only logged, so this writes a bit outside the bitmap
    let bitmap ← writeBit bitmap position true
    let (rows, bitmap) ← builderRows cfg n bitmap
    some (emptyRow position::rows, bitmap)

def builderPageTable (cfg : MemoryConfig) (tablePageId sizeOfSegment segment : ℤ)
    (bitmap : List Bool) : Option (PageTable × List Bool) := do
  let (rows, bitmap) ← builderRows cfg (calculateFramesOfSegment cfg sizeOfSegment).toNat bitmap
  some ({ id := tablePageId, pagesList := rows, segmentNum := segment }, bitmap)

def createClockStructure (m : Memory) (processId : ℤ) : Memory :=
  setStructClock m processId
    { processId := (processId % 2^16).toNat, framesInMemory := [], pointer := 0 }

def initSegments (cfg : MemoryConfig) : List Segment → ℤ → Memory → Option (List Segment × Memory)
  | [], _, m => some ([], m)
  | segment::rest, i, m => do
    let (table, bitmap) ← builderPageTable cfg m.pageTablesCounter segment.size i m.bitmapSwap
    let (segments, m') ← initSegments cfg rest (i+1)
      { m with
        bitmapSwap := bitmap
        allPageTables := m.allPageTables++[table]
        pageTablesCounter := m.pageTablesCounter+1 }
    some ({ segment with indexPage := m.pageTablesCounter }::segments, m')

def initProcessStructures (cfg : MemoryConfig) (m : Memory) (pcb : Pcb) : Option (Pcb × Memory) := do
  let (segments, m') ← initSegments cfg pcb.segmentTable 0 (createClockStructure m pcb.processId)
  some ({ pcb with segmentTable := segments }, m')

def readPageSwap (cfg : MemoryConfig) (m : Memory) (position : ℤ) : Option (ℕ → UInt8) :=
  if 0 ≤ position ∧ position < swapPages cfg then
    some (block cfg.tamPagina m.swapFile position.toNat)
  else none

def writePageSwap (cfg : MemoryConfig) (m : Memory) (position : ℤ) (value : ℕ → UInt8) :
    Option Memory :=
  if 0 ≤ position ∧ position < swapPages cfg then
    some { m with swapFile := putBlock cfg.tamPagina m.swapFile position.toNat value }
  else none

/-- The page `memcpy` reads at `principal_memory + frame*TAM_PAGINA`. -/
def readFrame (cfg : MemoryConfig) (m : Memory) (frame : ℤ) : Option (ℕ → UInt8) :=
  if 0 ≤ frame ∧ frame < ramPages cfg then
    some (block cfg.tamPagina m.principalMemory frame.toNat)
  else none

def writeFrame (cfg : MemoryConfig) (m : Memory) (frame : ℤ) (value : ℕ → UInt8) : Option Memory :=
  if 0 ≤ frame ∧ frame < ramPages cfg then
    some { m with principalMemory := putBlock cfg.tamPagina m.principalMemory frame.toNat value }
  else none

def deleteRows : List PageTableRow → List Bool × List Bool → Option (List Bool × List Bool)
  | [], bitmaps => some bitmaps
  | r::rows, (memory, swap) => do
    let memory ← if r.presence then writeBit memory r.frameNumber false else some memory
    let swap ← writeBit swap r.swapPosition false
    deleteRows rows (memory, swap)

def deleteSegments (m : Memory) : List Segment → List Bool × List Bool →
    Option (List Bool × List Bool)
  | [], bitmaps => some bitmaps
  | segment::rest, bitmaps => do
    let t ← getPageTableByIndex m segment.indexPage
    let table ← m.allPageTables[t]?
    let bitmaps ← deleteRows table.pagesList bitmaps
    deleteSegments m rest bitmaps

def deleteProcess (m : Memory) (pcb : Pcb) : Option Memory := do
  let (memory, swap) ← deleteSegments m pcb.segmentTable (m.bitmapMemory, m.bitmapSwap)
  some { m with bitmapMemory := memory, bitmapSwap := swap }

def replaceByClock (cfg : MemoryConfig) (m : Memory) (page : PageRef) : Option Memory := do
  let victim ← row m page
  let m ←
    if victim.modified then do
      let value ← readFrame cfg m victim.frameNumber
      let m ← writePageSwap cfg m victim.swapPosition value
      some (modifyRow m page fun r => { r with modified := false })
    else some m
  let m := modifyRow m page fun r => { r with presence := false }
  let bitmap ← writeBit m.bitmapMemory victim.frameNumber false
  some { m with bitmapMemory := bitmap }

def moveToNextPointer (cfg : MemoryConfig) (clockPointer : ℕ) : ℕ :=
  if clockPointer+1 = cfg.marcosPorProceso then 0 else clockPointer+1

def clearUse (m : Memory) (page : PageRef) : Memory :=
  modifyRow m page fun r => { r with use := false }

/-- The loop of `simple_clock` over the rows of the clock: the new state, the
pointer to store and the victim's frame. The pointer is a `uint16_t`. -/
def simpleClockLoop (cfg : MemoryConfig) (rows : List ClockRow) :
    ℕ → Memory → ℕ → Option (Memory × ℕ × ℤ)
  | 0, _, _ => none
  | fuel+1, m, clockPointer => do
    let clockRow ← rows[clockPointer]?
    let page ← row m clockRow.page
    let next := uint16 (moveToNextPointer cfg clockPointer)
    if page.use = false then do
      let m ← replaceByClock cfg m clockRow.page
      some (m, next, clockRow.frameNumberInMemory)
    else simpleClockLoop cfg rows fuel (clearUse m clockRow.page) next

def simpleClock (cfg : MemoryConfig) (m : Memory) (processId : ℤ) : Option (Memory × ℤ) := do
  let clock ← getStructClock m processId
  let (m, clockPointer, frame) ← simpleClockLoop cfg clock.framesInMemory
    (clock.framesInMemory.length+1) m clock.pointer
  some (setStructClock m processId { clock with pointer := clockPointer }, frame)

inductive ClockPass where
  | first
  | second
  deriving DecidableEq, Repr

/-- The two inner loops of `modified_clock`: the first pass looks for (0,0), the
second for (0,1) and clears use bits; each ends where `clock->pointer` stands. -/
def modifiedClockLoop (cfg : MemoryConfig) (rows : List ClockRow) (start : ℕ) :
    ℕ → ClockPass → Memory → ℕ → Option (Memory × ℕ × ℤ)
  | 0, _, _, _ => none
  | fuel+1, pass, m, clockPointer => do
    let clockRow ← rows[clockPointer]?
    let page ← row m clockRow.page
    let next := moveToNextPointer cfg clockPointer
    if page.use = false ∧ page.modified = decide (pass = .second) then do
      let m ← replaceByClock cfg m clockRow.page
      some (m, uint16 next, clockRow.frameNumberInMemory)
    else
      match pass with
      | .first =>
        modifiedClockLoop cfg rows start fuel (if next = start then .second else .first) m next
      | .second =>
        modifiedClockLoop cfg rows start fuel (if next = start then .first else .second)
          (clearUse m clockRow.page) next

def modifiedClock (cfg : MemoryConfig) (m : Memory) (processId : ℤ) : Option (Memory × ℤ) := do
  let clock ← getStructClock m processId
  let (m, clockPointer, frame) ← modifiedClockLoop cfg clock.framesInMemory clock.pointer
    (4*clock.framesInMemory.length) .first m clock.pointer
  some (setStructClock m processId { clock with pointer := clockPointer }, frame)

def useReplacementAlgorithm (cfg : MemoryConfig) (m : Memory) (processId : ℤ) :
    Option (Memory × ℤ) :=
  match cfg.algoritmoReemplazo with
  | .clockM => modifiedClock cfg m processId
  | .clock => simpleClock cfg m processId
  | .other => some (m, -1)

def addPageRows (frameNumber : ℤ) (page : PageRef) (frameNumberInSwap : ℤ) :
    List ClockRow → List ClockRow
  | [] => [{ frameNumberInMemory := frameNumber, page := page,
             frameNumberInSwap := frameNumberInSwap }]
  | c::rows =>
    if frameNumber = c.frameNumberInMemory then
      { c with page := page, frameNumberInSwap := frameNumberInSwap }::rows
    else c::addPageRows frameNumber page frameNumberInSwap rows

def addPageToClockStructure (m : Memory) (processId frameNumber : ℤ) (page : PageRef)
    (frameNumberInSwap : ℤ) : Option Memory := do
  let clock ← getStructClock m processId
  some (setStructClock m processId
    { clock with
      framesInMemory := addPageRows frameNumber page frameNumberInSwap clock.framesInMemory })

def framesInMemoryOfProcess (m : Memory) (processId : ℤ) : Option ℕ := do
  let clock ← getStructClock m processId
  some clock.framesInMemory.length

end Geck.MemoryPaging
