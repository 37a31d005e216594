import Geck.SharedPcb

/-!
# The state of the memory module

Page tables stay in `all_page_tables` for ever, so a row is addressed by the
position of its table and its index in it; such a pair stands for the
`Page_table_row*` that the clock structures share with the tables. Main memory
and the swap file are stores of bytes in blocks of one page. A function gives
`none` where the C code would dereference a null pointer, leave an allocated
block or a bitmap, or use data that was never read.
-/

set_option autoImplicit false

namespace Geck.MemoryState
open Geck.BlockStore Geck.SharedPcb

inductive ReplacementAlgorithm where
  | clock
  | clockM
  | other
  deriving DecidableEq, Repr

structure MemoryConfig where
  tamMemoria : ℕ
  tamPagina : ℕ
  entradasPorTabla : ℕ
  algoritmoReemplazo : ReplacementAlgorithm
  marcosPorProceso : ℕ
  tamanioSwap : ℕ
  deriving DecidableEq, Repr

def ramPages (cfg : MemoryConfig) : ℕ := cfg.tamMemoria/cfg.tamPagina

def swapPages (cfg : MemoryConfig) : ℕ := cfg.tamanioSwap/cfg.tamPagina

structure PageTableRow where
  frameNumber : ℤ
  swapPosition : ℤ
  presence : Bool
  use : Bool
  modified : Bool
  deriving DecidableEq, Repr

structure PageTable where
  id : ℤ
  pagesList : List PageTableRow
  segmentNum : ℤ
  deriving DecidableEq, Repr

structure PageRef where
  table : ℕ
  page : ℕ
  deriving DecidableEq, Repr

structure ClockRow where
  frameNumberInMemory : ℤ
  page : PageRef
  frameNumberInSwap : ℤ
  deriving DecidableEq, Repr

structure ClockStruct where
  processId : ℕ
  framesInMemory : List ClockRow
  pointer : ℕ
  deriving DecidableEq, Repr

structure Memory where
  principalMemory : ℕ → UInt8
  swapFile : ℕ → UInt8
  bitmapMemory : List Bool
  bitmapSwap : List Bool
  allPageTables : List PageTable
  pageTablesCounter : ℤ
  clockStructures : ℤ → Option ClockStruct

/-- A value stored in a `uint16_t`. -/
def uint16 (n : ℕ) : ℕ := n % 2^16

/-- `create_bitmap` takes a number of bytes. -/
def createBitmap (entries : ℕ) : List Bool := List.replicate (entries*8) false

/-- The module after `init_global_lists` and `init_principal_memory_and_swap_file`.
The bytes of `malloc` and of the swap file's first contents are arbitrary. -/
def initMemory (cfg : MemoryConfig) (ram swap : ℕ → UInt8) : Memory where
  principalMemory := ram
  swapFile := swap
  bitmapMemory := createBitmap (cfg.tamMemoria/cfg.tamPagina/8)
  bitmapSwap := createBitmap (cfg.tamanioSwap/cfg.tamPagina/8)
  allPageTables := []
  pageTablesCounter := 0
  clockStructures := fun _ => none

/-- The search returns the position of the first table with that id. -/
def getPageTableByIndex (m : Memory) (index : ℤ) : Option ℕ :=
  m.allPageTables.findIdx? fun t => t.id = index

def row (m : Memory) (r : PageRef) : Option PageTableRow := do
  let table ← m.allPageTables[r.table]?
  table.pagesList[r.page]?

def modifyRow (m : Memory) (r : PageRef) (f : PageTableRow → PageTableRow) : Memory :=
  { m with allPageTables := m.allPageTables.modify r.table fun t =>
      { t with pagesList := t.pagesList.modify r.page f } }

def getStructClock (m : Memory) (processId : ℤ) : Option ClockStruct :=
  m.clockStructures processId

def setStructClock (m : Memory) (processId : ℤ) (clock : ClockStruct) : Memory :=
  { m with clockStructures := Function.update m.clockStructures processId (some clock) }

/-- The page ids and lengths of the tables: what row updates leave alone. -/
def tableShape (m : Memory) : List (ℤ × ℤ × ℕ) :=
  m.allPageTables.map fun t => (t.id, t.segmentNum, t.pagesList.length)

theorem row_modify (m : Memory) (r q : PageRef) (f : PageTableRow → PageTableRow) :
    row (modifyRow m r f) q = if q = r then (row m q).map f else row m q := by
  obtain ⟨t, i⟩ := r
  obtain ⟨u, j⟩ := q
  simp only [row, modifyRow, List.getElem?_modify, PageRef.mk.injEq]
  by_cases ht : t = u
  · subst ht
    by_cases hi : i = j
    · subst hi
      cases h : m.allPageTables[t]? <;> simp
    · have hi' : j ≠ i := fun h => hi h.symm
      cases h : m.allPageTables[t]? <;> simp [hi, hi']
  · have ht' : u ≠ t := fun h => ht h.symm
    simp [ht, ht']

@[simp] theorem modify_ram (m : Memory) (r : PageRef) (f : PageTableRow → PageTableRow) :
    (modifyRow m r f).principalMemory = m.principalMemory := rfl

@[simp] theorem modify_swap (m : Memory) (r : PageRef) (f : PageTableRow → PageTableRow) :
    (modifyRow m r f).swapFile = m.swapFile := rfl

@[simp] theorem modify_memory_bits (m : Memory) (r : PageRef) (f : PageTableRow → PageTableRow) :
    (modifyRow m r f).bitmapMemory = m.bitmapMemory := rfl

@[simp] theorem modify_swap_bits (m : Memory) (r : PageRef) (f : PageTableRow → PageTableRow) :
    (modifyRow m r f).bitmapSwap = m.bitmapSwap := rfl

@[simp] theorem modify_clocks (m : Memory) (r : PageRef) (f : PageTableRow → PageTableRow) :
    (modifyRow m r f).clockStructures = m.clockStructures := rfl

@[simp] theorem modify_counter (m : Memory) (r : PageRef) (f : PageTableRow → PageTableRow) :
    (modifyRow m r f).pageTablesCounter = m.pageTablesCounter := rfl

theorem shape_modify (m : Memory) (r : PageRef) (f : PageTableRow → PageTableRow) :
    tableShape (modifyRow m r f) = tableShape m := by
  unfold tableShape modifyRow
  apply List.ext_getElem?
  intro i
  simp only [List.getElem?_map, List.getElem?_modify]
  cases h : m.allPageTables[i]? with
  | none => rfl
  | some t => by_cases hi : r.table = i <;> simp [hi]

theorem shape_length (m : Memory) : (tableShape m).length = m.allPageTables.length := by
  simp [tableShape]

theorem row_isSome_shape {m m' : Memory} (h : tableShape m' = tableShape m) (r : PageRef) :
    (row m' r).isSome = (row m r).isSome := by
  have key : ∀ n : Memory, (row n r).isSome =
      ((tableShape n)[r.table]?.any fun t => r.page < t.2.2) := by
    intro n
    unfold row tableShape
    rw [List.getElem?_map]
    cases n.allPageTables[r.table]? with
    | none => rfl
    | some t =>
      apply Bool.eq_iff_iff.mpr
      simp [Option.isSome_iff_exists, List.getElem?_eq_some_iff]
  rw [key, key, h]

end Geck.MemoryState
