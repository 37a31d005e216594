import Geck.MemoryContents

/-!
# The flat memory the module implements

To a process, memory is an array of bytes for each page of each segment: it
starts as the bytes of the page's swap slot and changes only by its own stores.
A session adds to the module what the CPU does: it keeps the last answer to a
frame request and builds physical addresses from it. Every operation of a
session is served, and every load answers what the flat memory answers.
-/

set_option autoImplicit false

namespace Geck.FlatMemory
open Geck.LabelledRuns Geck.BlockStore Geck.SharedPcb Geck.MemoryState Geck.MemoryPaging
open Geck.MemoryHandlers Geck.MemoryReplacement Geck.MemoryAccounting Geck.MemoryAllocation
open Geck.MemoryFaults Geck.MemorySystem Geck.MemoryContents

/-- The bytes of a page of a process, by segment, page and offset. -/
abbrev Flat := ℤ → ℤ → ℤ → ℕ → UInt8

inductive Operation where
  | kernel (request : KernelRequest)
  | frameRequest (pcb : Pcb) (segment page : ℤ)
  | movOut (pcb : Pcb) (segment page : ℤ) (offset : ℕ) (value : UInt32)
  | movIn (pcb : Pcb) (segment page : ℤ) (offset : ℕ)
  deriving DecidableEq, Repr

structure Answered where
  pid : ℤ
  segment : ℤ
  page : ℤ
  frame : ℤ
  deriving DecidableEq, Repr

structure Session where
  site : Site
  answered : Option Answered

def requestProcess : KernelRequest → ℤ
  | .initProcessStructuresMemory pcb => pcb.processId
  | .requestPageFault pcb _ _ => pcb.processId
  | .endStructures pcb => pcb.processId

/-- A request of the kernel about a process makes an answer to it an old one. -/
def stillAnswered (answered : Option Answered) (q : KernelRequest) : Option Answered :=
  answered.filter fun a => a.pid ≠ requestProcess q

/-- One operation on the module and what a load answers. -/
def serve (cfg : MemoryConfig) (s : Session) : Operation → Option (Session × Option UInt32)
  | .kernel q => do
    let (m, answer) ← attendKernel cfg s.site.memory q
    some (⟨⟨m, kernelLive s.site.live q answer⟩, stillAnswered s.answered q⟩, none)
  | .frameRequest pcb segment page => do
    let (m, answer) ← attendCpu cfg s.site.memory (.frameRequest pcb page segment)
    let answered := match answer with
      | .frameResponse frame => some ⟨pcb.processId, segment, page, frame⟩
      | _ => none
    some (⟨⟨m, s.site.live⟩, answered⟩, none)
  | .movOut pcb segment _ offset value => do
    let a ← s.answered
    let row ← listGet pcb.segmentTable segment
    let (m, _) ← attendCpu cfg s.site.memory
      (.movOut (a.frame*cfg.tamPagina+offset) value row.indexPage pcb.processId)
    some (⟨⟨m, s.site.live⟩, s.answered⟩, none)
  | .movIn pcb segment page offset => do
    let a ← s.answered
    let (m, answer) ← attendCpu cfg s.site.memory
      (.movIn (a.frame*cfg.tamPagina+offset) pcb segment page)
    match answer with
    | .movInOk value => some (⟨⟨m, s.site.live⟩, s.answered⟩, some value)
    | _ => none

def sessionStep (cfg : MemoryConfig) (s : Session) (op : Operation) : Option Session :=
  (serve cfg s op).map Prod.fst

/-- A load or store uses the frame just answered for its page and stays inside it. -/
def Addressed (cfg : MemoryConfig) (s : Session) (pcb : Pcb) (segment page : ℤ) (offset : ℕ) :
    Prop :=
  s.site.live pcb.processId = some pcb.segmentTable ∧ offset+4 ≤ cfg.tamPagina ∧
    s.answered.any (fun a => a.pid = pcb.processId ∧ a.segment = segment ∧ a.page = page)

def AllowedOperation (cfg : MemoryConfig) (s : Session) : Operation → Prop
  | .kernel q => AllowedKernel cfg s.site q
  | .frameRequest pcb segment page => s.site.live pcb.processId = some pcb.segmentTable ∧
      ((requestedPage pcb.segmentTable segment page).bind (row s.site.memory)).isSome
  | .movOut pcb segment page offset _ => Addressed cfg s pcb segment page offset
  | .movIn pcb segment page offset => Addressed cfg s pcb segment page offset

instance (cfg : MemoryConfig) (s : Session) : ∀ op, Decidable (AllowedOperation cfg s op)
  | .kernel q => inferInstanceAs (Decidable (AllowedKernel cfg s.site q))
  | .frameRequest .. => inferInstanceAs (Decidable (_ ∧ _))
  | .movOut .. => inferInstanceAs (Decidable (_ ∧ _ ∧ _))
  | .movIn .. => inferInstanceAs (Decidable (_ ∧ _ ∧ _))

/-- The bytes in the swap slots of a process. -/
def slotContents (cfg : MemoryConfig) (s : Site) (pid segment page : ℤ) : ℕ → UInt8 :=
  match (s.live pid).bind fun segments =>
    (requestedPage segments segment page).bind (row s.memory) with
  | some x => slotBytes cfg s.memory x
  | none => fun _ => 0

/-- The flat memory: an initialisation fills the pages with what their slots in
`s` hold, a store replaces four bytes, and nothing else changes any. -/
def flatServe (cfg : MemoryConfig) (s : Site) (flat : Flat) :
    Operation → Flat × Option (Fin 4 → UInt8)
  | .kernel (.initProcessStructuresMemory pcb) =>
    (Function.update flat pcb.processId (slotContents cfg s pcb.processId), none)
  | .kernel _ => (flat, none)
  | .frameRequest .. => (flat, none)
  | .movOut pcb segment page offset value =>
    (fun p g n => if p = pcb.processId ∧ g = segment ∧ n = page then
        storeWord (flat p g n) offset value else flat p g n, none)
  | .movIn pcb segment page offset =>
    (flat, some fun k => flat pcb.processId segment page (offset+k))

/-- The module serves every operation, and the bytes a load answers are those
of the flat memory. -/
def Refines (cfg : MemoryConfig) : Session → Flat → List Operation → Prop
  | _, _, [] => True
  | s, flat, op::ops => ∃ t answer, serve cfg s op = some (t, answer) ∧
      (flatServe cfg t.site flat op).2 = answer.map (fun value (k : Fin 4) => wordByte value k) ∧
      Refines cfg t (flatServe cfg t.site flat op).1 ops

structure Linked (cfg : MemoryConfig) (s : Session) (flat : Flat) : Prop where
  accounts : Accounts cfg s.site.memory s.site.live
  synced : Synced cfg s.site.memory s.site.live
  bytes : ∀ pid segments g n v x, s.site.live pid = some segments →
    requestedPage segments g n = some v → row s.site.memory v = some x →
    ∀ k < cfg.tamPagina, contents cfg s.site.memory x k = flat pid g n k
  answered : ∀ a, s.answered = some a → ∃ segments v x, s.site.live a.pid = some segments ∧
    requestedPage segments a.segment a.page = some v ∧ row s.site.memory v = some x ∧
    x.presence = true ∧ x.frameNumber = a.frame

theorem requested_injective {cfg : MemoryConfig} {m : Memory} {live : Live}
    (hold : Holdings cfg m live) {p q : ℤ} {sp sq : List Segment} {g g' n n' : ℤ} {v : PageRef}
    (hp : live p = some sp) (hq : live q = some sq) (h : requestedPage sp g n = some v)
    (h' : requestedPage sq g' n' = some v) : p = q ∧ g = g' ∧ n = n' := by
  obtain rfl := hold.disjoint p q v.table (requested_owned hp h) (requested_owned hq h')
  obtain rfl := Option.some.inj (hp.symm.trans hq)
  obtain ⟨segment, hs, hi, hn⟩ := requested_segment h
  obtain ⟨segment', hs', hi', hn'⟩ := requested_segment h'
  obtain ⟨h0, hg⟩ := list_get_some hs
  obtain ⟨h0', hg'⟩ := list_get_some hs'
  have hlt := (List.getElem?_eq_some_iff.mp hg).1
  have hgg : g.toNat = g'.toNat := by
    refine (List.getElem?_inj (by simpa using hlt) (hold.injective p sp hp)).mp ?_
    simp [hg, hg', hi, hi']
  exact ⟨rfl, by omega, by omega⟩

/-- What changes no contents and no shape keeps the bytes of the flat memory. -/
theorem bytes_kept {cfg : MemoryConfig} {m m' : Memory} {live live' : Live} {flat : Flat}
    (hc : SameContents cfg m m' live) (hshape : ∀ r x', row m' r = some x' →
      (∃ p, Owns live p r.table) → ∃ x, row m r = some x)
    (hlive : ∀ pid segments, live' pid = some segments → live pid = some segments)
    (h : ∀ pid segments g n v x, live pid = some segments → requestedPage segments g n = some v →
      row m v = some x → ∀ k < cfg.tamPagina, contents cfg m x k = flat pid g n k) :
    ∀ pid segments g n v x, live' pid = some segments → requestedPage segments g n = some v →
      row m' v = some x → ∀ k < cfg.tamPagina, contents cfg m' x k = flat pid g n k := by
  intro pid segments g n v x' hl hv hx' k hk
  have ho := requested_owned (hlive pid segments hl) hv
  obtain ⟨x, hx⟩ := hshape v x' hx' ⟨pid, ho⟩
  rw [hc pid v x x' ⟨ho, hx⟩ hx' k hk]
  exact h pid segments g n v x (hlive pid segments hl) hv hx k hk

theorem still_answered {answered : Option Answered} {q : KernelRequest} {a : Answered}
    (h : stillAnswered answered q = some a) : answered = some a ∧ a.pid ≠ requestProcess q := by
  simpa [stillAnswered, Option.filter_eq_some_iff] using h

section Kernel
variable {cfg : MemoryConfig} (valid : ValidConfig cfg) {s : Session} {flat : Flat}
  (hl : Linked cfg s flat)
include valid hl

theorem linked_fault (pcb : Pcb) (sn pn : ℤ)
    (hq : AllowedKernel cfg s.site (.requestPageFault pcb sn pn)) :
    ∃ t, serve cfg s (.kernel (.requestPageFault pcb sn pn)) = some (t, none) ∧
      Linked cfg t flat := by
  obtain ⟨⟨v, x, hv⟩, hfree⟩ := hq
  obtain ⟨m', f, m₂, c, c₂, hr, _, hserved⟩ := page_fault_served valid hl.accounts hv hfree
  obtain ⟨hc, hs⟩ := served_contents hl.accounts hl.synced hserved
  have hshape := hserved.loaded.shape.trans (room_shape hserved.room)
  refine ⟨⟨⟨m', s.site.live⟩, stillAnswered s.answered (.requestPageFault pcb sn pn)⟩,
    by simp [serve, attendKernel, hr, kernelLive], served_accounts hl.accounts hserved, hs,
    bytes_kept hc (fun r x' hx' _ => shape_row hshape.symm hx') (fun _ _ h => h) hl.bytes, ?_⟩
  intro a ha
  obtain ⟨ha, hne⟩ := still_answered ha
  obtain ⟨segments, w, y, hlive, hw, hy, hrest⟩ := hl.answered a ha
  refine ⟨segments, w, y, hlive, hw, ?_, hrest⟩
  exact (served_other_row hl.accounts hserved hne (requested_owned hlive hw)).trans hy

theorem linked_init (pcb : Pcb)
    (hq : AllowedKernel cfg s.site (.initProcessStructuresMemory pcb)) :
    ∃ t, serve cfg s (.kernel (.initProcessStructuresMemory pcb)) = some (t, none) ∧
      Linked cfg t (flatServe cfg t.site flat
        (.kernel (.initProcessStructuresMemory pcb))).1 := by
  obtain ⟨segments, m', hi, hext, ha⟩ := init_served valid hl.accounts pcb hq.1 hq.2
  have hold := hl.accounts.holdings
  have hother {p : ℤ} {table} (hp : p ≠ pcb.processId)
      (h : Function.update s.site.live pcb.processId (some segments) p = some table) :
      s.site.live p = some table := by simpa [hp] using h
  have hrow {p : ℤ} {r : PageRef} (ho : Owns s.site.live p r.table) :
      row m' r = row s.site.memory r := hext.old r (owns_lt hold ho)
  -- the pages of the new process are in swap, the others are as they were
  have hnew {r : PageRef} {x} (ho : Owns (Function.update s.site.live pcb.processId (some segments))
      pcb.processId r.table) (hx : row m' r = some x) :
      x.presence = false ∧ x.modified = false := by
    obtain ⟨table, ht, hmem⟩ := ho
    obtain rfl : segments = table := by simpa using ht
    exact hext.added r x (by exact_mod_cast hext.indexes _ hmem) hx
  have hold' {p : ℤ} {r : PageRef} {x} (hp : p ≠ pcb.processId)
      (hx : LiveRow m' (Function.update s.site.live pcb.processId (some segments)) p r x) :
      LiveRow s.site.memory s.site.live p r x := by
    have ho : Owns s.site.live p r.table := by simpa [Owns, hp] using hx.1
    exact ⟨ho, (hrow ho) ▸ hx.2⟩
  have hbytes (x : PageTableRow) : frameBytes cfg m' x = frameBytes cfg s.site.memory x ∧
      slotBytes cfg m' x = slotBytes cfg s.site.memory x := by
    simp [frameBytes, slotBytes, hext.ram, hext.swap, createClockStructure, setStructClock]
  refine ⟨⟨⟨m', Function.update s.site.live pcb.processId (some segments)⟩,
    stillAnswered s.answered (.initProcessStructuresMemory pcb)⟩, by
      simp [serve, attendKernel, hi, kernelLive], ha, ⟨?_, ?_⟩, ?_, ?_⟩
  · intro p r x hx hpres
    by_cases hp : p = pcb.processId
    · exact (hnew (hp ▸ hx.1) hx.2).2
    · exact hl.synced.absent p r x (hold' hp hx) hpres
  · intro p r x hx hpres hm k hk
    by_cases hp : p = pcb.processId
    · simp [(hnew (hp ▸ hx.1) hx.2).1] at hpres
    · rw [(hbytes x).1, (hbytes x).2]
      exact hl.synced.clean p r x (hold' hp hx) hpres hm k hk
  · intro p table g n v x hp hv hx k hk
    by_cases hpp : p = pcb.processId
    · subst hpp
      have hpres := (hnew (requested_owned hp hv) hx).1
      simp only at hp hx
      obtain rfl : segments = table := by simpa using hp
      simp [contents, hpres, flatServe, slotContents, hv, hx]
    · have hp' := hother hpp hp
      have hx' := (hrow (requested_owned hp' hv)).symm.trans hx
      simp only [flatServe, Function.update_of_ne hpp, ← hl.bytes p table g n v x hp' hv hx' k hk]
      simp only [contents, (hbytes x).1, (hbytes x).2]
  · intro a ha
    obtain ⟨ha, hne⟩ := still_answered ha
    obtain ⟨table, w, y, hlive, hw, hy, hrest⟩ := hl.answered a ha
    have hne' : a.pid ≠ pcb.processId := hne
    refine ⟨table, w, y, by simpa [hne'] using hlive, hw, ?_, hrest⟩
    exact (hrow (requested_owned hlive hw)).trans hy

omit valid

theorem linked_end (pcb : Pcb) (hq : AllowedKernel cfg s.site (.endStructures pcb)) :
    ∃ t, serve cfg s (.kernel (.endStructures pcb)) = some (t, none) ∧ Linked cfg t flat := by
  obtain ⟨memory, swap, hd, ha⟩ := end_served hl.accounts pcb hq
  have hback {p r x} (hx : LiveRow { s.site.memory with bitmapMemory := memory, bitmapSwap := swap }
      (Function.update s.site.live pcb.processId none) p r x) :
      LiveRow s.site.memory s.site.live p r x :=
    ⟨((owns_delete s.site.live pcb.processId p r.table).mp hx.1).2, hx.2⟩
  have hlive (p : ℤ) (table : List Segment)
      (h : Function.update s.site.live pcb.processId none p = some table) :
      s.site.live p = some table := by
    by_cases hp : p = pcb.processId
    · simp [hp] at h
    · simpa [hp] using h
  refine ⟨⟨⟨{ s.site.memory with bitmapMemory := memory, bitmapSwap := swap },
      Function.update s.site.live pcb.processId none⟩, stillAnswered s.answered (.endStructures pcb)⟩,
    by simp [serve, attendKernel, hd, kernelLive], ha,
    ⟨fun p r x hx => hl.synced.absent p r x (hback hx),
      fun p r x hx => hl.synced.clean p r x (hback hx)⟩,
    fun p table g n v x hp => hl.bytes p table g n v x (hlive p table hp), ?_⟩
  intro a ha
  obtain ⟨ha, hne⟩ := still_answered ha
  obtain ⟨table, w, y, hp, hw, hy, hrest⟩ := hl.answered a ha
  have hne' : a.pid ≠ pcb.processId := hne
  exact ⟨table, w, y, by simpa [hne'] using hp, hw, hy, hrest⟩

end Kernel

theorem word_byte_load (s : ℕ → UInt8) (a : ℕ) (k : Fin 4) :
    wordByte (loadWord s a) k = s (a+k) := by
  have h0 := (s a).toNat_lt
  have h1 := (s (a+1)).toNat_lt
  have h2 := (s (a+2)).toNat_lt
  have h3 := (s (a+3)).toNat_lt
  apply UInt8.toNat_inj.mp
  fin_cases k <;> simp [wordByte, loadWord] <;> omega

theorem frame_address_bound {cfg : MemoryConfig} {f : ℤ} (hf : InFrames cfg f) {offset : ℕ}
    (hoffset : offset+4 ≤ cfg.tamPagina) :
    (f*cfg.tamPagina+offset).toNat = f.toNat*cfg.tamPagina+offset ∧
      0 ≤ f*cfg.tamPagina+offset ∧ f*cfg.tamPagina+offset+4 ≤ cfg.tamMemoria := by
  obtain ⟨n, rfl⟩ := Int.eq_ofNat_of_zero_le hf.1
  have hn : n+1 ≤ cfg.tamMemoria/cfg.tamPagina := by
    have := hf.2
    unfold ramPages at this
    omega
  have hle := (Nat.mul_le_mul_right cfg.tamPagina hn).trans (Nat.div_mul_le_self ..)
  rw [Nat.succ_mul] at hle
  refine ⟨by norm_cast, by positivity, ?_⟩
  norm_cast
  omega

/-- The walk of `save_value_in_memory` stops at the page that is in the frame. -/
theorem search_row_finds {f : ℤ} {rows : List PageTableRow} (base : ℕ) {i : ℕ} {x : PageTableRow}
    (hx : rows[i]? = some x) (hf : x.frameNumber = f) (hp : x.presence = true) :
    ∃ j y, searchRow f rows base = some (base+j) ∧ rows[j]? = some y ∧ y.frameNumber = f ∧
      y.presence = true := by
  induction rows generalizing base i with
  | nil => simp at hx
  | cons r rows ih =>
    unfold searchRow
    by_cases hr : r.frameNumber ≠ f ∨ r.presence ≠ true
    · rw [if_pos hr]
      cases i with
      | zero =>
        obtain rfl : r = x := by simpa using hx
        simp [hf, hp] at hr
      | succ i =>
        obtain ⟨j, y, hj, hy⟩ := ih (base+1) (i := i) (by simpa using hx)
        exact ⟨j+1, y, by rw [hj]; congr 1; omega, by simpa using hy⟩
    · rw [if_neg hr]
      rw [not_or, not_not, not_not] at hr
      exact ⟨0, r, rfl, rfl, hr⟩

theorem update_page_use_found {cfg : MemoryConfig} {m : Memory} {live : Live}
    (hold : Holdings cfg m live) {pcb : Pcb} (hlive : live pcb.processId = some pcb.segmentTable)
    {segment page : ℤ} {v : PageRef} (hv : requestedPage pcb.segmentTable segment page = some v)
    {x : PageTableRow} (hx : row m v = some x) {c : ClockStruct}
    (hc : m.clockStructures pcb.processId = some c) :
    updatePageUse m pcb segment page = some (markUse x.frameNumber c.framesInMemory m) := by
  obtain ⟨segmentRow, hs, hi, hp⟩ := requested_segment hv
  have hlt := owns_lt hold (requested_owned hlive hv)
  have hpage : ((m.allPageTables[v.table]).pagesList)[v.page]? = some x := by
    simpa [MemoryState.row, List.getElem?_eq_getElem hlt] using hx
  simp [updatePageUse, hs, hi, table_lookup hold.ids v.table hlt, List.getElem?_eq_getElem hlt, hp,
    list_get_nat, hpage, getStructClock, hc]

section Cpu
variable {cfg : MemoryConfig} {s : Session} {flat : Flat}
  (hl : Linked cfg s flat)
include hl

theorem linked_frame_request (pcb : Pcb) (segment page : ℤ)
    (hq : AllowedOperation cfg s (.frameRequest pcb segment page)) :
    ∃ t, serve cfg s (.frameRequest pcb segment page) = some (t, none) ∧ Linked cfg t flat := by
  obtain ⟨hlive, hsome⟩ := hq
  obtain ⟨x, hx⟩ := Option.isSome_iff_exists.mp hsome
  obtain ⟨v, hv, hx⟩ := Option.bind_eq_some_iff.mp hx
  obtain ⟨row, hs, hi, hp⟩ := requested_segment hv
  have hlt := owns_lt hl.accounts.holdings (requested_owned hlive hv)
  have hpage : ((s.site.memory.allPageTables[v.table]).pagesList)[v.page]? = some x := by
    simpa [MemoryState.row, List.getElem?_eq_getElem hlt] using hx
  have hframe : getFrameNumberRAM s.site.memory pcb page segment =
      some (if x.presence then x.frameNumber else -1) := by
    simp only [getFrameNumberRAM, hs, hi, table_lookup hl.accounts.holdings.ids v.table hlt,
      List.getElem?_eq_getElem hlt, hp, list_get_nat, hpage, Option.bind_eq_bind, Option.bind_some]
    split <;> rfl
  cases hpres : x.presence with
  | false =>
    refine ⟨⟨s.site, none⟩, by simp [serve, attendCpu, hframe, hpres], hl.accounts, hl.synced,
      hl.bytes, by simp⟩
  | true =>
    have h0 := (marked_range (hl.accounts.holdings.frameMarked _ v x
      ⟨requested_owned hlive hv, hx⟩ hpres)).1
    have hne : x.frameNumber ≠ -1 := by omega
    refine ⟨⟨s.site, some ⟨pcb.processId, segment, page, x.frameNumber⟩⟩,
      by simp [serve, attendCpu, hframe, hpres, hne], hl.accounts, hl.synced, hl.bytes, ?_⟩
    intro a ha
    obtain rfl := Option.some.inj ha
    exact ⟨pcb.segmentTable, v, x, hlive, hv, hx, hpres, rfl⟩

/-- The page a load or store of the session reaches. -/
theorem addressed_page {pcb : Pcb} {segment page : ℤ} {offset : ℕ}
    (h : Addressed cfg s pcb segment page offset) :
    ∃ v x, s.answered = some ⟨pcb.processId, segment, page, x.frameNumber⟩ ∧
      requestedPage pcb.segmentTable segment page = some v ∧
      LiveRow s.site.memory s.site.live pcb.processId v x ∧ x.presence = true ∧
      InFrames cfg x.frameNumber := by
  obtain ⟨hlive, _, hany⟩ := h
  obtain ⟨a, ha, hmatch⟩ := Option.any_eq_true _ _ |>.mp hany
  simp only [decide_eq_true_eq] at hmatch
  obtain ⟨hp, rfl, rfl⟩ := hmatch
  obtain ⟨segments, v, x, hl', hv, hx, hpres, hf⟩ := hl.answered a ha
  rw [hp] at hl'
  obtain rfl := Option.some.inj (hlive.symm.trans hl')
  have hrow : LiveRow s.site.memory s.site.live pcb.processId v x := ⟨requested_owned hlive hv, hx⟩
  have hrange := marked_range (hl.accounts.holdings.frameMarked _ v x hrow hpres)
  rw [hl.accounts.holdings.memoryLength] at hrange
  refine ⟨v, x, ?_, hv, hrow, hpres, hrange⟩
  rw [ha, ← hp, hf]

theorem linked_mov_in (pcb : Pcb) (segment page : ℤ) (offset : ℕ)
    (hq : AllowedOperation cfg s (.movIn pcb segment page offset)) :
    ∃ t value, serve cfg s (.movIn pcb segment page offset) = some (t, some value) ∧
      (∀ k : Fin 4, wordByte value k = flat pcb.processId segment page (offset+k)) ∧
      Linked cfg t flat := by
  obtain ⟨v, x, ha, hv, hx, hpres, hf⟩ := addressed_page hl hq
  obtain ⟨haddr, h0, hbound⟩ := frame_address_bound hf hq.2.1
  obtain ⟨c, hc, _⟩ := hl.accounts.clocks _ _ hq.1
  have huse := update_page_use_found hl.accounts.holdings hq.1 hv hx.2 hc
  have hsame := mark_use_same_but_use x.frameNumber c.framesInMemory s.site.memory
  have hhold := mark_use_same_holdings x.frameNumber c.framesInMemory s.site.memory
  obtain ⟨hcont, hsync⟩ := same_but_use_contents hsame hl.synced
  refine ⟨⟨⟨markUse x.frameNumber c.framesInMemory s.site.memory, s.site.live⟩, s.answered⟩,
    loadWord s.site.memory.principalMemory (x.frameNumber.toNat*cfg.tamPagina+offset), ?_,
    fun k => ?_, accounts_same hhold hl.accounts, hsync,
    bytes_kept hcont (fun r x' hx' _ => shape_row hhold.shape.symm hx') (fun _ _ h => h) hl.bytes,
    fun a ha' => ?_⟩
  · simp only [serve, ha, attendCpu, huse, readValueInPrincipalMemory, hsame.ram, haddr,
      Option.bind_eq_bind, Option.bind_some]
    rw [if_pos ⟨h0, hbound⟩]
    rfl
  · have hk : offset+k < cfg.tamPagina := by
      have := hq.2.1
      omega
    rw [word_byte_load, ← hl.bytes _ _ segment page v x hq.1 hv hx.2 (offset+k) hk]
    simp [contents, hpres, frameBytes, block, Nat.add_assoc]
  · obtain ⟨segments, w, y, hlive, hw, hy, hpy, hfy⟩ := hl.answered a ha'
    obtain ⟨z, hz, he⟩ := same_holdings_row (same_holdings_symm hhold)
      ⟨requested_owned hlive hw, hy⟩
    simp only [holding, Prod.mk.injEq] at he
    exact ⟨segments, w, z, hlive, hw, hz.2, he.2.2.trans hpy, he.1.trans hfy⟩

theorem linked_mov_out (pcb : Pcb) (segment page : ℤ) (offset : ℕ) (value : UInt32)
    (hq : AllowedOperation cfg s (.movOut pcb segment page offset value)) :
    ∃ t, serve cfg s (.movOut pcb segment page offset value) = some (t, none) ∧
      Linked cfg t (flatServe cfg t.site flat (.movOut pcb segment page offset value)).1 := by
  obtain ⟨v, x, ha, hv, hx, hpres, hf⟩ := addressed_page hl hq
  obtain ⟨haddr, h0, hbound⟩ := frame_address_bound hf hq.2.1
  obtain ⟨segmentRow, hs, hi, hp⟩ := requested_segment hv
  have hold := hl.accounts.holdings
  have hlt := owns_lt hold hx.1
  have hpage : ((s.site.memory.allPageTables[v.table]).pagesList)[v.page]? = some x := by
    simpa [MemoryState.row, List.getElem?_eq_getElem hlt] using hx.2
  have hdiv : (x.frameNumber*cfg.tamPagina+offset).tdiv cfg.tamPagina = x.frameNumber := by
    have hoff := hq.2.1
    rw [Int.tdiv_eq_ediv_of_nonneg h0, Int.add_comm, Int.add_mul_ediv_right _ _ (by omega),
      Int.ediv_eq_zero_of_lt (by omega) (by omega), zero_add]
  obtain ⟨j, y, hj, hy, hfy, hpy⟩ := search_row_finds 0 hpage rfl hpres
  -- a frame holds one page, so the row found is the row of the page addressed
  have hjv : (⟨v.table, j⟩ : PageRef) = v :=
    hold.frameUnique pcb.processId pcb.processId _ v y x
      ⟨hx.1, by simpa [MemoryState.row, List.getElem?_eq_getElem hlt] using hy⟩ hx hpy hpres hfy
  have hjp : j = v.page := congrArg PageRef.page hjv
  set m' : Memory := { modifyRow s.site.memory v (fun r => { r with modified := true }) with
    principalMemory := storeWord s.site.memory.principalMemory
      (x.frameNumber.toNat*cfg.tamPagina+offset) value } with hm'
  have hsave : saveValueInMemory cfg s.site.memory (x.frameNumber*cfg.tamPagina+offset) value
      segmentRow.indexPage = some m' := by
    have hlen : v.table < (s.site.memory.allPageTables.modify v.table fun t =>
        { t with pagesList := t.pagesList.modify v.page fun r => { r with modified := true } }).length := by
      simpa using hlt
    simp only [saveValueInMemory, hi, table_lookup hold.ids v.table hlt,
      List.getElem?_eq_getElem hlt, hdiv, hj, zero_add, hjp, Option.bind_eq_bind, Option.bind_some]
    rw [if_pos ⟨h0, hbound⟩]
    simp only [modifyRow, List.getElem?_eq_getElem hlen, Option.bind_some, listReplace,
      Int.natCast_nonneg, if_true, Int.toNat_natCast, List.set_getElem_self, haddr, hm']
  have hstored : Stored cfg s.site.memory m' v x offset value := by
    have hrow (r : PageRef) : row m' r = row (modifyRow s.site.memory v _) r := rfl
    refine ⟨hx.2, ?_, fun r hr => ?_, rfl, rfl⟩
    · rw [hrow, row_modify, if_pos rfl, hx.2]
      rfl
    · rw [hrow, row_modify, if_neg hr]
  have hhold : SameHoldings s.site.memory m' := by
    have h := modify_same_holdings s.site.memory v (fun r => { r with modified := true })
      fun _ => rfl
    exact ⟨h.rows, h.shape, rfl, rfl, rfl, rfl⟩
  obtain ⟨hcont, hsync⟩ := stored_contents hold hl.synced hx hpres hq.2.1 hstored
  refine ⟨⟨⟨m', s.site.live⟩, s.answered⟩, by simp [serve, ha, hs, attendCpu, hsave],
    accounts_same hhold hl.accounts, hsync, ?_, fun a ha' => ?_⟩
  · intro p segments g n w z hlive hw hz k hk
    obtain ⟨z', hz'⟩ := shape_row hhold.shape.symm hz
    have hlz := hl.bytes p segments g n w z' hlive hw hz'
    rw [hcont p w z' z ⟨requested_owned hlive hw, hz'⟩ hz k hk]
    simp only [flatServe]
    have hkey : w = v ↔ p = pcb.processId ∧ g = segment ∧ n = page := by
      constructor
      · rintro rfl
        exact requested_injective hold hlive hq.1 hw hv
      · rintro ⟨rfl, rfl, rfl⟩
        obtain rfl := Option.some.inj (hlive.symm.trans hq.1)
        exact Option.some.inj (hw.symm.trans hv)
    simp only [hkey]
    split
    · unfold storeWord
      split
      · rfl
      · exact hlz k hk
    · exact hlz k hk
  · obtain ⟨segments, w, z, hlive, hw, hz, hpz, hfz⟩ := hl.answered a ha'
    obtain ⟨z', hz', he⟩ := same_holdings_row (same_holdings_symm hhold)
      ⟨requested_owned hlive hw, hz⟩
    simp only [holding, Prod.mk.injEq] at he
    exact ⟨segments, w, z', hlive, hw, hz'.2, he.2.2.trans hpz, he.1.trans hfz⟩

end Cpu

/-- Every allowed operation is served, answers what the flat memory answers and
leaves module and flat memory linked. -/
theorem linked_step {cfg : MemoryConfig} (valid : ValidConfig cfg) {s : Session} {flat : Flat}
    (hl : Linked cfg s flat) (op : Operation) (hq : AllowedOperation cfg s op) :
    ∃ t answer, serve cfg s op = some (t, answer) ∧
      (flatServe cfg t.site flat op).2 = answer.map (fun value (k : Fin 4) => wordByte value k) ∧
      Linked cfg t (flatServe cfg t.site flat op).1 := by
  match op, hq with
  | .kernel (.initProcessStructuresMemory pcb), hq =>
    obtain ⟨t, ht, hlt⟩ := linked_init valid hl pcb hq
    exact ⟨t, none, ht, rfl, hlt⟩
  | .kernel (.requestPageFault pcb sn pn), hq =>
    obtain ⟨t, ht, hlt⟩ := linked_fault valid hl pcb sn pn hq
    exact ⟨t, none, ht, rfl, hlt⟩
  | .kernel (.endStructures pcb), hq =>
    obtain ⟨t, ht, hlt⟩ := linked_end hl pcb hq
    exact ⟨t, none, ht, rfl, hlt⟩
  | .frameRequest pcb segment page, hq =>
    obtain ⟨t, ht, hlt⟩ := linked_frame_request hl pcb segment page hq
    exact ⟨t, none, ht, rfl, hlt⟩
  | .movOut pcb segment page offset value, hq =>
    obtain ⟨t, ht, hlt⟩ := linked_mov_out hl pcb segment page offset value hq
    exact ⟨t, none, ht, rfl, hlt⟩
  | .movIn pcb segment page offset, hq =>
    obtain ⟨t, value, ht, hbytes, hlt⟩ := linked_mov_in hl pcb segment page offset hq
    refine ⟨t, some value, ht, ?_, hlt⟩
    simp only [flatServe, Option.map_some, hbytes]

theorem linked_refines {cfg : MemoryConfig} (valid : ValidConfig cfg) (ops : List Operation)
    (s : Session) (flat : Flat) (hl : Linked cfg s flat)
    (hg : Guarded (sessionStep cfg) (AllowedOperation cfg) s ops) : Refines cfg s flat ops := by
  induction ops generalizing s flat with
  | nil => trivial
  | cons op ops ih =>
    obtain ⟨t, answer, ht, hanswer, hlt⟩ := linked_step valid hl op hg.1
    exact ⟨t, answer, ht, hanswer, ih t _ hlt (hg.2 t (by simp [sessionStep, ht]))⟩

theorem boot_linked {cfg : MemoryConfig} (valid : ValidConfig cfg) (ram swap : ℕ → UInt8)
    (flat : Flat) : Linked cfg ⟨boot cfg ram swap, none⟩ flat := by
  refine ⟨boot_accounts valid ram swap, ⟨?_, ?_⟩, ?_, by simp⟩
  · rintro p r x ⟨⟨segments, hl, _⟩, _⟩
    simp [boot] at hl
  · rintro p r x ⟨⟨segments, hl, _⟩, _⟩
    simp [boot] at hl
  · intro pid segments g n v x hl
    simp [boot] at hl

/-- From a freshly started module, any sequence of operations of any number of
processes behaves as the flat memory, whichever clock algorithm evicts pages. -/
theorem memory_refines_flat (cfg : MemoryConfig) (valid : ValidConfig cfg) (ram swap : ℕ → UInt8)
    (ops : List Operation)
    (hg : Guarded (sessionStep cfg) (AllowedOperation cfg) ⟨boot cfg ram swap, none⟩ ops)
    (flat : Flat) : Refines cfg ⟨boot cfg ram swap, none⟩ flat ops := by
  have hboot : Linked cfg ⟨boot cfg ram swap, none⟩ flat := boot_linked valid ram swap flat
  exact linked_refines valid ops _ flat hboot hg

/-- Store to the first page, evict it, load it again and read it. -/
def smallOperations : List Operation :=
  [.kernel (.initProcessStructuresMemory (smallPcb (-1))),
    .kernel (.requestPageFault (smallPcb 0) 0 0), .frameRequest (smallPcb 0) 0 0,
    .movOut (smallPcb 0) 0 0 0 7, .kernel (.requestPageFault (smallPcb 0) 0 1),
    .kernel (.requestPageFault (smallPcb 0) 0 0), .frameRequest (smallPcb 0) 0 0,
    .movIn (smallPcb 0) 0 0 0]

theorem memory_refines_flat_small :
    Refines smallConfig ⟨boot smallConfig zeros zeros, none⟩ (fun _ _ _ => zeros)
      smallOperations :=
  memory_refines_flat smallConfig small_config_valid zeros zeros smallOperations
    (by decide +kernel) _

end Geck.FlatMemory
