import Geck.MemoryIsolation

/-!
# The clock structure and the pages in memory

Two places record which pages of a process are in main memory: the presence bits
of its tables and the rows of its clock. A replacement leaves the row of its
victim behind until the new page takes it over, so the two agree between
requests only. They then name the same pages with the same frames and slots, and
the hand of a full clock never leaves its list.
-/

set_option autoImplicit false

namespace Geck.ClockMirror
open Geck.LabelledRuns Geck.BlockStore Geck.SharedPcb Geck.MemoryState Geck.MemoryPaging
open Geck.MemoryHandlers Geck.MemoryReplacement Geck.MemoryAccounting Geck.MemoryAllocation
open Geck.MemoryFaults Geck.MemorySystem Geck.MemoryIsolation

/-- The hand of `simple_clock`, a `uint16_t`, after one more row. -/
def simpleHand (cfg : MemoryConfig) (p : ℕ) : ℕ := uint16 (moveToNextPointer cfg p)

/-- The clock of a process beside its page tables. -/
structure MirrorsResidency (cfg : MemoryConfig) (m : Memory) (segments : List Segment)
    (c : ClockStruct) : Prop where
  bound : c.framesInMemory.length ≤ cfg.marcosPorProceso
  frames : (c.framesInMemory.map ClockRow.frameNumberInMemory).Nodup
  pages : (c.framesInMemory.map ClockRow.page).Nodup
  resident : ∀ r, r ∈ c.framesInMemory.map ClockRow.page ↔
    (r.table : ℤ) ∈ segments.map Segment.indexPage ∧
      ∃ x, row m r = some x ∧ x.presence = true
  places : ∀ k ∈ c.framesInMemory, ∃ x, row m k.page = some x ∧
    x.frameNumber = k.frameNumberInMemory ∧ x.swapPosition = k.frameNumberInSwap
  pointer : c.pointer < cfg.marcosPorProceso
  still : c.framesInMemory.length < cfg.marcosPorProceso → c.pointer = 0
  found : c.framesInMemory.length = cfg.marcosPorProceso → ∀ d,
    (c.framesInMemory[(simpleHand cfg)^[d] c.pointer]?).isSome ∧
      (c.framesInMemory[(moveToNextPointer cfg)^[d] c.pointer]?).isSome

theorem next_pointer_lt {cfg : MemoryConfig} {p : ℕ} (hp : p < cfg.marcosPorProceso) :
    moveToNextPointer cfg p < cfg.marcosPorProceso := by
  unfold moveToNextPointer
  split <;> omega

theorem simple_hand_lt {cfg : MemoryConfig} {p : ℕ} (hp : p < cfg.marcosPorProceso) :
    simpleHand cfg p < cfg.marcosPorProceso :=
  (Nat.mod_le _ _).trans_lt (next_pointer_lt hp)

theorem hand_stays {cfg : MemoryConfig} {hand : ℕ → ℕ}
    (hstep : ∀ p < cfg.marcosPorProceso, hand p < cfg.marcosPorProceso) {p : ℕ}
    (hp : p < cfg.marcosPorProceso) (d : ℕ) : hand^[d] p < cfg.marcosPorProceso := by
  induction d with
  | zero => exact hp
  | succ d ih =>
    rw [Function.iterate_succ_apply']
    exact hstep _ ih

theorem mirror_residency {cfg : MemoryConfig} {m : Memory} {live : Live} {pid : ℤ}
    {segments : List Segment} {c : ClockStruct} (hl : live pid = some segments)
    (hm : Mirror cfg m live pid c none) : MirrorsResidency cfg m segments c := by
  have howns (t : ℕ) : Owns live pid t ↔ (t : ℤ) ∈ segments.map Segment.indexPage := by
    simp [Owns, hl]
  have hrows (k : ClockRow) (hk : k ∈ c.framesInMemory) := hm.rows k hk (by simp)
  refine ⟨hm.bound, hm.frames, ?_, fun r => ⟨fun h => ?_, fun h => ?_⟩, fun k hk => ?_, hm.pointer,
    hm.still, fun hfull d => ?_⟩
  · -- one page has one frame, and rows of one frame are one row
    refine (List.nodup_map_iff_inj_on (List.Nodup.of_map _ hm.frames)).mpr ?_
    intro j hj k hk hjk
    obtain ⟨x, hx, _, hxf, _⟩ := hrows j hj
    obtain ⟨y, hy, _, hyf, _⟩ := hrows k hk
    obtain rfl : x = y := Option.some.inj (hx.2.symm.trans (hjk ▸ hy.2))
    exact List.inj_on_of_nodup_map hm.frames hj hk (hxf.symm.trans hyf)
  · obtain ⟨k, hk, rfl⟩ := List.mem_map.mp h
    obtain ⟨x, hx, hp, _⟩ := hrows k hk
    exact ⟨(howns _).mp hx.1, x, hx.2, hp⟩
  · obtain ⟨ho, x, hx, hp⟩ := h
    obtain ⟨k, hk, rfl, _⟩ := hm.pages r x ⟨(howns _).mpr ho, hx⟩ hp
    exact List.mem_map_of_mem hk
  · obtain ⟨x, hx, _, hf, hs⟩ := hrows k hk
    exact ⟨x, hx.2, hf, hs⟩
  · have hin := hand_stays (fun p => simple_hand_lt) hm.pointer d
    have hin' := hand_stays (fun p => next_pointer_lt) hm.pointer d
    rw [← hfull] at hin hin'
    simp [hin, hin']

section Algorithms
variable {cfg : MemoryConfig}

/-- The same sizes with an algorithm that the module knows. -/
def withClock (cfg : MemoryConfig) : MemoryConfig := { cfg with algoritmoReemplazo := .clock }

theorem accounts_with_clock {m : Memory} {live : Live} :
    Accounts (withClock cfg) m live ↔ Accounts cfg m live := by
  constructor
  all_goals
    intro ⟨hold, hclocks⟩
    refine ⟨⟨hold.ids, hold.counter, hold.inRange, hold.disjoint, hold.injective, hold.memoryLength,
      hold.swapLength, hold.frameMarked, hold.frameHeld, hold.frameUnique, hold.slotMarked,
      hold.slotHeld, hold.slotUnique⟩, fun pid segments hl => ?_⟩
    obtain ⟨c, hc, hm⟩ := hclocks pid segments hl
    exact ⟨c, hc, hm.rows, hm.pages, hm.frames, hm.bound, hm.pointer, hm.still⟩

/-- No page is loaded in frame -1, the answer of an algorithm the module does not know. -/
theorem load_page_nowhere (m : Memory) (pid : ℤ) (v : PageRef) : loadPage cfg m pid v (-1) = none := by
  simp [loadPage, writeFrame]

theorem choose_frame_with_clock (hother : cfg.algoritmoReemplazo = .other) {m m₂ : Memory} {pid f : ℤ}
    (h : chooseFrame cfg m pid = some (m₂, f)) (hf : f ≠ -1) :
    chooseFrame (withClock cfg) m pid = some (m₂, f) := by
  obtain ⟨c, hc, ⟨-, hreplaced⟩ | ⟨hbelow, hfree, rfl⟩⟩ := choose_frame_some h
  · simp only [useReplacementAlgorithm, hother, Option.some.injEq, Prod.mk.injEq] at hreplaced
    exact absurd hreplaced.2.symm hf
  · have hbelow' : c.framesInMemory.length ≠ (withClock cfg).marcosPorProceso := hbelow
    have hfree' : findPageFree (withClock cfg) m₂.bitmapMemory = some f := hfree
    rw [choose_frame_below hc hbelow', hfree']
    rfl

theorem page_fault_with_clock (hother : cfg.algoritmoReemplazo = .other) {m : Memory} {pcb : Pcb}
    {sn pn : ℤ} {result : Memory × Option KernelResponse}
    (h : requestPageFault cfg m pcb sn pn = some result) :
    requestPageFault (withClock cfg) m pcb sn pn = some result := by
  simp only [requestPageFault, Option.bind_eq_bind, Option.bind_eq_some_iff] at h ⊢
  obtain ⟨segment, hsegment, h⟩ := h
  refine ⟨segment, hsegment, ?_⟩
  cases ht : getPageTableByIndex m segment.indexPage with
  | none => simpa [ht] using h
  | some t =>
    simp only [ht] at h ⊢
    split at h
    · next hpn =>
      obtain ⟨⟨m₂, f⟩, hch, h⟩ := Option.bind_eq_some_iff.mp h
      rw [if_pos hpn]
      refine Option.bind_eq_some_iff.mpr ⟨(m₂, f), choose_frame_with_clock hother hch ?_, h⟩
      rintro rfl
      simp [load_page_nowhere] at h
    · simp at h

theorem builder_rows_with_clock (n : ℕ) (bitmap : List Bool) :
    builderRows (withClock cfg) n bitmap = builderRows cfg n bitmap := by
  induction n generalizing bitmap with
  | zero => rfl
  | succ n ih => simp only [builderRows, ih]; rfl

theorem init_segments_with_clock (segments : List Segment) (i : ℤ) (m : Memory) :
    initSegments (withClock cfg) segments i m = initSegments cfg segments i m := by
  induction segments generalizing i m with
  | nil => rfl
  | cons segment rest ih =>
    simp only [initSegments, builderPageTable, builder_rows_with_clock, ih]
    rfl

theorem step_with_clock (hother : cfg.algoritmoReemplazo = .other) {s s' : Site} {q : Request}
    (h : siteStep cfg s q = some s') : siteStep (withClock cfg) s q = some s' := by
  cases q with
  | cpu q => exact h
  | kernel q =>
    cases q with
    | requestPageFault pcb sn pn =>
      simp only [siteStep, attendKernel, Option.bind_eq_bind, Option.bind_eq_some_iff] at h ⊢
      obtain ⟨result, hr, h⟩ := h
      exact ⟨result, page_fault_with_clock hother hr, h⟩
    | initProcessStructuresMemory pcb =>
      simpa only [siteStep, attendKernel, initProcessStructures, init_segments_with_clock] using h
    | endStructures pcb => exact h

theorem accounts_reached (hpage : 0 < cfg.tamPagina) (hframes : 1 ≤ cfg.marcosPorProceso)
    (hram : 8 ∣ ramPages cfg) (hswap : 8 ∣ swapPages cfg) (ram swap : ℕ → UInt8)
    (requests : List Request) (s : Site)
    (hg : Guarded (siteStep cfg) (Allowed cfg) (boot cfg ram swap) requests)
    (h : run (siteStep cfg) (boot cfg ram swap) requests = some s) :
    Accounts cfg s.memory s.live := by
  have valid : ValidConfig (withClock cfg) := ⟨hpage, hframes, hram, hswap, by simp [withClock]⟩
  have hstep (s : Site) (q : Request) (s' : Site) (ha : Accounts cfg s.memory s.live)
      (hq : Allowed cfg s q) (h : siteStep cfg s q = some s') : Accounts cfg s'.memory s'.live := by
    by_cases hother : cfg.algoritmoReemplazo = .other
    · exact accounts_with_clock.mp (site_step_accounts valid s q s' (accounts_with_clock.mpr ha) hq
        (step_with_clock hother h))
    · exact site_step_accounts ⟨hpage, hframes, hram, hswap, hother⟩ s q s' ha hq h
  exact guarded_run (siteStep cfg) (fun s => Accounts cfg s.memory s.live) (Allowed cfg) hstep
    requests _ s (accounts_with_clock.mp (boot_accounts valid ram swap)) hg h

end Algorithms

/-- The clock of every live process mirrors which of its pages are in memory, in every state
the module reaches, and the clock loops find a row at every place of the hand. -/
theorem clock_mirrors_residency (cfg : MemoryConfig) (hpage : 0 < cfg.tamPagina)
    (hframes : 1 ≤ cfg.marcosPorProceso) (hram : 8 ∣ ramPages cfg) (hswap : 8 ∣ swapPages cfg)
    (ram swap : ℕ → UInt8) (requests : List Request) (s : Site)
    (hg : Guarded (siteStep cfg) (Allowed cfg) (boot cfg ram swap) requests)
    (h : run (siteStep cfg) (boot cfg ram swap) requests = some s) (pid : ℤ)
    (segments : List Segment) (hl : s.live pid = some segments) :
    ∃ c, s.memory.clockStructures pid = some c ∧ MirrorsResidency cfg s.memory segments c := by
  have ha := accounts_reached hpage hframes hram hswap ram swap requests s hg h
  obtain ⟨c, hc, hm⟩ := ha.clocks pid segments hl
  exact ⟨c, hc, mirror_residency hl hm⟩

theorem clock_mirrors_residency_small :
    ∃ c, smallSite.memory.clockStructures 1 = some c ∧
      MirrorsResidency smallConfig smallSite.memory (smallPcb 0).segmentTable c :=
  clock_mirrors_residency smallConfig (by decide) (by decide) (by decide) (by decide) zeros zeros
    smallRequests smallSite (by decide +kernel) small_site_reached 1 (smallPcb 0).segmentTable
    (by decide +kernel)

end Geck.ClockMirror
