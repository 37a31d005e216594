import Geck.TlbCoherence
import Geck.ReferenceHistory

/-!
# What the TLB remembers

A translation that finds its page in the TLB refreshes the row; one that memory
answers adds a row over another one; one that faults changes nothing. The rows
in use are therefore a part of the history of translations: under FIFO the end
of the list of insertions, under LRU the last distinct pages referenced. The
rows of `init_tlb` are replaced first.
-/

set_option autoImplicit false

namespace Geck.TlbHistory
open Geck.LabelledRuns Geck.BlockStore Geck.SharedPcb Geck.MemoryState Geck.MemoryHandlers
open Geck.MemoryFaults Geck.MemoryIsolation Geck.CpuTranslation Geck.TlbCoherence
open Geck.ReferenceHistory

structure Key where
  processId : ℤ
  segment : ℤ
  page : ℤ
  deriving DecidableEq, Repr

def rowKey (row : RowTlb) : Key := ⟨row.processId, row.segment, row.page⟩

/-- The key of the rows `init_tlb` adds. -/
def noKey : Key := ⟨-1, -1, -1⟩

def pageRows (tlb : List RowTlb) : List RowTlb := tlb.filter fun row => rowKey row ≠ noKey

/-- `init_tlb` reads the clock once for each row. -/
def initRows (times : List TimeVal) : List RowTlb := times.map (newRow (-1) (-1) (-1) (-1))

theorem init_tlb_rows (cfg : CpuConfig) (time : TimeVal) :
    initTlb cfg time = initRows (List.replicate cfg.entradasTlb time) := by
  simp [initTlb, initRows]

/-- A call of `build_physical_address` while memory is in that state. -/
structure Call where
  memory : Memory
  pcb : Pcb
  params : LogicalAddressParameters
  times : Readings

def Call.key (c : Call) : Key := ⟨c.pcb.processId, c.params.segmentNumber, c.params.pageNum⟩

def Call.readings (c : Call) : List TimeVal := [c.times.lookup, c.times.added]

/-- The TLB with the pages of all translations that succeeded and of all rows added. -/
structure Translations where
  tlb : List RowTlb
  references : List Key
  insertions : List Key

def callStep (cpu : CpuConfig) (cfg : MemoryConfig) (s : Translations) (c : Call) :
    Option Translations := do
  let (found, _) ← presentInTlb cpu s.tlb c.params.pageNum c.params.segmentNumber c.pcb.processId
    c.times.lookup
  let (_, tlb, fault) ← buildPhysicalAddress cpu s.tlb (frameAnswer cfg c.memory c.pcb c.params)
    c.times c.params c.pcb
  some {
    tlb := tlb
    references := if fault then s.references else s.references++[c.key]
    insertions := if fault ∨ found ≠ -1 then s.insertions else s.insertions++[c.key] }

def earlier (t u : TimeVal) : Prop := t.sec < u.sec ∨ (t.sec = u.sec ∧ t.usec < u.usec)

instance (t u : TimeVal) : Decidable (earlier t u) := inferInstanceAs (Decidable (_ ∨ _))

/-- A call takes one reading at most, so the other one can be any. -/
structure Increasing (start : List TimeVal) (calls : List Call) : Prop where
  start : ∀ t ∈ start, ∀ c ∈ calls, ∀ u ∈ c.readings, earlier t u
  calls : calls.Pairwise fun c d => ∀ t ∈ c.readings, ∀ u ∈ d.readings, earlier t u

/-- `list_sort` gives a permutation in which no element goes before an earlier one. -/
structure ListSorts (cpu : CpuConfig) : Prop where
  sorts : Sorts cpu
  ordered : ∀ before : RowTlb → RowTlb → Bool,
    (∀ a b c, before b a = false → before c b = false → before c a = false) →
    (∀ a b, before a b = false ∨ before b a = false) →
    ∀ rows, (cpu.listSort before rows).Pairwise fun a b => before b a = false

section Times

theorem compare_earlier (a b : RowTlb) :
    compareLastReference a b = true ↔ earlier a.lastReference b.lastReference := by
  unfold compareLastReference earlier
  split
  · next h => simp [h]
  · next h => simp [h]

theorem compare_later (a b : RowTlb) :
    compareLastReference a b = false ↔ ¬earlier a.lastReference b.lastReference := by
  rw [← compare_earlier, Bool.not_eq_true]

theorem sorted_references {cpu : CpuConfig} (hsort : ListSorts cpu) (rows : List RowTlb) :
    (cpu.listSort compareLastReference rows).Pairwise fun a b =>
      ¬earlier b.lastReference a.lastReference := by
  have h := hsort.ordered compareLastReference
    (by simp only [compare_later, earlier]; omega) (by simp only [compare_later, earlier]; omega) rows
  simpa only [compare_later] using h

end Times

section Lookup
variable {cpu : CpuConfig} {tlb : List RowTlb}

theorem holds_key (row : RowTlb) (page segment pid : ℤ) :
    row.holds page segment pid = true ↔ rowKey row = ⟨pid, segment, page⟩ := by
  simp only [RowTlb.holds, rowKey, Bool.and_eq_true, decide_eq_true_eq, Key.mk.injEq]
  tauto

theorem present_from_cases (page segment pid : ℤ) (time : TimeVal) (n i : ℕ)
    (hn : i+n = tlb.length) :
    (presentInTlbFrom tlb page segment pid time n i = some (-1, tlb) ∧
      ∀ j, ∀ hj : j < tlb.length, i ≤ j → rowKey tlb[j] ≠ ⟨pid, segment, page⟩) ∨
    ∃ j, ∃ hj : j < tlb.length, rowKey tlb[j] = ⟨pid, segment, page⟩ ∧
      presentInTlbFrom tlb page segment pid time n i =
        some (tlb[j].frame, tlb.set j { tlb[j] with lastReference := time }) := by
  induction n generalizing i with
  | zero => exact Or.inl ⟨rfl, fun j hj hij => by omega⟩
  | succ n ih =>
    have hi : i < tlb.length := by omega
    simp only [presentInTlbFrom, List.getElem?_eq_getElem hi, Option.bind_eq_bind, Option.bind_some]
    by_cases hrow : tlb[i].holds page segment pid
    · rw [if_pos hrow]
      exact Or.inr ⟨i, hi, (holds_key _ _ _ _).mp hrow, rfl⟩
    · rw [if_neg hrow]
      obtain ⟨hnone, hothers⟩ | hfound := ih (i+1) (by omega)
      · refine Or.inl ⟨hnone, fun j hj hij => ?_⟩
        obtain rfl | hlt := hij.eq_or_lt
        · exact fun hkey => hrow ((holds_key _ _ _ _).mpr hkey)
        · exact hothers j hj hlt
      · exact Or.inr hfound

theorem present_cases (page segment pid : ℤ) (time : TimeVal) (hlen : tlb.length = cpu.entradasTlb) :
    (presentInTlb cpu tlb page segment pid time = some (-1, tlb) ∧
      ∀ row ∈ tlb, rowKey row ≠ ⟨pid, segment, page⟩) ∨
    ∃ j, ∃ hj : j < tlb.length, rowKey tlb[j] = ⟨pid, segment, page⟩ ∧
      presentInTlb cpu tlb page segment pid time =
        some (tlb[j].frame, tlb.set j { tlb[j] with lastReference := time }) := by
  have hall : 0+cpu.entradasTlb = tlb.length := by omega
  obtain ⟨hnone, hothers⟩ | hfound := present_from_cases page segment pid time _ 0 hall
  · refine Or.inl ⟨hnone, fun row hrow => ?_⟩
    obtain ⟨j, hj, rfl⟩ := List.mem_iff_getElem.mp hrow
    exact hothers j hj (Nat.zero_le j)
  · exact Or.inr hfound

end Lookup

/-- Memory answers only for a segment of the process, and gives frame -1 for a fault alone. -/
theorem frame_answer_cases {cfg : MemoryConfig} {m : Memory} {pcb : Pcb}
    {params : LogicalAddressParameters} {response : CpuResponse}
    (h : frameAnswer cfg m pcb params = some response) :
    0 ≤ params.segmentNumber ∧
      (response = .pageFault (-1) ∨ ∃ frame, frame ≠ -1 ∧ response = .frameResponse frame) := by
  simp only [frameAnswer, attendCpu, Option.bind_eq_bind, Option.map_eq_some_iff,
    Option.bind_eq_some_iff] at h
  obtain ⟨⟨m', answer⟩, ⟨frame, hframe, hanswer⟩, rfl⟩ := h
  refine ⟨?_, ?_⟩
  · simp only [getFrameNumberRAM, Option.bind_eq_bind, Option.bind_eq_some_iff] at hframe
    obtain ⟨segment, hsegment, _⟩ := hframe
    by_contra hneg
    simp [listGet, hneg] at hsegment
  · split at hanswer
    · next hf =>
      subst hf
      simp only [Option.some.injEq, Prod.mk.injEq] at hanswer
      exact Or.inl hanswer.2.symm
    · next hf =>
      simp only [Option.some.injEq, Prod.mk.injEq] at hanswer
      exact Or.inr ⟨frame, hf, hanswer.2.symm⟩

/-- What holds between translations. -/
structure Remembers (cpu : CpuConfig) (s : Translations) : Prop where
  length : s.tlb.length = cpu.entradasTlb
  frames : ∀ row ∈ s.tlb, row.frame = -1 ↔ rowKey row = noKey
  inserted : noKey ∉ s.insertions
  referenced : noKey ∉ s.references
  fifo : cpu.reemplazoTlb = .fifo → s.tlb.map rowKey =
      (List.replicate cpu.entradasTlb noKey++s.insertions).rtake cpu.entradasTlb ∧
    (s.insertions.rtake cpu.entradasTlb).Nodup
  lru : cpu.reemplazoTlb = .lru →
    Recency rowKey (fun a b => earlier a.lastReference b.lastReference) noKey s.tlb
      (recent cpu.entradasTlb s.references)

section Calls
variable {cpu : CpuConfig} {cfg : MemoryConfig} {s s' : Translations} {c : Call}

/-- A translation faults, refreshes a row, or adds one. -/
inductive Translated (cpu : CpuConfig) (s : Translations) (c : Call) : Translations → Prop
  | fault (absent : ∀ row ∈ s.tlb, rowKey row ≠ c.key) : Translated cpu s c s
  | hit (i : ℕ) (hi : i < s.tlb.length) (key : rowKey s.tlb[i] = c.key) (page : c.key ≠ noKey) :
    Translated cpu s c {
      tlb := s.tlb.set i { s.tlb[i] with lastReference := c.times.lookup }
      references := s.references++[c.key]
      insertions := s.insertions }
  | insertion (frame : ℤ) (hframe : frame ≠ -1) (absent : ∀ row ∈ s.tlb, rowKey row ≠ c.key)
    (page : c.key ≠ noKey) :
    Translated cpu s c {
      tlb := addToTlb cpu s.tlb c.pcb.processId c.params.segmentNumber c.params.pageNum frame
        c.times.added
      references := s.references++[c.key]
      insertions := s.insertions++[c.key] }

theorem key_of_segment (h : 0 ≤ c.params.segmentNumber) : c.key ≠ noKey := by
  intro hkey
  simp only [Call.key, noKey, Key.mk.injEq] at hkey
  omega

theorem call_translates (hr : Remembers cpu s) (h : callStep cpu cfg s c = some s') :
    Translated cpu s c s' := by
  simp only [callStep, buildPhysicalAddress, Option.bind_eq_bind] at h
  obtain ⟨hnone, habsent⟩ | ⟨j, hj, hkey, hfound⟩ := present_cases c.params.pageNum
    c.params.segmentNumber c.pcb.processId c.times.lookup hr.length
  · simp only [hnone, Option.bind_some, if_true] at h
    cases hanswer : frameAnswer cfg c.memory c.pcb c.params with
    | none => simp [hanswer] at h
    | some response =>
      rw [hanswer] at h
      obtain ⟨hsegment, rfl | ⟨frame, hframe, rfl⟩⟩ := frame_answer_cases hanswer
      · obtain rfl : s = s' := by simpa [findFrame] using h
        exact .fault habsent
      · obtain rfl := Option.some.inj (by simpa [findFrame, hframe] using h)
        exact .insertion frame hframe habsent (key_of_segment hsegment)
  · have hrow := hr.frames _ (List.getElem_mem hj)
    simp only [hfound, Option.bind_some] at h
    by_cases hframe : s.tlb[j].frame = -1
    · -- a row of `init_tlb` is for no segment, and memory does not answer for it
      rw [if_pos hframe] at h
      cases hanswer : frameAnswer cfg c.memory c.pcb c.params with
      | none => simp [hanswer] at h
      | some response =>
        have hsegment := (frame_answer_cases hanswer).1
        exact absurd (hkey.symm.trans (hrow.mp hframe)) (key_of_segment hsegment)
    · obtain rfl := Option.some.inj (by simpa [hframe] using h)
      exact .hit j hj hkey fun hno => hframe (hrow.mpr (hkey.trans hno))

theorem page_rows_keys (tlb : List RowTlb) :
    (pageRows tlb).map rowKey = (tlb.map rowKey).filter fun key => key ≠ noKey := by
  rw [pageRows, List.filter_map]
  rfl

theorem refreshed_keys {tlb : List RowTlb} {i : ℕ} (hi : i < tlb.length) (time : TimeVal) :
    (tlb.set i { tlb[i] with lastReference := time }).map rowKey = tlb.map rowKey := by
  rw [List.map_set]
  refine List.ext_getElem (by simp) fun j hj _ => ?_
  rw [List.getElem_set]
  split
  · next h => subst h; simp [rowKey]
  · rfl

/-- A full list of insertions ends with the keys in use. -/
theorem fifo_keys {k : ℕ} {insertions : List Key} (h : noKey ∉ insertions) :
    (((List.replicate k noKey++insertions).rtake k).filter fun key => key ≠ noKey) =
      insertions.rtake k := by
  rw [rtake_padded, List.filter_append, List.filter_replicate_of_neg (by simp), List.nil_append]
  refine List.filter_eq_self.mpr fun key hkey => ?_
  simpa using fun he : key = noKey => h (he ▸ mem_of_mem_rtake hkey)

section Full
variable (hk : 1 ≤ cpu.entradasTlb) {tlb : List RowTlb} (hlen : tlb.length = cpu.entradasTlb)
  {pid segment page frame : ℤ} {time : TimeVal}
include hk hlen

theorem add_to_tlb_fifo (hpolicy : cpu.reemplazoTlb = .fifo) :
    addToTlb cpu tlb pid segment page frame time =
      tlb.tail++[newRow pid segment page frame time] := by
  rw [addToTlb, if_neg (by omega), if_neg (by omega), if_pos hlen, hpolicy]

theorem add_to_tlb_lru (hpolicy : cpu.reemplazoTlb = .lru) :
    addToTlb cpu tlb pid segment page frame time =
      (cpu.listSort compareLastReference tlb).tail++[newRow pid segment page frame time] := by
  rw [addToTlb, if_neg (by omega), if_neg (by omega), if_pos hlen, hpolicy]

end Full

theorem hit_remembers (hr : Remembers cpu s)
    (hlast : ∀ row ∈ s.tlb, ∀ t ∈ c.readings, earlier row.lastReference t) {i : ℕ}
    (hi : i < s.tlb.length) (hkey : rowKey s.tlb[i] = c.key) (hpage : c.key ≠ noKey) :
    Remembers cpu {
      tlb := s.tlb.set i { s.tlb[i] with lastReference := c.times.lookup }
      references := s.references++[c.key]
      insertions := s.insertions } := by
  refine ⟨by rw [List.length_set]; exact hr.length, fun row hrow => ?_, hr.inserted, ?_,
    fun hpolicy => ?_, fun hpolicy => ?_⟩
  · obtain hrow | rfl := List.mem_or_eq_of_mem_set hrow
    · exact hr.frames row hrow
    · exact hr.frames s.tlb[i] (List.getElem_mem hi)
  · simpa using ⟨hr.referenced, hpage.symm⟩
  · rw [refreshed_keys]
    exact hr.fifo hpolicy
  · have hlater : ∀ q ∈ s.tlb, earlier q.lastReference c.times.lookup := fun q hq =>
      hlast q hq _ (by simp [Call.readings])
    obtain ⟨hmem, hrecency⟩ := recency_refresh (hr.lru hpolicy) (recent_nodup _ _) hi
      (hkey ▸ hpage) (show rowKey { s.tlb[i] with lastReference := c.times.lookup } = _ from rfl)
      hlater
    change rowKey s.tlb[i] ∈ _ at hmem
    change Recency _ _ _ _ ((recent _ _).erase (rowKey s.tlb[i])++[rowKey s.tlb[i]]) at hrecency
    rw [hkey] at hmem hrecency
    rwa [recent_again hmem]

theorem insertion_remembers (hk : 1 ≤ cpu.entradasTlb) (hpolicy : cpu.reemplazoTlb ≠ .other)
    (hsort : ListSorts cpu) (hr : Remembers cpu s)
    (hlast : ∀ row ∈ s.tlb, ∀ t ∈ c.readings, earlier row.lastReference t) {frame : ℤ}
    (hframe : frame ≠ -1) (habsent : ∀ row ∈ s.tlb, rowKey row ≠ c.key) (hpage : c.key ≠ noKey) :
    Remembers cpu {
      tlb := addToTlb cpu s.tlb c.pcb.processId c.params.segmentNumber c.params.pageNum frame
        c.times.added
      references := s.references++[c.key]
      insertions := s.insertions++[c.key] } := by
  have hnotin : c.key ∉ s.tlb.map rowKey := by
    rintro hin
    obtain ⟨row, hrow, hkey⟩ := List.mem_map.mp hin
    exact habsent row hrow hkey
  refine ⟨add_to_tlb_length ⟨hpolicy, hsort.sorts⟩ _ _ _ _ _ _ hr.length, fun row hrow => ?_, ?_, ?_,
    fun hfifo => ?_, fun hlru => ?_⟩
  · obtain hrow | rfl := add_to_tlb_mem hsort.sorts hrow
    · exact hr.frames row hrow
    · exact iff_of_false hframe hpage
  · simpa using ⟨hr.inserted, hpage.symm⟩
  · simpa using ⟨hr.referenced, hpage.symm⟩
  · obtain ⟨hkeys, hnodup⟩ := hr.fifo hfifo
    have hrecent : c.key ∉ s.insertions.rtake cpu.entradasTlb := by
      rw [hkeys, rtake_padded] at hnotin
      exact fun h => hnotin (List.mem_append_right _ h)
    rw [add_to_tlb_fifo hk hr.length hfifo, List.map_append, List.map_tail, hkeys,
      ← List.append_assoc, ← rtake_push hk (by simp)]
    refine ⟨rfl, ?_⟩
    obtain hlt | hge := Nat.lt_or_ge s.insertions.length cpu.entradasTlb
    · rw [rtake_all hlt.le] at hnodup hrecent
      have hnew := hnodup.concat hrecent
      rw [List.concat_eq_append] at hnew
      rwa [rtake_all (by simpa using hlt)]
    · have hnew := (hnodup.sublist (List.tail_sublist _)).concat fun h =>
        hrecent (List.mem_of_mem_tail h)
      rw [List.concat_eq_append] at hnew
      rwa [← rtake_push hk hge]
  · have hrecency := hr.lru hlru
    have hold : c.key ∉ recent cpu.entradasTlb s.references := by
      intro h
      have hkeys := recency_keys hrecency fun h => hr.referenced (mem_of_mem_recent h)
      exact hnotin (List.mem_of_mem_filter (hkeys.mem_iff.mpr h))
    rw [add_to_tlb_lru hk hr.length hlru, recent_new hk hold]
    have hperm := hsort.sorts compareLastReference s.tlb
    have hsorted := sorted_references hsort s.tlb
    cases hrows : cpu.listSort compareLastReference s.tlb with
    | nil =>
      rw [hrows] at hperm
      have := hr.length
      simp [hperm.symm.eq_nil] at this
      omega
    | cons oldest kept =>
      rw [hrows] at hperm hsorted
      have hlater : ∀ q ∈ s.tlb, earlier q.lastReference (newRow c.pcb.processId
          c.params.segmentNumber c.params.pageNum frame c.times.added).lastReference :=
        fun q hq => hlast q hq _ (by simp [Call.readings, newRow])
      have hnew := recency_replace hrecency hperm (fun q => List.rel_of_pairwise_cons hsorted) hlater
      rwa [hr.length] at hnew

theorem translated_remembers (hk : 1 ≤ cpu.entradasTlb) (hpolicy : cpu.reemplazoTlb ≠ .other)
    (hsort : ListSorts cpu) (hr : Remembers cpu s)
    (hlast : ∀ row ∈ s.tlb, ∀ t ∈ c.readings, earlier row.lastReference t)
    (h : Translated cpu s c s') : Remembers cpu s' := by
  cases h with
  | fault => exact hr
  | hit i hi key page => exact hit_remembers hr hlast hi key page
  | insertion frame hframe absent page =>
    exact insertion_remembers hk hpolicy hsort hr hlast hframe absent page

/-- The stamps of the rows are readings of the first rows and of the calls so far. -/
theorem translated_stamps (hsort : ListSorts cpu) (h : Translated cpu s c s') :
    ∀ row ∈ s'.tlb, row.lastReference ∈ c.readings ∨
      ∃ old ∈ s.tlb, old.lastReference = row.lastReference := by
  intro row hrow
  cases h with
  | fault => exact Or.inr ⟨row, hrow, rfl⟩
  | hit i hi key page =>
    obtain hrow | rfl := List.mem_or_eq_of_mem_set hrow
    · exact Or.inr ⟨row, hrow, rfl⟩
    · exact Or.inl (by simp [Call.readings])
  | insertion frame hframe absent page =>
    obtain hrow | rfl := add_to_tlb_mem hsort.sorts hrow
    · exact Or.inr ⟨row, hrow, rfl⟩
    · exact Or.inl (by simp [Call.readings, newRow])

theorem remembers_run (hk : 1 ≤ cpu.entradasTlb) (hpolicy : cpu.reemplazoTlb ≠ .other)
    (hsort : ListSorts cpu) (calls : List Call) (hr : Remembers cpu s)
    (hclock : Increasing (s.tlb.map RowTlb.lastReference) calls)
    (h : run (callStep cpu cfg) s calls = some s') : Remembers cpu s' := by
  induction calls generalizing s with
  | nil =>
    obtain rfl := Option.some.inj h
    exact hr
  | cons c calls ih =>
    obtain ⟨s₁, hc, h⟩ := (run_cons_some _).mp h
    have ht := call_translates hr hc
    have hlast : ∀ row ∈ s.tlb, ∀ t ∈ c.readings, earlier row.lastReference t := fun row hrow =>
      hclock.start _ (List.mem_map_of_mem hrow) c (List.mem_cons_self ..)
    have hnext := (List.pairwise_cons.mp hclock.calls).1
    refine ih (translated_remembers hk hpolicy hsort hr hlast ht) ⟨?_, hclock.calls.of_cons⟩ h
    intro t hmem d hd u hu
    obtain ⟨row, hrow, rfl⟩ := List.mem_map.mp hmem
    obtain hnew | ⟨old, hold, heq⟩ := translated_stamps hsort ht row hrow
    · exact hnext d hd _ hnew u hu
    · exact heq ▸ hclock.start _ (List.mem_map_of_mem hold) d (List.mem_cons_of_mem c hd) u hu

theorem first_rows_remember (times : List TimeVal) (hlen : times.length = cpu.entradasTlb) :
    Remembers cpu ⟨initRows times, [], []⟩ := by
  have hkeys : (initRows times).map rowKey = List.replicate cpu.entradasTlb noKey := by
    rw [← hlen, ← List.map_const', initRows, List.map_map]
    rfl
  refine ⟨by simpa [initRows] using hlen, ?_, by simp, by simp, fun _ => ⟨?_, by simp⟩, fun _ => ?_⟩
  · simp [initRows, newRow, rowKey, noKey]
  · rw [hkeys, List.append_nil, rtake_all (by simp)]
  · refine ⟨initRows times, [], ⟨by simp, ?_, by simp, by simp⟩, by simp [recent]⟩
    simp [initRows, newRow, rowKey, noKey]

end Calls

/-- The rows of the TLB beside the history of the translations. -/
structure KeepsRightPages (cpu : CpuConfig) (cfg : MemoryConfig) (s : Translations) : Prop where
  length : s.tlb.length = cpu.entradasTlb
  distinct : ((pageRows s.tlb).map rowKey).Nodup
  fifo : cpu.reemplazoTlb = .fifo →
    (pageRows s.tlb).map rowKey = s.insertions.rtake cpu.entradasTlb
  lru : cpu.reemplazoTlb = .lru →
    ((pageRows s.tlb).map rowKey).Perm (s.references.dedup.rtake cpu.entradasTlb)
  hits : ∀ c s', callStep cpu cfg s c = some s' → s'.insertions = s.insertions →
    s'.tlb.map mapping = s.tlb.map mapping
  returns : ∀ c, (frameAnswer cfg c.memory c.pcb c.params).isSome → (callStep cpu cfg s c).isSome

theorem remembers_right_pages {cpu : CpuConfig} {cfg : MemoryConfig} {s : Translations}
    (hpolicy : cpu.reemplazoTlb ≠ .other) (hr : Remembers cpu s) : KeepsRightPages cpu cfg s := by
  have hfifo (h : cpu.reemplazoTlb = .fifo) :
      (pageRows s.tlb).map rowKey = s.insertions.rtake cpu.entradasTlb := by
    rw [page_rows_keys, (hr.fifo h).1, fifo_keys hr.inserted]
  have hlru (h : cpu.reemplazoTlb = .lru) :
      ((pageRows s.tlb).map rowKey).Perm (recent cpu.entradasTlb s.references) := by
    rw [page_rows_keys]
    exact recency_keys (hr.lru h) fun hmem => hr.referenced (mem_of_mem_recent hmem)
  refine ⟨hr.length, ?_, hfifo, hlru, fun c s' h hsame => ?_, fun c hanswer => ?_⟩
  · cases hp : cpu.reemplazoTlb with
    | fifo => exact hfifo hp ▸ (hr.fifo hp).2
    | lru => exact (hlru hp).nodup_iff.mpr (recent_nodup _ _)
    | other => exact absurd hp hpolicy
  · cases call_translates hr h with
    | fault => rfl
    | hit i hi key page => exact map_set_same hi rfl
    | insertion => simp at hsame
  · obtain ⟨response, hresponse⟩ := Option.isSome_iff_exists.mp hanswer
    obtain ⟨found, tlb, hfound, -⟩ := present_in_tlb_found cpu s.tlb c.params.pageNum
      c.params.segmentNumber c.pcb.processId c.times.lookup hr.length.ge
    obtain ⟨-, rfl | ⟨frame, hframe, rfl⟩⟩ := frame_answer_cases hresponse
    · by_cases hf : found = -1 <;>
        simp [callStep, buildPhysicalAddress, hfound, hresponse, findFrame, hf]
    · by_cases hf : found = -1 <;>
        simp [callStep, buildPhysicalAddress, hfound, hresponse, findFrame, hf, hframe]

/-- After any sequence of translations the TLB has its rows, each page at most once, and
keeps the last insertions under FIFO and the last distinct references under LRU. -/
theorem tlb_keeps_right_pages (cpu : CpuConfig) (cfg : MemoryConfig) (hk : 1 ≤ cpu.entradasTlb)
    (hpolicy : cpu.reemplazoTlb ≠ .other) (hsort : ListSorts cpu) (times : List TimeVal)
    (hlen : times.length = cpu.entradasTlb) (calls : List Call) (hclock : Increasing times calls)
    (s : Translations) (h : run (callStep cpu cfg) ⟨initRows times, [], []⟩ calls = some s) :
    KeepsRightPages cpu cfg s := by
  have hstart : (initRows times).map RowTlb.lastReference = times := by
    simp [initRows, newRow, Function.comp_def]
  have hfirst := first_rows_remember times hlen
  exact remembers_right_pages hpolicy
    (remembers_run hk hpolicy hsort calls hfirst (by rwa [hstart]) h)

def lruCpu : CpuConfig :=
  { smallCpu with
    reemplazoTlb := .lru
    listSort := fun before rows => rows.insertionSort fun a b => before b a = false }

theorem lru_cpu_sorts : ListSorts lruCpu := by
  refine ⟨fun before rows => List.perm_insertionSort _ rows, fun before htrans htotal rows => ?_⟩
  have : IsTrans RowTlb fun a b => before b a = false := ⟨htrans⟩
  have : Std.Total fun a b => before b a = false := ⟨fun a b => (htotal a b).symm⟩
  exact List.pairwise_insertionSort _ rows

/-- Translations of the first and the second page for processes with the same segment table. -/
def smallCall (pid page second : ℤ) : Call where
  memory := smallSite.memory
  pcb := { smallPcb 0 with processId := pid }
  params := { firstPage with pageNum := page }
  times := ⟨⟨second, 0⟩, ⟨second, 1⟩⟩

/-- Two pages enter, the first is referenced again, a fault, and a third one enters. -/
def smallCalls : List Call :=
  [smallCall 1 0 1, smallCall 2 0 2, smallCall 1 0 3, smallCall 1 1 4, smallCall 3 0 5]

def smallTranslations : Translations :=
  reached (callStep lruCpu smallConfig) ⟨initRows [midnight, midnight], [], []⟩ smallCalls

theorem tlb_keeps_right_pages_small :
    KeepsRightPages lruCpu smallConfig smallTranslations ∧
      (pageRows smallTranslations.tlb).map rowKey = [⟨1, 0, 0⟩, ⟨3, 0, 0⟩] :=
  ⟨tlb_keeps_right_pages lruCpu smallConfig (by decide) (by decide) lru_cpu_sorts
    [midnight, midnight] rfl smallCalls ⟨by decide +kernel, by decide +kernel⟩ smallTranslations
    (run_reached _ _ _ (by decide +kernel)), by decide +kernel⟩

end Geck.TlbHistory
