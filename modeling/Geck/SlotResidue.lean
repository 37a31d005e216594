import Geck.MemoryLockstep

/-!
# What earlier processes leave in a slot

A page of a new process is given a swap slot and nothing clears it, so a byte
the process has not stored is the byte the slot held. All else a process loads
are its own stores: two histories that differ in stores of processes deleted
since are told apart through those bytes and no others.
-/

set_option autoImplicit false

namespace Geck.SlotResidue
open Geck.LabelledRuns Geck.PairedRuns Geck.SharedPcb Geck.MemoryState Geck.MemoryHandlers
open Geck.MemoryReplacement Geck.MemoryAccounting Geck.MemoryAllocation Geck.MemoryFaults
open Geck.MemorySystem Geck.FlatMemory Geck.MemoryLockstep

/-- The byte an operation stores at an offset of a page. -/
def ownByte (pid segment page : ℤ) (k : ℕ) : Operation → Option UInt8
  | .movOut pcb g n offset value =>
    if (pid = pcb.processId ∧ segment = g ∧ page = n) ∧ (offset ≤ k ∧ k < offset+4) then
      some (wordByte value (k-offset))
    else none
  | _ => none

/-- The byte the last such store of a sequence leaves there. -/
def storedByte (pid segment page : ℤ) (k : ℕ) : List Operation → Option UInt8
  | [] => none
  | op::ops => (storedByte pid segment page k ops).or (ownByte pid segment page k op)

/-- The histories differ in values stored by processes that are deleted later in them. -/
inductive DeletedStores : List Operation → List Operation → Prop where
  | nil : DeletedStores [] []
  | same (op : Operation) {ops ops' : List Operation} (h : DeletedStores ops ops') :
    DeletedStores (op::ops) (op::ops')
  | store (pcb : Pcb) (segment page : ℤ) (offset : ℕ) (value value' : UInt32)
    {ops ops' : List Operation}
    (deleted : ∃ q, Operation.kernel (.endStructures q) ∈ ops ∧ q.processId = pcb.processId)
    (h : DeletedStores ops ops') :
    DeletedStores (.movOut pcb segment page offset value::ops)
      (.movOut pcb segment page offset value'::ops')

theorem deleted_stores_paired {ops ops' : List Operation} (h : DeletedStores ops ops') :
    List.Forall₂ SameButValue ops ops' := by
  induction h with
  | nil => exact List.Forall₂.nil
  | same op _ ih => exact List.Forall₂.cons (.same op) ih
  | store pcb segment page offset value value' _ _ ih =>
    exact List.Forall₂.cons (.store pcb segment page offset value value') ih

theorem same_paired (ops : List Operation) : List.Forall₂ SameButValue ops ops :=
  List.forall₂_same.mpr fun op _ => .same op

/-- A process stays alive until its own end. -/
theorem serve_live {cfg : MemoryConfig} {s t : Session} {op : Operation} {answer : Option UInt32}
    (h : serve cfg s op = some (t, answer)) {pid : ℤ} (hlive : (s.site.live pid).isSome)
    (hend : ∀ q, op = .kernel (.endStructures q) → q.processId ≠ pid) :
    (t.site.live pid).isSome := by
  cases op with
  | kernel q =>
    obtain ⟨⟨m, response⟩, _, ht⟩ := Option.bind_eq_some_iff.mp h
    cases ht
    cases q with
    | initProcessStructuresMemory pcb =>
      by_cases hp : pid = pcb.processId
      · subst hp
        cases response with
        | none => exact hlive
        | some r =>
          cases r with
          | initProcessStructuresMemoryResponse p => simp [kernelLive]
          | responsePageFault p => exact hlive
      · cases response with
        | none => exact hlive
        | some r =>
          cases r with
          | initProcessStructuresMemoryResponse p => simpa [kernelLive, hp] using hlive
          | responsePageFault p => exact hlive
    | requestPageFault pcb sn pn => exact hlive
    | endStructures pcb =>
      have hp : pid ≠ pcb.processId := (hend pcb rfl).symm
      simpa [kernelLive, hp] using hlive
  | frameRequest pcb segment page =>
    obtain ⟨⟨m, response⟩, _, ht⟩ := Option.bind_eq_some_iff.mp h
    cases ht
    exact hlive
  | movOut pcb segment page offset value =>
    obtain ⟨a, _, h⟩ := Option.bind_eq_some_iff.mp h
    obtain ⟨row, _, h⟩ := Option.bind_eq_some_iff.mp h
    obtain ⟨⟨m, response⟩, _, ht⟩ := Option.bind_eq_some_iff.mp h
    cases ht
    exact hlive
  | movIn pcb segment page offset =>
    obtain ⟨a, _, h⟩ := Option.bind_eq_some_iff.mp h
    obtain ⟨⟨m, response⟩, _, ht⟩ := Option.bind_eq_some_iff.mp h
    cases response with
    | movInOk value =>
      cases ht
      exact hlive
    | _ => cases ht

/-- One operation changes the bytes of a live process by its own store only. -/
theorem flat_own {cfg : MemoryConfig} {s : Session} {op : Operation} {flat : Flat} {pid : ℤ}
    (hq : AllowedOperation cfg s op) (hlive : (s.site.live pid).isSome) (site : Site)
    (segment page : ℤ) (k : ℕ) : (flatServe cfg site flat op).1 pid segment page k =
      (ownByte pid segment page k op).getD (flat pid segment page k) := by
  cases op with
  | kernel q =>
    cases q with
    | initProcessStructuresMemory pcb =>
      have hp : pid ≠ pcb.processId := by
        rintro rfl
        rw [hq.1] at hlive
        cases hlive
      simp [flatServe, ownByte, hp]
    | requestPageFault pcb sn pn => rfl
    | endStructures pcb => rfl
  | frameRequest pcb g n => rfl
  | movIn pcb g n offset => rfl
  | movOut pcb g n offset value =>
    simp only [flatServe, ownByte]
    by_cases hpage : pid = pcb.processId ∧ segment = g ∧ page = n
    · by_cases hk : offset ≤ k ∧ k < offset+4
      · rw [if_pos hpage, if_pos ⟨hpage, hk⟩, storeWord, if_pos hk]
        rfl
      · rw [if_pos hpage, if_neg fun h => hk h.2, storeWord, if_neg hk]
        rfl
    · rw [if_neg hpage, if_neg fun h => hpage h.1]
      rfl

/-- Over a run the bytes of a live process are what it stored last, or what they were. -/
theorem run_own {cfg : MemoryConfig} (valid : ValidConfig cfg) {pid : ℤ} (ops : List Operation)
    {s : Session} {flat : Flat} (hl : Linked cfg s flat) (hlive : (s.site.live pid).isSome)
    (hg : Guarded (sessionStep cfg) (AllowedOperation cfg) s ops)
    (hend : ∀ q, Operation.kernel (.endStructures q) ∈ ops → q.processId ≠ pid) :
    ∃ t flat', run (sessionStep cfg) s ops = some t ∧ Linked cfg t flat' ∧
      ∀ segment page k, flat' pid segment page k =
        (storedByte pid segment page k ops).getD (flat pid segment page k) := by
  induction ops generalizing s flat with
  | nil => exact ⟨s, flat, rfl, hl, fun segment page k => rfl⟩
  | cons op ops ih =>
    obtain ⟨t, answer, ht, _, hlt⟩ := linked_step valid hl op hg.1
    have hstep : sessionStep cfg s op = some t := by simp [sessionStep, ht]
    have hlive' := serve_live ht hlive fun q he => hend q (by simp [he])
    obtain ⟨u, flat', hu, hlu, hbytes⟩ := ih hlt hlive' (hg.2 t hstep)
      fun q hq => hend q (List.mem_cons_of_mem _ hq)
    refine ⟨u, flat', (run_cons _ ops hstep).trans hu, hlu, ?_⟩
    intro segment page k
    rw [hbytes, flat_own hg.1 hlive]
    show _ = ((storedByte pid segment page k ops).or (ownByte pid segment page k op)).getD _
    cases storedByte pid segment page k ops with
    | none => rfl
    | some b => rfl

/-- Every guarded run is served. -/
theorem run_linked {cfg : MemoryConfig} (valid : ValidConfig cfg) (ops : List Operation)
    {s : Session} (hl : ∃ flat, Linked cfg s flat)
    (hg : Guarded (sessionStep cfg) (AllowedOperation cfg) s ops) :
    ∃ t, run (sessionStep cfg) s ops = some t ∧ ∃ flat, Linked cfg t flat := by
  refine guarded_progress (sessionStep cfg) (fun s => ∃ flat, Linked cfg s flat) _ ?_ ops s hl hg
  rintro s op ⟨flat, hl⟩ hq
  obtain ⟨t, answer, ht, _, hlt⟩ := linked_step valid hl op hq
  exact ⟨t, by simp [sessionStep, ht], _, hlt⟩

/-- The four bytes of a load of a process are its own stores or the bytes its slot began with. -/
theorem load_bytes {cfg : MemoryConfig} (valid : ValidConfig cfg) {ram swap : ℕ → UInt8}
    {before mid : List Operation} {pcb reader : Pcb} {segment page : ℤ} {offset : ℕ}
    (hreader : reader.processId = pcb.processId)
    (hkept : ∀ q, Operation.kernel (.endStructures q) ∈ mid → q.processId ≠ pcb.processId)
    (hallowed : Guarded (sessionStep cfg) (AllowedOperation cfg) ⟨boot cfg ram swap, none⟩
      ((before++[.kernel (.initProcessStructuresMemory pcb)])++
        (mid++[.movIn reader segment page offset]))) :
    ∃ start t u value,
      run (sessionStep cfg) ⟨boot cfg ram swap, none⟩
        (before++[.kernel (.initProcessStructuresMemory pcb)]) = some start ∧
      run (sessionStep cfg) start mid = some t ∧
      serve cfg t (.movIn reader segment page offset) = some (u, some value) ∧
      ∀ k : Fin 4, wordByte value k =
        (storedByte pcb.processId segment page (offset+k) mid).getD
          (slotContents cfg start.site pcb.processId segment page (offset+k)) := by
  have hbefore := guarded_left _ _ _ (guarded_left _ _ _ hallowed)
  obtain ⟨s, hs, flat, hl⟩ := run_linked valid before
    ⟨_, boot_linked valid ram swap fun _ _ _ => ram⟩ hbefore
  have hinit : AllowedOperation cfg s (.kernel (.initProcessStructuresMemory pcb)) :=
    (guarded_right _ _ _ (guarded_left _ _ _ hallowed) hs).1
  obtain ⟨start, hstart, hlstart⟩ := linked_init valid hl pcb hinit
  have hrun : run (sessionStep cfg) ⟨boot cfg ram swap, none⟩
      (before++[.kernel (.initProcessStructuresMemory pcb)]) = some start := by
    rw [run_append, hs]
    simp [run, sessionStep, hstart]
  have hlive : (start.site.live pcb.processId).isSome := by
    obtain ⟨segments, m, hi, _, _⟩ := init_served valid hl.accounts pcb hinit.1 hinit.2
    have hserve : serve cfg s (.kernel (.initProcessStructuresMemory pcb)) =
        some (⟨⟨m, Function.update s.site.live pcb.processId (some segments)⟩,
          stillAnswered s.answered (.initProcessStructuresMemory pcb)⟩, none) := by
      simp [serve, attendKernel, hi, kernelLive]
    cases hstart.symm.trans hserve
    simp
  have hrest := guarded_right _ _ _ hallowed hrun
  obtain ⟨t, flat', ht, hlt, hbytes⟩ := run_own valid mid hlstart hlive
    (guarded_left _ _ _ hrest) hkept
  obtain ⟨u, value, hu, hvalue, _⟩ := linked_mov_in hlt reader segment page offset
    (guarded_right _ _ _ hrest ht).1
  refine ⟨start, t, u, value, hrun, ht, hu, ?_⟩
  intro k
  rw [hvalue k, hreader, hbytes]
  simp [flatServe]

theorem word_ext {v v' : UInt32} (h : ∀ k : Fin 4, wordByte v k = wordByte v' k) : v = v' := by
  have hbyte : ∀ k : Fin 4, v.toNat/256^(k : ℕ) % 256 = v'.toNat/256^(k : ℕ) % 256 := by
    intro k
    have := congrArg UInt8.toNat (h k)
    simpa [wordByte] using this
  have h0 := hbyte 0
  have h1 := hbyte 1
  have h2 := hbyte 2
  have h3 := hbyte 3
  have hv := v.toNat_lt
  have hv' := v'.toNat_lt
  apply UInt32.toNat_inj.mp
  simp at h0 h1 h2 h3
  omega

/-- Two histories that differ in stores of deleted processes are both served, and a later load
of a process answers the same in both if and only if each of its bytes was stored by the process
itself or was the same in the slots the process was given. -/
theorem loads_agree_iff {cfg : MemoryConfig} (valid : ValidConfig cfg) {ram swap : ℕ → UInt8}
    {before before' mid : List Operation} {pcb reader : Pcb} {segment page : ℤ} {offset : ℕ}
    (hsame : DeletedStores before before') (hreader : reader.processId = pcb.processId)
    (hkept : ∀ q, Operation.kernel (.endStructures q) ∈ mid → q.processId ≠ pcb.processId)
    (hallowed : Guarded (sessionStep cfg) (AllowedOperation cfg) ⟨boot cfg ram swap, none⟩
      ((before++[.kernel (.initProcessStructuresMemory pcb)])++
        (mid++[.movIn reader segment page offset]))) :
    ∃ start start' t t' u u' value value',
      run (sessionStep cfg) ⟨boot cfg ram swap, none⟩
        (before++[.kernel (.initProcessStructuresMemory pcb)]) = some start ∧
      run (sessionStep cfg) ⟨boot cfg ram swap, none⟩
        (before'++[.kernel (.initProcessStructuresMemory pcb)]) = some start' ∧
      run (sessionStep cfg) start mid = some t ∧ run (sessionStep cfg) start' mid = some t' ∧
      serve cfg t (.movIn reader segment page offset) = some (u, some value) ∧
      serve cfg t' (.movIn reader segment page offset) = some (u', some value') ∧
      SameSession u u' ∧
      (value = value' ↔ ∀ k : Fin 4,
        (storedByte pcb.processId segment page (offset+k) mid).isSome ∨
        slotContents cfg start.site pcb.processId segment page (offset+k) =
          slotContents cfg start'.site pcb.processId segment page (offset+k)) := by
  have hinit := List.rel_append (deleted_stores_paired hsame)
    (same_paired [.kernel (.initProcessStructuresMemory pcb)])
  have hboot : SameSession ⟨boot cfg ram swap, none⟩ ⟨boot cfg ram swap, none⟩ :=
    ⟨⟨ram, swap, rfl⟩, rfl, rfl⟩
  have hallowed' := guarded_paired session_step_alike allowed_alike
    (List.rel_append hinit (same_paired (mid++[.movIn reader segment page offset]))) hboot hallowed
  obtain ⟨start, t, u, value, hstart, ht, hu, hbytes⟩ := load_bytes valid hreader hkept hallowed
  obtain ⟨start', t', u', value', hstart', ht', hu', hbytes'⟩ :=
    load_bytes valid hreader hkept hallowed'
  have halike : SameSession start start' := by
    have h : Option.Rel SameSession (run (sessionStep cfg) _ _) (run (sessionStep cfg) _ _) :=
      run_paired session_step_alike hinit hboot
    rw [hstart, hstart'] at h
    cases h with
    | some h => exact h
  have halike' : SameSession t t' := by
    have h : Option.Rel SameSession (run (sessionStep cfg) _ _) (run (sessionStep cfg) _ _) :=
      run_paired session_step_alike (same_paired mid) halike
    rw [ht, ht'] at h
    cases h with
    | some h => exact h
  have hend : SameSession u u' := by
    have h := @serve_alike cfg _ _ halike' _ _ (.same (.movIn reader segment page offset))
    rw [hu, hu'] at h
    cases h with
    | some h => exact h
  refine ⟨start, start', t, t', u, u', value, value', hstart, hstart', ht, ht', hu, hu', hend, ?_⟩
  constructor
  · intro he k
    have hk := hbytes k
    have hk' := hbytes' k
    rw [← he] at hk'
    cases hb : storedByte pcb.processId segment page (offset+k) mid with
    | some b => exact Or.inl rfl
    | none =>
      rw [hb] at hk hk'
      exact Or.inr (hk.symm.trans hk')
  · intro h
    apply word_ext
    intro k
    rw [hbytes k, hbytes' k]
    rcases h k with hb | hslot
    · obtain ⟨b, hb⟩ := Option.isSome_iff_exists.mp hb
      rw [hb]
      rfl
    · rw [hslot]

/-- The first process stores a value, its page is evicted to the first slot, and it ends. -/
def firstProcess (value : UInt32) : List Operation :=
  [.kernel (.initProcessStructuresMemory (smallPcb (-1))),
    .kernel (.requestPageFault (smallPcb 0) 0 0), .frameRequest (smallPcb 0) 0 0,
    .movOut (smallPcb 0) 0 0 0 value, .kernel (.requestPageFault (smallPcb 0) 0 1),
    .kernel (.endStructures (smallPcb 0))]

def nextPcb (indexPage : ℤ) : Pcb := { smallPcb indexPage with processId := 2 }

/-- The second process loads its first page. -/
def secondProcess : List Operation :=
  [.kernel (.requestPageFault (nextPcb 1) 0 0), .frameRequest (nextPcb 1) 0 0]

def firstLoad (value : UInt32) : Option UInt32 := do
  let t ← run (sessionStep smallConfig) ⟨boot smallConfig zeros zeros, none⟩
    ((firstProcess value++[.kernel (.initProcessStructuresMemory (nextPcb (-1)))])++secondProcess)
  let (_, answer) ← serve smallConfig t (.movIn (nextPcb 1) 0 0 0)
  answer

theorem first_process_deleted : DeletedStores (firstProcess 7) (firstProcess 9) :=
  .same _ (.same _ (.same _ (.store _ _ _ _ _ _ ⟨smallPcb 0, by decide, rfl⟩
    (.same _ (.same _ .nil)))))

theorem first_process_allowed : Guarded (sessionStep smallConfig) (AllowedOperation smallConfig)
    ⟨boot smallConfig zeros zeros, none⟩
    ((firstProcess 7++[.kernel (.initProcessStructuresMemory (nextPcb (-1)))])++
      (secondProcess++[.movIn (nextPcb 1) 0 0 0])) := by
  decide +kernel

/-- The second process reads what the first one stored. -/
theorem deleted_store_read : DeletedStores (firstProcess 7) (firstProcess 9) ∧
    Guarded (sessionStep smallConfig) (AllowedOperation smallConfig)
      ⟨boot smallConfig zeros zeros, none⟩
      ((firstProcess 7++[.kernel (.initProcessStructuresMemory (nextPcb (-1)))])++
        (secondProcess++[.movIn (nextPcb 1) 0 0 0])) ∧
    firstLoad 7 = some 7 ∧ firstLoad 9 = some 9 := by
  refine ⟨first_process_deleted, first_process_allowed, ?_, ?_⟩
  · decide +kernel
  · decide +kernel

/-- The two loads agree where the slots that the second process was given do. -/
theorem loads_agree_small : ∃ start start' : Session, ∃ value value' : UInt32,
    run (sessionStep smallConfig) ⟨boot smallConfig zeros zeros, none⟩
      (firstProcess 7++[.kernel (.initProcessStructuresMemory (nextPcb (-1)))]) = some start ∧
    run (sessionStep smallConfig) ⟨boot smallConfig zeros zeros, none⟩
      (firstProcess 9++[.kernel (.initProcessStructuresMemory (nextPcb (-1)))]) = some start' ∧
    firstLoad 7 = some value ∧ firstLoad 9 = some value' ∧
    (value = value' ↔ ∀ k : Fin 4, (storedByte 2 0 0 (0+k) secondProcess).isSome ∨
      slotContents smallConfig start.site 2 0 0 (0+k) =
        slotContents smallConfig start'.site 2 0 0 (0+k)) := by
  obtain ⟨start, start', t, t', u, u', value, value', hs, hs', ht, ht', hu, hu', _, hiff⟩ :=
    @loads_agree_iff smallConfig small_config_valid _ _ _ _ _ (nextPcb (-1)) (nextPcb 1) _ _ _
      first_process_deleted rfl (by intro q hq; simp [secondProcess] at hq) first_process_allowed
  refine ⟨start, start', value, value', hs, hs', ?_, ?_, hiff⟩
  · rw [firstLoad, run_append, hs]
    show ((run (sessionStep smallConfig) start secondProcess).bind _) = _
    rw [ht]
    show ((serve smallConfig t (.movIn (nextPcb 1) 0 0 0)).bind _) = _
    rw [hu]
    rfl
  · rw [firstLoad, run_append, hs']
    show ((run (sessionStep smallConfig) start' secondProcess).bind _) = _
    rw [ht']
    show ((serve smallConfig t' (.movIn (nextPcb 1) 0 0 0)).bind _) = _
    rw [hu']
    rfl

end Geck.SlotResidue
