import Mathlib

/-!
# The end of a history

A table of `k` places is filled from a history: with the last `k` entries, or
with the last `k` distinct ones. Both are known after one more entry from what
they were before it. A table of stamped rows holds the last `k` distinct keys
when its used rows can be listed by their stamps in the order of the history.
-/

set_option autoImplicit false

namespace Geck.ReferenceHistory

section Ends
variable {α : Type*} {k : ℕ} {l : List α}

theorem rtake_length (k : ℕ) (l : List α) : (l.rtake k).length = min k l.length := by
  rw [List.rtake, List.length_drop]
  omega

theorem rtake_all (h : l.length ≤ k) : l.rtake k = l := by
  rw [List.rtake, Nat.sub_eq_zero_of_le h, List.drop_zero]

theorem mem_of_mem_rtake {x : α} (h : x ∈ l.rtake k) : x ∈ l := List.mem_of_mem_drop h

theorem tail_rtake (h : k < l.length) : (l.rtake (k+1)).tail = l.rtake k := by
  rw [List.rtake, List.rtake, List.tail_drop]
  congr 1
  omega

/-- The table of the last entries gives up its oldest one. -/
theorem rtake_push (hk : 1 ≤ k) (h : k ≤ l.length) (x : α) :
    (l.rtake k).tail++[x] = (l++[x]).rtake k := by
  obtain ⟨k, rfl⟩ : ∃ j, k = j+1 := ⟨k-1, by omega⟩
  rw [List.rtake_concat_succ, tail_rtake h]

/-- Entries before the history count as long as it is short. -/
theorem rtake_padded (pad : α) (k : ℕ) (l : List α) :
    (List.replicate k pad++l).rtake k = List.replicate (k-l.length) pad++l.rtake k := by
  rw [List.rtake, List.length_append, List.length_replicate, Nat.add_sub_cancel_left,
    List.drop_append, List.drop_replicate, List.length_replicate, List.rtake]

end Ends

section Recent
variable {α : Type*} [DecidableEq α] {k : ℕ} {refs l : List α} {x : α}

/-- The last `k` distinct entries of a history, the latest at the end. -/
def recent (k : ℕ) (refs : List α) : List α := refs.dedup.rtake k

theorem dedup_concat (refs : List α) (x : α) : (refs++[x]).dedup = refs.dedup.erase x++[x] := by
  induction refs with
  | nil => simp
  | cons y refs ih =>
    rw [List.cons_append, List.dedup_cons, List.dedup_cons, ih]
    by_cases hy : y ∈ refs
    · simp [hy]
    · by_cases hx : y = x
      · subst hx
        simp [hy]
      · simp [hy, hx]

theorem erase_rtake (h : l.Nodup) (k : ℕ) (x : α) :
    (l.erase x).rtake k = ((l.rtake (k+1)).erase x).rtake k := by
  induction l using List.reverseRecOn generalizing k with
  | nil => simp
  | append_singleton l y ih =>
    obtain ⟨hl, hy⟩ : l.Nodup ∧ y ∉ l := by
      rw [List.nodup_append] at h
      exact ⟨h.1, fun hmem => h.2.2 y hmem y (by simp) rfl⟩
    rw [List.rtake_concat_succ]
    by_cases hx : y = x
    · subst hx
      have hlast : y ∉ l.rtake k := fun hmem => hy (mem_of_mem_rtake hmem)
      rw [List.erase_append_right _ hy, List.erase_append_right _ hlast]
      simp only [List.erase_cons_head, List.append_nil]
      exact (rtake_all (by simp [rtake_length])).symm
    · cases k with
      | zero => simp
      | succ k =>
        have hsplit : ∀ t : List α, (t++[y]).erase x = t.erase x++[y] := by
          intro t
          rw [List.erase_append]
          split
          · rfl
          · next hmem => simp [List.erase_of_not_mem hmem, hx]
        rw [hsplit, hsplit, List.rtake_concat_succ, List.rtake_concat_succ, ih hl]

theorem recent_nodup (k : ℕ) (refs : List α) : (recent k refs).Nodup :=
  refs.nodup_dedup.sublist (List.drop_sublist _ _)

theorem recent_length_le (k : ℕ) (refs : List α) : (recent k refs).length ≤ k := by
  simp [recent, rtake_length]

theorem mem_of_mem_recent (h : x ∈ recent k refs) : x ∈ refs :=
  List.mem_dedup.mp (mem_of_mem_rtake h)

theorem recent_concat (k : ℕ) (refs : List α) (x : α) :
    recent (k+1) (refs++[x]) = ((recent (k+1) refs).erase x).rtake k++[x] := by
  rw [recent, dedup_concat, List.rtake_concat_succ, erase_rtake refs.nodup_dedup, recent]

/-- A recent entry becomes the latest. -/
theorem recent_again (h : x ∈ recent k refs) :
    recent k (refs++[x]) = (recent k refs).erase x++[x] := by
  have hpos := List.length_pos_of_mem h
  have hle := recent_length_le k refs
  obtain ⟨k, rfl⟩ : ∃ j, k = j+1 := ⟨k-1, by omega⟩
  rw [recent_concat, rtake_all]
  rw [List.length_erase_of_mem h]
  omega

/-- Any other entry takes a free place, or the place of the oldest. -/
theorem recent_new (hk : 1 ≤ k) (h : x ∉ recent k refs) :
    recent k (refs++[x]) =
      (if (recent k refs).length < k then recent k refs else (recent k refs).tail)++[x] := by
  obtain ⟨k, rfl⟩ : ∃ j, k = j+1 := ⟨k-1, by omega⟩
  have hle := recent_length_le (k+1) refs
  rw [recent_concat, List.erase_of_not_mem h]
  split
  · next hlt => rw [rtake_all (by omega)]
  · next hge =>
    rw [← tail_rtake (by omega), rtake_all hle]

end Recent

section Stamps
variable {ρ κ : Type*} (key : ρ → κ) (before : ρ → ρ → Prop) (blank : κ)

/-- The rows in use are `live` in the order of their stamps; the others are older. -/
structure Stamped (rows spare live : List ρ) : Prop where
  perm : rows.Perm (spare++live)
  unused : ∀ r ∈ spare, key r = blank
  older : ∀ r ∈ spare, ∀ q ∈ live, before r q
  ordered : live.Pairwise before

def Recency (rows : List ρ) (keys : List κ) : Prop :=
  ∃ spare live, Stamped key before blank rows spare live ∧ live.map key = keys

variable {key before blank} {rows : List ρ} {keys : List κ}

/-- The keys in use are those of the history. -/
theorem recency_keys [DecidableEq κ] (h : Recency key before blank rows keys) (hblank : blank ∉ keys) :
    ((rows.map key).filter fun k => k ≠ blank).Perm keys := by
  obtain ⟨spare, live, hs, rfl⟩ := h
  have hperm := (hs.perm.map key).filter fun k => decide (k ≠ blank)
  have hspare : (spare.map key).filter (fun k => decide (k ≠ blank)) = [] := by
    simpa using hs.unused
  have hlive : (live.map key).filter (fun k => decide (k ≠ blank)) = live.map key := by
    refine List.filter_eq_self.mpr fun k hk => ?_
    simpa using fun he : k = blank => hblank (he ▸ hk)
  rwa [List.map_append, List.filter_append, hspare, hlive, List.nil_append] at hperm

theorem set_perm {i : ℕ} (hi : i < rows.length) (r : ρ) :
    (rows.set i r).Perm (r::rows.eraseIdx i) := by
  have hi' : i < (rows.set i r).length := by rwa [List.length_set]
  have h := List.getElem_cons_eraseIdx_perm hi'
  rw [List.eraseIdx_set_eq, List.getElem_set_self] at h
  exact h.symm

/-- A row in use gets the latest stamp. -/
theorem recency_refresh [DecidableEq κ] (h : Recency key before blank rows keys)
    (hnodup : keys.Nodup) {i : ℕ} (hi : i < rows.length) (hkey : key rows[i] ≠ blank) {r : ρ}
    (hr : key r = key rows[i]) (hlast : ∀ q ∈ rows, before q r) :
    key r ∈ keys ∧ Recency key before blank (rows.set i r) (keys.erase (key r)++[key r]) := by
  obtain ⟨spare, live, hs, rfl⟩ := h
  have hmem : rows[i] ∈ live := by
    obtain hmem | hmem := List.mem_append.mp (hs.perm.mem_iff.mp (List.getElem_mem hi))
    · exact absurd (hs.unused _ hmem) hkey
    · exact hmem
  obtain ⟨first, last, rfl⟩ := List.append_of_mem hmem
  have hkept : (rows.eraseIdx i).Perm (spare++(first++last)) := by
    have hall := (List.getElem_cons_eraseIdx_perm hi).trans hs.perm
    exact (hall.trans (by simp [← List.append_assoc])).cons_inv
  have holder : ∀ q ∈ spare++(first++last), before q r := fun q hq =>
    hlast q (List.mem_of_mem_eraseIdx (hkept.mem_iff.mpr hq))
  have hother : key r ∉ first.map key := by
    rw [List.map_append, List.map_cons, hr.symm, List.nodup_append] at hnodup
    exact fun hin => hnodup.2.2 _ hin _ (by simp) rfl
  refine ⟨by simp [hr], spare, first++last++[r], ⟨?_, hs.unused, ?_, ?_⟩, ?_⟩
  · refine (set_perm hi r).trans ((hkept.cons r).trans ?_)
    have hend := (List.perm_append_singleton r (spare++(first++last))).symm
    rwa [List.append_assoc spare] at hend
  · intro p hp q hq
    obtain hq | hq := List.mem_append.mp hq
    · exact hs.older p hp q (by simp only [List.mem_append, List.mem_cons] at hq ⊢; tauto)
    · rw [List.mem_singleton.mp hq]
      exact holder p (by simp [hp])
  · refine List.pairwise_append.mpr ⟨hs.ordered.sublist (by simp), by simp, fun p hp q hq => ?_⟩
    rw [List.mem_singleton.mp hq]
    exact holder p (List.mem_append_right _ hp)
  · have herase : ((first++rows[i]::last).map key).erase (key r) = (first++last).map key := by
      rw [List.map_append, List.map_cons, ← hr, List.erase_append_right _ hother,
        List.erase_cons_head, List.map_append]
    rw [herase, List.map_append, List.map_singleton]

/-- A new row takes the place of the row with the oldest stamp. -/
theorem recency_replace (h : Recency key before blank rows keys) {oldest : ρ} {kept : List ρ}
    (hperm : (oldest::kept).Perm rows) (holdest : ∀ q ∈ kept, ¬before q oldest) {r : ρ}
    (hlast : ∀ q ∈ rows, before q r) : Recency key before blank (kept++[r])
      ((if keys.length < rows.length then keys else keys.tail)++[key r]) := by
  obtain ⟨spare, live, hs, rfl⟩ := h
  have hlen := hs.perm.length_eq
  rw [List.length_append] at hlen
  -- a row that is older than the one replaced is that row
  have hfirst : ∀ q ∈ rows, before q oldest → q = oldest := by
    intro q hq hbefore
    obtain rfl | hq := List.mem_cons.mp (hperm.mem_iff.mpr hq)
    · rfl
    · exact absurd hbefore (holdest q hq)
  have hlatest : ∀ qs, qs ⊆ live → qs.Pairwise before → (qs++[r]).Pairwise before := by
    intro qs hsub hqs
    refine List.pairwise_append.mpr ⟨hqs, by simp, fun q hq r' hr' => ?_⟩
    rw [List.mem_singleton.mp hr']
    exact hlast q (hs.perm.mem_iff.mpr (List.mem_append_right _ (hsub hq)))
  by_cases hin : oldest ∈ spare
  · obtain ⟨first, last, rfl⟩ := List.append_of_mem hin
    have hkept : kept.Perm (first++last++live) := by
      have hall := hperm.trans hs.perm
      exact (hall.trans (by simp)).cons_inv
    have hsub : ∀ q ∈ first++last, q ∈ first++oldest::last := by
      intro q hq
      simp only [List.mem_append, List.mem_cons] at hq ⊢
      tauto
    refine ⟨first++last, live++[r], ⟨?_, fun q hq => hs.unused q (hsub q hq), ?_,
      hlatest live (List.Subset.refl live) hs.ordered⟩, ?_⟩
    · rw [← List.append_assoc]
      exact hkept.append_right [r]
    · intro q hq q' hq'
      obtain hq' | hq' := List.mem_append.mp hq'
      · exact hs.older q (hsub q hq) q' hq'
      · rw [List.mem_singleton.mp hq']
        exact hlast q (hs.perm.mem_iff.mpr (List.mem_append_left _ (hsub q hq)))
    · rw [if_pos (by simp [hlen]), List.map_append, List.map_singleton]
  · have hmem : oldest ∈ live := by
      have hmem := hs.perm.mem_iff.mp (hperm.mem_iff.mp (List.mem_cons_self ..))
      exact (List.mem_append.mp hmem).resolve_left hin
    have hnone : spare = [] := by
      refine List.eq_nil_iff_forall_not_mem.mpr fun p hp => hin ?_
      rwa [← hfirst p (hs.perm.mem_iff.mpr (List.mem_append_left _ hp)) (hs.older p hp _ hmem)]
    subst hnone
    cases live with
    | nil => simp at hmem
    | cons q live =>
      have hq : q = oldest := by
        obtain h | hin := List.mem_cons.mp hmem
        · exact h.symm
        · exact hfirst q (hs.perm.mem_iff.mpr (by simp)) (List.rel_of_pairwise_cons hs.ordered hin)
      subst hq
      have hkept : kept.Perm live := (hperm.trans hs.perm).cons_inv
      refine ⟨[], live++[r], ⟨hkept.append_right [r], by simp, by simp, ?_⟩, ?_⟩
      · exact hlatest live (List.subset_cons_self q live) hs.ordered.of_cons
      · rw [if_neg (by simp [hlen])]
        simp

end Stamps

end Geck.ReferenceHistory
