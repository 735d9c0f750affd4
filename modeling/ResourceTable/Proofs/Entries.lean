import Mathlib.Data.List.Basic
import Mathlib.Data.List.Perm.Basic
import ResourceTable.Dict

namespace ResourceTable.Entries

variable {α : Type} {es : Entries α} {key : String}

theorem ascending_of_keys (keys : List String) (hk : es.map Prod.fst = keys)
    (h : keys.Pairwise (· < ·)) : es.Ascending := by
  rw [← hk, List.pairwise_map] at h
  exact h

theorem sorted_of_keys (keys : List String) (hk : es.map Prod.fst = keys)
    (h : keys.Pairwise (· < ·)) : es.sorted = es :=
  sorted_of_ascending (ascending_of_keys keys hk h)

theorem sorted_append_singleton (es : Entries α) (key : String) (value : α) :
    (es ++ [(key, value)]).sorted = es.sorted.put key value := by
  simp only [sorted, List.foldl_append, List.foldl_cons, List.foldl_nil]

theorem Ascending.nodup_keys (h : es.Ascending) : (es.map Prod.fst).Nodup := by
  rw [List.nodup_iff_pairwise_ne, List.pairwise_map]
  refine List.Pairwise.imp ?_ h
  intro a b hlt heq
  rw [heq] at hlt
  exact String.lt_irrefl _ hlt

theorem lookup_eq_none_iff : es.lookup key = none ↔ key ∉ es.map Prod.fst := by
  induction es with
  | nil => simp
  | cons e es ih =>
    rw [lookup_cons, List.map_cons, List.mem_cons, not_or]
    by_cases hk : key = e.1
    · simp [hk]
    · rw [if_neg hk, ih]
      exact (and_iff_right hk).symm

theorem mem_of_lookup {value : α} (h : es.lookup key = some value) : (key, value) ∈ es := by
  obtain ⟨before, after, rfl, -⟩ := List.lookup_eq_some_iff.1 h
  exact List.mem_append_right before List.mem_cons_self

/-- Putting entries one after the other: the new ones come first, and then the old. -/
theorem lookup_foldl_put (acc : Entries α) (h : (es.map Prod.fst).Nodup) :
    (es.foldl (fun acc e => acc.put e.1 e.2) acc).lookup key =
      (es.lookup key).or (acc.lookup key) := by
  -- the accumulator holds what was put before, so the last entry under a key stays
  induction es generalizing acc with
  | nil => rfl
  | cons e es ih =>
    obtain ⟨hfresh, hrest⟩ := List.nodup_cons.1 h
    rw [List.foldl_cons, ih _ hrest, lookup_put, lookup_cons]
    by_cases hk : key = e.1
    · rw [if_pos hk, if_pos hk, hk, lookup_eq_none_iff.2 hfresh]
      rfl
    · rw [if_neg hk, if_neg hk]

theorem lookup_sorted (h : (es.map Prod.fst).Nodup) : es.sorted.lookup key = es.lookup key := by
  rw [sorted, lookup_foldl_put [] h]
  cases es.lookup key <;> rfl

theorem lookup_filter_bne (es : Entries α) {k : String} (h : key ≠ k) :
    List.lookup key (es.filter (·.1 != k)) = es.lookup key := by
  induction es with
  | nil => rfl
  | cons e es ih =>
    obtain ⟨l, v⟩ := e
    by_cases hl : l = k
    · rw [List.filter_cons_of_neg (by simp [hl]), ih, lookup_cons, if_neg (hl ▸ h)]
    · rw [List.filter_cons_of_pos (by simp [hl]), lookup_cons, lookup_cons, ih]

theorem filter_bne_of_ne (h : ∀ e ∈ es, e.1 ≠ key) : List.filter (·.1 != key) es = es :=
  List.filter_eq_self.2 fun e he => bne_iff_ne.2 (h e he)

theorem filter_bne_of_lookup (h : es.lookup key = none) : List.filter (·.1 != key) es = es := by
  apply filter_bne_of_ne
  rintro e he rfl
  exact lookup_eq_none_iff.1 h (List.mem_map_of_mem he)

theorem mem_sorted {e : String × α} (h : e ∈ es.sorted) :
    e ∈ es := by
  suffices ∀ (es acc : Entries α), e ∈ es.foldl (fun acc e => acc.put e.1 e.2) acc →
      e ∈ acc ∨ e ∈ es by simpa using this es [] h
  intro es
  induction es with
  | nil => exact fun acc h => .inl h
  | cons e' es ih =>
    intro acc h
    rcases ih _ h with h | h
    · rcases mem_put h with rfl | h
      · exact .inr List.mem_cons_self
      · exact .inl h
    · exact .inr (List.mem_cons_of_mem _ h)

theorem put_perm (value : α) (h : key ∉ es.map Prod.fst) :
    (es.put key value).Perm ((key, value) :: es) := by
  induction es with
  | nil => exact .refl _
  | cons e es ih =>
    rw [List.map_cons, List.mem_cons, not_or] at h
    rw [put]
    split
    · exact .refl _
    · rw [if_neg h.1]
      exact ((ih h.2).cons e).trans (.swap (key, value) e es)

theorem sorted_perm (h : (es.map Prod.fst).Nodup) : es.sorted.Perm es := by
  suffices ∀ (es acc : Entries α), ((acc ++ es).map Prod.fst).Nodup →
      (es.foldl (fun acc e => acc.put e.1 e.2) acc).Perm (acc ++ es) from this es [] h
  intro es
  induction es with
  | nil => intro acc _; rw [List.append_nil]; exact .refl _
  | cons e es ih =>
    intro acc hnodup
    have hmiddle : (acc ++ e :: es).Perm (e :: acc ++ es) := List.perm_middle
    have hfresh : e.1 ∉ acc.map Prod.fst := by
      have hcons := (hmiddle.map Prod.fst).nodup_iff.1 hnodup
      rw [List.cons_append, List.map_cons, List.nodup_cons, List.map_append] at hcons
      exact fun hmem => hcons.1 (List.mem_append_left _ hmem)
    have hput : (acc.put e.1 e.2 ++ es).Perm (acc ++ e :: es) :=
      ((put_perm e.2 hfresh).append_right es).trans hmiddle.symm
    exact (ih _ ((hput.map Prod.fst).nodup_iff.2 hnodup)).trans hput

/-- Entries under distinct keys have one order. -/
theorem sorted_eq_of_perm {es' : Entries α} (hp : es.Perm es') (h : (es'.map Prod.fst).Nodup) :
    es.sorted = es'.sorted := by
  have hsorted : es.sorted.Perm es'.sorted :=
    (sorted_perm ((hp.map Prod.fst).nodup_iff.2 h)).trans (hp.trans (sorted_perm h).symm)
  refine hsorted.eq_of_pairwise ?_ es.ascending_sorted es'.ascending_sorted
  intro a b _ _ hab hba
  exact absurd hba (String.lt_asymm hab)

end ResourceTable.Entries
