import ResourceTable.Object.Document
import ResourceTable.Proofs.Entries

namespace ResourceTable.Json

theorem toObjects_eq_map (vs : List Json) : toObjects vs = vs.map toObject := by
  induction vs with
  | nil => rfl
  | cons v vs ih => rw [toObjects, ih, List.map_cons]

theorem itemObjects?_eq (members : Entries Json) :
    itemObjects? members =
      (((obj members).member? "items").bind array?).map (·.map toObject) := by
  induction members with
  | nil => rfl
  | cons m members ih =>
    obtain ⟨key, v⟩ := m
    rw [itemObjects?, member?, Entries.lookup_cons]
    by_cases hk : key = "items"
    · rw [if_pos hk, if_pos hk.symm, Option.bind_some]
      cases v <;> simp [elementObjects?, array?, toObjects_eq_map]
    · rw [if_neg hk, if_neg (Ne.symm hk), ih, member?]

theorem isObject_of_member? {v w : Json} {key : String} (h : v.member? key = some w) :
    v.isObject = true := by
  cases v with
  | obj members => rfl
  | _ => cases h

theorem WellFormed.of_member? {v w : Json} {key : String} (hv : v.WellFormed)
    (h : v.member? key = some w) : w.WellFormed := by
  cases hv with
  | obj ascending each => exact each _ (Entries.mem_of_lookup h)
  | _ => cases h

/-- A JSON object whose `items` is no array. -/
def IsSingle (v : Json) : Prop :=
  v.isObject = true ∧ ∀ items, v.member? "items" ≠ some (.arr items)

theorem bind_array?_eq_none_iff {v : Option Json} :
    v.bind array? = none ↔ ∀ items, v ≠ some (.arr items) := by
  rcases v with _ | (_ | _ | _ | _ | _ | _ | _) <;> simp [array?]

theorem toObject_of_isSingle {v : Json} (h : v.IsSingle) :
    v.toObject = ⟨some (Dynamic.objectInfo (v.member? "metadata")), none, none, .ok v⟩ := by
  obtain ⟨hobject, hitems⟩ := h
  cases v with
  | obj members =>
    have hnone : itemObjects? members = none := by
      rw [itemObjects?_eq, bind_array?_eq_none_iff.2 hitems]
      rfl
    simp only [toObject, hnone, Document.objectInfo, Document.metadata?]
  | _ => cases hobject

theorem toObject_single {v metadata : Json} (hm : v.member? "metadata" = some metadata)
    (hi : (v.member? "items").bind array? = none) :
    v.toObject = ⟨some (Dynamic.objectInfo (some metadata)), none, none, .ok v⟩ := by
  rw [toObject_of_isSingle ⟨isObject_of_member? hm, bind_array?_eq_none_iff.1 hi⟩, hm]

theorem toObject_collection {v : Json} {items : List Json}
    (hi : v.member? "items" = some (.arr items)) :
    v.toObject =
      ⟨none, some (Dynamic.listInfo (v.member? "metadata")), some (items.map toObject), .ok v⟩ := by
  cases v with
  | obj members =>
    have hitems : itemObjects? members = some (items.map toObject) := by
      rw [itemObjects?_eq, hi]
      rfl
    simp only [toObject, hitems, Document.listInfo, Document.metadata?]
  | _ => cases hi

theorem toObject_of_not_isObject {v : Json} (h : v.isObject = false) : v.toObject = .ofJson v := by
  cases v with
  | obj members => cases h
  | _ => rfl

theorem isSingle_or (v : Json) :
    v.IsSingle ∨ (∃ items, v.member? "items" = some (.arr items)) ∨ v.isObject = false := by
  cases hobject : v.isObject with
  | false => exact .inr (.inr rfl)
  | true =>
    by_cases h : ∃ items, v.member? "items" = some (.arr items)
    · exact .inr (.inl h)
    · exact .inl ⟨hobject, not_exists.1 h⟩

def elements (v : Json) : List Json := ((v.member? "items").bind array?).getD [v]

theorem elements_of_isSingle {v : Json} (h : v.IsSingle) : v.elements = [v] := by
  rw [elements, bind_array?_eq_none_iff.2 h.2, Option.getD_none]

theorem elements_of_items {v : Json} {items : List Json}
    (h : v.member? "items" = some (.arr items)) : v.elements = items := by
  rw [elements, h]
  rfl

theorem elements_toObject (v : Json) : v.toObject.elements = v.elements.map toObject := by
  rcases v.isSingle_or with h | ⟨items, h⟩ | h
  · rw [elements_of_isSingle h, List.map_singleton, Object.elements, toObject_of_isSingle h]
    rfl
  · rw [elements_of_items h, Object.elements, toObject_collection h, Option.getD_some]
  · cases v with
    | obj members => cases h
    | _ => rfl

theorem forall_elements_iff (v : Json) :
    (∀ w ∈ v.elements, w.IsSingle) ↔
      v.IsSingle ∨ ∃ items, v.member? "items" = some (.arr items) ∧ ∀ w ∈ items, w.IsSingle := by
  by_cases h : ∃ items, v.member? "items" = some (.arr items)
  · obtain ⟨items, h⟩ := h
    rw [elements_of_items h, h]
    constructor
    · exact fun hsingle => .inr ⟨items, rfl, hsingle⟩
    · rintro (hv | ⟨_, heq, hsingle⟩)
      · exact absurd h (hv.2 items)
      · cases heq
        exact hsingle
  · rw [elements, bind_array?_eq_none_iff.2 (not_exists.1 h), Option.getD_none,
      List.forall_mem_singleton]
    constructor
    · exact .inl
    · rintro (hv | ⟨items, heq, -⟩)
      · exact hv
      · exact absurd ⟨items, heq⟩ h

theorem encoding_toObject (v : Json) : v.toObject.encoding = .ok v := by
  rcases v.isSingle_or with h | ⟨items, h⟩ | h
  · rw [toObject_of_isSingle h]
  · rw [toObject_collection h]
  · rw [toObject_of_not_isObject h]
    rfl

/-- Single objects show object metadata, and no other values do. -/
theorem objectInfo?_toObject_ne_none_iff {v : Json} :
    v.toObject.objectInfo? ≠ none ↔ v.IsSingle := by
  rcases v.isSingle_or with h | ⟨items, h⟩ | h
  · rw [toObject_of_isSingle h]
    exact iff_of_true (Option.some_ne_none _) h
  · rw [toObject_collection h]
    exact iff_of_false (fun hne => hne rfl) fun hsingle => hsingle.2 items h
  · rw [toObject_of_not_isObject h]
    refine iff_of_false (fun hne => hne rfl) fun hsingle => ?_
    rw [hsingle.1] at h
    cases h

end ResourceTable.Json
