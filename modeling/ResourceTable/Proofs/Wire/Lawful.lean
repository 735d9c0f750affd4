import ResourceTable.Proofs.Wire.Fields

namespace ResourceTable

open Wire Traversal

namespace Codec

variable {α : Type}

/-- Every value comes back from its own JSON. -/
def Lawful (c : Codec α) : Prop := ∀ x, c.decode (c.encode x) = .ok x

/-- The values with a property come back from their own JSON. -/
def LawfulOn (c : Codec α) (p : α → Prop) : Prop := ∀ x, p x → c.decode (c.encode x) = .ok x

theorem LawfulOn.encode_inj {c : Codec α} {p : α → Prop} (h : c.LawfulOn p) {x y : α} (hx : p x)
    (hy : p y) (hxy : c.encode x = c.encode y) : x = y := by
  have hdecode := congrArg c.decode hxy
  rw [h x hx, h y hy] at hdecode
  exact Except.ok.inj hdecode

theorem Lawful.lawfulOn {c : Codec α} (h : c.Lawful) (p : α → Prop) : c.LawfulOn p := fun x _ => h x

theorem Lawful.encode_injective {c : Codec α} (h : c.Lawful) : Function.Injective c.encode :=
  fun _ _ => (h.lawfulOn fun _ => True).encode_inj trivial trivial

theorem string_lawful : string.Lawful := fun _ => rfl

theorem bool_lawful : bool.Lawful := fun _ => rfl

theorem json_lawful : json.Lawful := fun _ => rfl

theorem integer_lawful {low high : Int} {expected : Expected} {ofInt : Int → α} {toInt : α → Int}
    (hrange : ∀ x, low ≤ toInt x ∧ toInt x ≤ high) (hinv : ∀ x, ofInt (toInt x) = x) :
    (integer low high expected ofInt toInt).Lawful := by
  intro x
  simp only [integer, scalar, if_pos (hrange x), hinv]

theorem int64_lawful : int64.Lawful :=
  integer_lawful (fun x => ⟨x.minValue_le_toInt, x.toInt_le⟩) Int64.ofInt_toInt

theorem int32_lawful : int32.Lawful :=
  integer_lawful (fun x => ⟨x.minValue_le_toInt, x.toInt_le⟩) Int32.ofInt_toInt

theorem uint16_lawful : uint16.Lawful := by
  refine integer_lawful (fun x => ?_) fun x => UInt16.ofNat_toNat
  have hlt := x.toNat_lt
  omega

theorem list_decode_encode {c : Codec α} {f : α → α} {xs : List α}
    (h : ∀ x ∈ xs, c.decode (c.encode x) = .ok (f x)) :
    (list c).decode ((list c).encode xs) = .ok (xs.map f) := by
  simp only [list, List.mapM_map]
  exact mapM_eq_ok_map h

theorem LawfulOn.list {c : Codec α} {p : α → Prop} (h : c.LawfulOn p) :
    (list c).LawfulOn fun xs => ∀ x ∈ xs, p x := by
  intro xs hxs
  rw [list_decode_encode (f := id) fun x hx => h x (hxs x hx), List.map_id]

theorem Lawful.list {c : Codec α} (h : c.Lawful) : (list c).Lawful :=
  fun xs => (h.lawfulOn fun _ => True).list xs fun _ _ => trivial

theorem Lawful.dict {c : Codec α} (h : c.Lawful) : (dict c).Lawful := by
  intro d
  simp only [Codec.dict, List.mapM_map]
  rw [mapM_eq_ok_map (g := id), List.map_id]
  · exact congrArg Except.ok (Dict.ofList_entries d)
  · rintro ⟨key, x⟩ -
    simp only [Function.comp_apply, h x]
    rfl

theorem option_decode_eq_ok_iff {c : Codec α} {v : Json} {x : Option α} :
    (option c).decode v = .ok x ↔
      v = .null ∧ x = none ∨ v ≠ .null ∧ ∃ y, c.decode v = .ok y ∧ some y = x := by
  cases v with
  | null => simp [option, eq_comm]
  | _ => simp [option, map_eq_ok]

/-- A value comes back from an optional place, unless its JSON is null: that is nothing. -/
theorem option_decode_some {c : Codec α} {x y : α} (h : c.decode (c.encode x) = .ok y) :
    (option c).decode ((option c).encode (some x)) =
      .ok (if c.encode x = .null then none else some y) := by
  simp only [option]
  cases hv : c.encode x <;> simp_all [Except.map]

theorem Lawful.option {c : Codec α} (h : c.Lawful) (hn : ∀ x, c.encode x ≠ .null) :
    (option c).Lawful := by
  intro x
  cases x with
  | none => rfl
  | some x => rw [option_decode_some (h x), if_neg (hn x)]

theorem optional_int64_lawful : (option int64).Lawful := int64_lawful.option nofun

end Codec

namespace Field

open Codec

variable {α : Type} {key : String} {c : Codec α} {x y : α}

theorem keeps_required (h : c.decode (c.encode x) = .ok y) : (required key c).Keeps x y := h

theorem keeps_optional {absent : α} (h : c.decode (c.encode x) = .ok y) :
    (optional key c absent).Keeps x y := h

/-- A compact field keeps what comes back or is left out for what it stands for. -/
theorem keeps_compact {absent : α} {isEmpty : α → Bool}
    (h : isEmpty x = false → c.decode (c.encode x) = .ok y)
    (he : isEmpty x = true → absent = y) : (compact key c absent isEmpty).Keeps x y := by
  unfold Keeps compact
  by_cases hx : isEmpty x = true
  · rw [if_pos hx]
    exact congrArg some (he hx)
  · rw [if_neg hx]
    exact h (eq_false_of_ne_true hx)

theorem keeps_text (key s : String) : (compact key .string "" String.isEmpty).Keeps s s :=
  keeps_compact (fun _ => string_lawful s) fun h => (String.isEmpty_iff.1 h).symm

end Field

end ResourceTable
