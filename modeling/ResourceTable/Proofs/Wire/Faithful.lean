import ResourceTable.Proofs.Json.Values
import ResourceTable.Wire.Record

namespace ResourceTable

open Wire

namespace Codec

variable {α β : Type} {c : Codec α} {depth : Nat}

/-- The tree that is written for `x` spells the JSON that `x` is encoded as. -/
def Faithful (c : Codec α) (depth : Nat) (x : α) : Prop := (c.write x).Spells depth (c.encode x)

theorem scalar_faithful {encode : α → Json} {decode : Json → Except DecodeError α} {x : α}
    (h : (encode x).Fits depth) : (scalar encode decode).Faithful depth x :=
  h.spells

theorem string_faithful (s : String) : string.Faithful depth s := scalar_faithful ⟨.str s, .str s⟩

theorem bool_faithful (b : Bool) : bool.Faithful depth b := scalar_faithful ⟨.bool b, .bool b⟩

theorem integer_faithful {low high : Int} {expected : Expected} {ofInt : Int → α}
    {toInt : α → Int} {x : α} (lower : -0x8000000000000000 ≤ toInt x)
    (upper : toInt x < 0x10000000000000000) :
    (integer low high expected ofInt toInt).Faithful depth x :=
  scalar_faithful ⟨.int lower upper, .int _⟩

theorem int64_faithful (x : Int64) : int64.Faithful depth x := by
  have lower : -0x8000000000000000 ≤ x.toInt := x.minValue_le_toInt
  have upper : x.toInt ≤ 0x7fffffffffffffff := x.toInt_le
  exact integer_faithful lower (by omega)

theorem int32_faithful (x : Int32) : int32.Faithful depth x := by
  have lower : -0x80000000 ≤ x.toInt := x.minValue_le_toInt
  have upper : x.toInt ≤ 0x7fffffff := x.toInt_le
  exact integer_faithful (by omega) (by omega)

theorem uint16_faithful (x : UInt16) : uint16.Faithful depth x := by
  have upper := x.toNat_lt
  exact integer_faithful (by omega) (by omega)

theorem instant_faithful (t : Time.Instant) : instant.Faithful depth t :=
  scalar_faithful ⟨.str t.text, .str t.text⟩

theorem json_faithful {v : Json} (h : v.Fits depth) : json.Faithful depth v := h.spells

theorem iso_faithful {wrap : α → β} {unwrap : β → α} {y : β}
    (h : c.Faithful depth (unwrap y)) : (c.iso wrap unwrap).Faithful depth y :=
  h

theorem option_faithful {x : Option α} (h : ∀ y, x = some y → c.Faithful depth y) :
    (option c).Faithful depth x := by
  cases x with
  | none => exact ⟨.null, rfl⟩
  | some y => exact h y rfl

theorem list_faithful {xs : List α} (each : ∀ x ∈ xs, c.Faithful depth x) :
    (list c).Faithful (depth + 1) xs := by
  refine Tree.spells_arr ?_
  rw [List.forall₂_map_left_iff, List.forall₂_map_right_iff, List.forall₂_same]
  exact each

theorem dict_faithful {d : Dict α} (each : ∀ e ∈ d.entries, c.Faithful depth e.2) :
    (dict c).Faithful (depth + 1) d := by
  have hascending : Entries.Ascending (d.entries.map fun e => (e.1, c.encode e.2)) :=
    List.pairwise_map.2 d.ascending
  simp only [Faithful, dict]
  rw [← Json.object_of_ascending hascending]
  refine Tree.spells_obj ?_
  rw [List.forall₂_map_left_iff, List.forall₂_map_right_iff, List.forall₂_same]
  exact fun e he => ⟨rfl, each e he⟩

end Codec

namespace Fields

variable {ρ δ : Type} {depth : Nat}

def Faithful (depth : Nat) : {ρ δ : Type} → Fields ρ δ → ρ → Prop
  | _, _, .nil, () => True
  | _, _, .cons f rest, (x, r) =>
    (f.leaveOut x = false → f.codec.Faithful depth x) ∧ rest.Faithful depth r

/-- The same fields are left out of the text and of the value. -/
theorem forall₂_write_encode {fs : Fields ρ δ} {r : ρ} (h : fs.Faithful depth r) :
    List.Forall₂ (Tree.MemberSpells depth) (fs.write r) (fs.encode r) := by
  induction fs with
  | nil => exact .nil
  | cons f rest ih =>
    obtain ⟨x, r⟩ := r
    simp only [write, encode]
    split
    · exact ih h.2
    · next hx => exact .cons ⟨rfl, h.1 (eq_false_of_ne_true hx)⟩ (ih h.2)

theorem codec_faithful {α : Type} {fs : Fields ρ δ} {name : String} {ofRow : ρ → α}
    {toRow : α → ρ} {x : α} (h : fs.Faithful depth (toRow x)) :
    (fs.codec name ofRow toRow).Faithful (depth + 1) x :=
  Tree.spells_obj (forall₂_write_encode h)

end Fields

end ResourceTable
