import ResourceTable.Proofs.Wire.Lawful
import ResourceTable.Table.Basic

namespace ResourceTable

open Codec Traversal

theorem Column.codec_lawful : Column.codec.Lawful := by
  intro x
  unfold Column.codec
  exact Fields.decode_encode_self (by decide) rfl
    ⟨Field.keeps_required (string_lawful x.name), Field.keeps_required (string_lawful x.type),
      Field.keeps_optional (string_lawful x.format),
      Field.keeps_optional (string_lawful x.description),
      Field.keeps_optional (int32_lawful x.priority), trivial⟩

theorem Condition.codec_lawful : Condition.codec.Lawful := by
  intro x
  unfold Condition.codec
  exact Fields.decode_encode_self (by decide) rfl
    ⟨Field.keeps_required (string_lawful x.type), Field.keeps_required (string_lawful x.status),
      Field.keeps_text _ x.reason, Field.keeps_text _ x.message, trivial⟩

/-- What is still embedded after the way over the wire. -/
def Embedded.arrived (o : Option Json) : Option Json := if o = some .null then none else o

theorem Embedded.decode_encode (o : Option Json) :
    codec.decode (codec.encode o) = .ok (arrived o) := by
  cases o with
  | none => rfl
  | some v =>
    rw [codec, option_decode_some (json_lawful v)]
    by_cases hv : v = .null
    · simp [arrived, json, hv]
    · simp [arrived, json, hv]

theorem Embedded.arrived_eq_self_iff {o : Option Json} : arrived o = o ↔ o ≠ some .null := by
  unfold arrived
  split
  · next h => simp [h]
  · next h => simp [h]

namespace Row

def arrived (r : Row (Option Json)) : Row (Option Json) := r.embed (Embedded.arrived r.object)

theorem decode_encode (r : Row (Option Json)) : codec.decode (codec.encode r) = .ok r.arrived := by
  unfold codec
  exact Fields.decode_encode (r := (r.cells, r.conditions, Embedded.arrived r.object, ()))
    (by decide)
    ⟨Field.keeps_required (json_lawful.list r.cells),
      Field.keeps_optional (Condition.codec_lawful.list r.conditions),
      Field.keeps_compact (fun _ => Embedded.decode_encode r.object) (by
        intro h
        rw [Option.isNone_iff_eq_none.1 h]
        rfl),
      trivial⟩

theorem encode_eq_obj (r : Row (Option Json)) :
    codec.encode r = .obj ([("cells", .arr r.cells),
      ("conditions", .arr (r.conditions.map Condition.codec.encode))] ++
        r.object.toList.map fun v => ("object", v)) := by
  obtain ⟨cells, conditions, object⟩ := r
  have hcells : cells.map Codec.json.encode = cells := List.map_id cells
  simp only [codec, Fields.codec, Fields.encode, Json.object, Field.required, Field.optional,
    Field.compact, Codec.list, Bool.false_eq_true, if_false, hcells]
  cases object with
  | none => exact congrArg Json.obj (Entries.sorted_of_keys ["cells", "conditions"] rfl (by decide))
  | some v =>
    exact congrArg Json.obj
      (Entries.sorted_of_keys ["cells", "conditions", "object"] rfl (by decide))

theorem member?_object (r : Row (Option Json)) : (codec.encode r).member? "object" = r.object := by
  unfold codec
  rw [Fields.member?_encode (by decide)]
  simp only [Fields.lookup_encode_cons, Field.required, Field.optional, Field.compact]
  cases r.object <;> rfl

theorem encode_injective_object {r s : Row (Option Json)} (h : codec.encode r = codec.encode s) :
    r.object = s.object := by
  rw [← member?_object r, h, member?_object]

end Row

namespace Table

def arrived (t : Table (Option Json)) : Table (Option Json) := t.withRows (t.rows.map Row.arrived)

theorem decode_encode (t : Table (Option Json)) :
    codec.decode (codec.encode t) = .ok t.arrived := by
  unfold codec
  exact Fields.decode_encode
    (r := (t.resourceVersion, t.selfLink, t.continueToken, t.remaining, t.columns,
      t.rows.map Row.arrived, ()))
    (by decide)
    ⟨Field.keeps_optional (string_lawful t.resourceVersion),
      Field.keeps_optional (string_lawful t.selfLink),
      Field.keeps_optional (string_lawful t.continueToken),
      Field.keeps_optional (optional_int64_lawful t.remaining),
      Field.keeps_compact (fun _ => Column.codec_lawful.list t.columns)
        (fun h => (List.isEmpty_iff.1 h).symm),
      Field.keeps_optional (list_decode_encode fun r _ => r.decode_encode), trivial⟩

theorem member?_rows (t : Table (Option Json)) :
    (codec.encode t).member? "rows" = some (.arr (t.rows.map Row.codec.encode)) := by
  unfold codec
  rw [Fields.member?_encode (by decide)]
  simp only [Fields.lookup_encode_cons, Field.optional, Field.compact]
  rfl

theorem encode_eq_obj (t : Table (Option Json)) :
    codec.encode t = .obj ((if t.columns.isEmpty then [] else
      [("columnDefinitions", .arr (t.columns.map Column.codec.encode))]) ++
        [("continue", .str t.continueToken),
          ("remainingItemCount", (Codec.option .int64).encode t.remaining),
          ("resourceVersion", .str t.resourceVersion),
          ("rows", .arr (t.rows.map Row.codec.encode)), ("selfLink", .str t.selfLink)]) := by
  simp only [codec, Fields.codec, Fields.encode, Json.object, Entries.sorted, Field.optional,
    Field.compact, Codec.list, Codec.string, Codec.scalar, Bool.false_eq_true, if_false]
  -- the columns go in last but one, and come first
  cases t.columns with
  | nil =>
    simp only [List.isEmpty_nil, List.foldl_cons, List.foldl_nil, Entries.put, String.reduceLT,
      String.reduceEq, if_true, if_false]
    rfl
  | cons c columns =>
    simp only [List.isEmpty_cons, Bool.false_eq_true, List.foldl_cons, List.foldl_nil, Entries.put,
      String.reduceLT, String.reduceEq, if_true, if_false]
    rfl

theorem arrived_eq_self {t : Table (Option Json)} (h : ∀ r ∈ t.rows, r.object ≠ some .null) :
    t.arrived = t := by
  have hrows : t.rows.map Row.arrived = t.rows := by
    conv_rhs => rw [← List.map_id t.rows]
    rw [List.map_inj_left]
    intro r hr
    rw [Row.arrived, Embedded.arrived_eq_self_iff.2 (h r hr)]
    rfl
  rw [arrived, hrows]
  rfl

/-- The way over the wire shows in the JSON where a row embeds null, and nowhere else. -/
theorem encode_arrived_iff (t : Table (Option Json)) :
    codec.encode t.arrived = codec.encode t ↔ ∀ r ∈ t.rows, r.object ≠ some .null := by
  constructor
  · intro h r hr
    -- the JSON tells null from nothing, so equal JSON means equal objects in each row
    have hrows := congrArg (Json.member? "rows") h
    rw [member?_rows, member?_rows, arrived, withRows, List.map_map] at hrows
    have hrow : Row.codec.encode r.arrived = Row.codec.encode r :=
      List.map_inj_left.1 (Json.arr.inj (Option.some.inj hrows)) r hr
    exact Embedded.arrived_eq_self_iff.1 (Row.encode_injective_object hrow)
  · intro h
    rw [arrived_eq_self h]

end Table

end ResourceTable
