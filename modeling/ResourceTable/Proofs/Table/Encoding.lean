import ResourceTable.Proofs.Table.RoundTrip

namespace ResourceTable

open Traversal

def Embedded.Fails (x : Embedded) (e : EncodeError) : Prop :=
  ∃ o, x = .live o ∧ o.encoding = .error e

/-- The member that a row has for what it embeds, if it embeds anything. -/
inductive Embedded.WrittenAs : Embedded → Entries Json → Prop
  | nothing : WrittenAs .nothing []
  | live {o : Object} {v : Json} (h : o.encoding = .ok v) : WrittenAs (.live o) [("object", v)]
  | raw (v : Json) : WrittenAs (.raw v) [("object", v)]

/-- The JSON of a row has the cells, the conditions, and what is embedded. -/
def Row.WrittenAs (r : Row Embedded) (v : Json) : Prop :=
  ∃ object, r.object.WrittenAs object ∧
    v = .obj ([("cells", .arr r.cells),
      ("conditions", .arr (r.conditions.map Condition.codec.encode))] ++ object)

theorem Embedded.json?_eq_error_iff {x : Embedded} {e : EncodeError} :
    x.json? = .error e ↔ x.Fails e := by
  cases x with
  | live o => simp [json?, Fails, map_eq_error]
  | _ => simp [json?, Fails]

theorem Embedded.writtenAs_of_json? {x : Embedded} {v : Option Json} (h : x.json? = .ok v) :
    x.WrittenAs (v.toList.map fun v => ("object", v)) := by
  cases x with
  | nothing =>
    cases h
    exact .nothing
  | live o =>
    obtain ⟨w, hw, rfl⟩ := map_eq_ok.1 h
    exact .live hw
  | raw w =>
    cases h
    exact .raw w

theorem Row.writtenAs_of_settle {r : Row Embedded} {s : Row (Option Json)}
    (h : r.settle = .ok s) : r.WrittenAs (Row.codec.encode s) := by
  obtain ⟨v, hv, rfl⟩ := map_eq_ok.1 h
  exact ⟨_, Embedded.writtenAs_of_json? hv, Row.encode_eq_obj _⟩

theorem Row.settle_eq_error_iff {r : Row Embedded} {e : EncodeError} :
    r.settle = .error e ↔ r.object.Fails e := by
  rw [settle, map_eq_error, Embedded.json?_eq_error_iff]

theorem Row.settle_isOk_iff {r : Row Embedded} :
    (∃ s, r.settle = .ok s) ↔ ∀ e, ¬ r.object.Fails e := by
  simp only [← settle_eq_error_iff]
  cases r.settle <;> simp

namespace Table

theorem encode_eq_error_iff {t : Table Embedded} {e : EncodeError} :
    t.encode = .error e ↔ ∃ before r after, t.rows = before ++ r :: after ∧
      (∀ b ∈ before, ∀ e', ¬ b.object.Fails e') ∧ r.object.Fails e := by
  simp only [encode, settle, map_eq_error, mapM_eq_error_iff, Row.settle_eq_error_iff,
    Row.settle_isOk_iff]

theorem encode_isOk_iff {t : Table Embedded} :
    (∃ v, t.encode = .ok v) ↔ ∀ r ∈ t.rows, ∀ e, ¬ r.object.Fails e := by
  constructor
  · rintro ⟨v, hv⟩ r hr
    obtain ⟨u, hu, -⟩ := map_eq_ok.1 hv
    obtain ⟨rows, hrows, -⟩ := map_eq_ok.1 hu
    obtain ⟨s, -, hs⟩ := exists_of_forall₂ (mapM_eq_ok_iff.1 hrows) hr
    exact Row.settle_isOk_iff.1 ⟨s, hs⟩
  · intro h
    cases hencode : t.encode with
    | ok v => exact ⟨v, rfl⟩
    | error e =>
      obtain ⟨before, r, after, hrows, -, hfails⟩ := encode_eq_error_iff.1 hencode
      refine absurd hfails (h r ?_ e)
      rw [hrows]
      exact List.mem_append_right _ List.mem_cons_self

theorem exists_encode_error_iff {t : Table Embedded} :
    (∃ e, t.encode = .error e) ↔ ∃ r ∈ t.rows, ∃ e, r.object.Fails e := by
  have hfails : (∃ e, t.encode = .error e) ↔ ¬ ∃ v, t.encode = .ok v := by
    cases t.encode <;> simp
  rw [hfails, encode_isOk_iff]
  simp only [not_forall, not_not, exists_prop]

theorem eq_obj_of_encode {t : Table Embedded} {v : Json} (h : t.encode = .ok v) :
    ∃ rows, List.Forall₂ Row.WrittenAs t.rows rows ∧
      v = .obj ((if t.columns = [] then [] else
          [("columnDefinitions", .arr (t.columns.map Column.codec.encode))]) ++
        [("continue", .str t.continueToken),
          ("remainingItemCount", t.remaining.elim .null fun n => .int n.toInt),
          ("resourceVersion", .str t.resourceVersion), ("rows", .arr rows),
          ("selfLink", .str t.selfLink)]) := by
  obtain ⟨u, hu, rfl⟩ := map_eq_ok.1 h
  obtain ⟨rows, hrows, rfl⟩ := map_eq_ok.1 hu
  refine ⟨rows.map Row.codec.encode, ?_, ?_⟩
  · rw [List.forall₂_map_right_iff]
    exact (mapM_eq_ok_iff.1 hrows).imp fun _ _ => Row.writtenAs_of_settle
  · have hcolumns : (if t.columns.isEmpty then [] else
        [("columnDefinitions", Json.arr (t.columns.map Column.codec.encode))]) =
        if t.columns = [] then [] else
          [("columnDefinitions", .arr (t.columns.map Column.codec.encode))] := by
      simp only [List.isEmpty_iff]
    have hremaining : (Codec.option .int64).encode t.remaining =
        t.remaining.elim .null fun n => .int n.toInt := by
      cases t.remaining <;> rfl
    rw [encode_eq_obj, ← hcolumns, ← hremaining]
    rfl

end Table

def Object.withEncoding (f : Object → Except EncodeError Json) (o : Object) : Object :=
  { o with encoding := f o }

/-- The object and its elements with other encodings. -/
def Object.reencoded (f : Object → Except EncodeError Json) (o : Object) : Object :=
  { o.withEncoding f with items? := o.items?.map fun items => items.map (withEncoding f) }

def Table.reencoded (f : Object → Except EncodeError Json) (t : Table Embedded) : Table Embedded :=
  t.withRows (t.rows.map fun r => r.embed (match r.object with
    | .live o => .live (o.withEncoding f)
    | object => object))

theorem Object.elements_reencoded (f : Object → Except EncodeError Json) (o : Object) :
    (o.reencoded f).elements = o.elements.map (withEncoding f) := by
  obtain ⟨objectInfo?, listInfo?, items?, encoding⟩ := o
  cases items? with
  | none => rfl
  | some items => rfl

namespace Convertor

variable {ι : Type} [DecidableEq ι] [Hashable ι] {β : ι → Type}

/-- A conversion takes over whatever encodings there are. -/
theorem convert_reencoded (c : Convertor) (ctx : Context β) (o : Object)
    (options : Option TableOptions) (f : Object → Except EncodeError Json) :
    c.convert ctx (o.reencoded f) options = (c.convert ctx o options).map (Table.reencoded f) := by
  cases h : c.convert ctx o options with
  | ok t =>
    obtain ⟨hrows, ht⟩ := convert_eq_ok_iff.1 h
    refine convert_eq_ok_iff.2 ⟨?_, ?_⟩
    · rw [Object.elements_reencoded, Table.reencoded, Table.withRows, List.forall₂_map_left_iff,
        List.forall₂_map_right_iff]
      refine hrows.imp ?_
      rintro e r ⟨info, hinfo, rfl⟩
      exact ⟨info, hinfo, rfl⟩
    · rw [ht]
      rfl
  | error e =>
    obtain ⟨⟨x, hx, hnone⟩, rfl⟩ := convert_eq_error h
    cases h' : c.convert ctx (o.reencoded f) options with
    | ok t =>
      -- the element without metadata is still there, and still has none
      have hmem : x.withEncoding f ∈ (o.reencoded f).elements := by
        rw [Object.elements_reencoded]
        exact List.mem_map_of_mem hx
      have hshown := convert_isOk_iff.1 ⟨t, h'⟩ (x.withEncoding f) hmem
      exact absurd hnone hshown
    | error e' =>
      rw [(convert_eq_error h').2]
      rfl

theorem encode_isOk_iff_of_convert {c : Convertor} {ctx : Context β} {o : Object}
    {options : Option TableOptions} {t : Table Embedded} (h : c.convert ctx o options = .ok t) :
    (∃ v, t.encode = .ok v) ↔ ∀ x ∈ o.elements, ∃ w, x.encoding = .ok w := by
  rw [Table.encode_isOk_iff]
  refine (forall_mem_iff ?_ (convert_eq_ok_iff.1 h).1).symm
  rintro x r ⟨info, -, rfl⟩
  cases hx : x.encoding <;> simp [Embedded.Fails, hx]

/-- The error of a table is that of the first row whose live object does not encode.  Converting asks
no object for its encoding. -/
theorem encoding_rowwise :
    (∀ t : Table Embedded,
      ((∃ e, t.encode = .error e) ↔ ∃ r ∈ t.rows, ∃ e, r.object.Fails e) ∧
      (∀ e, t.encode = .error e ↔ ∃ before r after, t.rows = before ++ r :: after ∧
        (∀ b ∈ before, ∀ e', ¬ b.object.Fails e') ∧ r.object.Fails e) ∧
      ∀ v, t.encode = .ok v → ∃ rows, List.Forall₂ Row.WrittenAs t.rows rows ∧
        v = .obj ((if t.columns = [] then [] else
            [("columnDefinitions", .arr (t.columns.map Column.codec.encode))]) ++
          [("continue", .str t.continueToken),
            ("remainingItemCount", t.remaining.elim .null fun n => .int n.toInt),
            ("resourceVersion", .str t.resourceVersion), ("rows", .arr rows),
            ("selfLink", .str t.selfLink)])) ∧
    ∀ (c : Convertor) (ctx : Context β) (o : Object) (options : Option TableOptions),
      (∀ f, c.convert ctx (o.reencoded f) options =
        (c.convert ctx o options).map (Table.reencoded f)) ∧
      ∀ t, c.convert ctx o options = .ok t →
        ((∃ v, t.encode = .ok v) ↔ ∀ x ∈ o.elements, ∃ w, x.encoding = .ok w) := by
  refine ⟨fun t => ⟨?_, fun e => ?_, fun v hv => ?_⟩, fun c ctx o options =>
    ⟨fun f => ?_, fun t ht => ?_⟩⟩
  · exact Table.exists_encode_error_iff
  · exact Table.encode_eq_error_iff
  · exact Table.eq_obj_of_encode hv
  · exact convert_reencoded c ctx o options f
  · exact encode_isOk_iff_of_convert ht

theorem encoding_rowwise_null :
    let object (name : String) (encoding : Except EncodeError Json) : Object :=
      ⟨some ⟨⟨"", ""⟩, name, "", none⟩, none, none, encoding⟩
    let o : Object := ⟨none, none, some [object "a" (.ok .null), object "b" (.error ⟨"closed"⟩),
      object "c" (.error ⟨"lost"⟩)], .ok .null⟩
    let conv : Convertor := ⟨⟨"", "pods"⟩⟩
    let ctx : Context fun _ : Unit => String := .empty
    let u : Table Embedded := ⟨"7", "", "", none, [], [⟨[], [], .raw .null⟩, ⟨[], [], .nothing⟩,
      ⟨[], [], .live (object "a" (.ok .null))⟩]⟩
    (∃ t, conv.convert ctx o none = .ok t ∧ t.encode = .error ⟨"closed"⟩) ∧
    ∃ v, u.encode = .ok v ∧ v.member? "remainingItemCount" = some .null ∧
      v.member? "rows" = some (.arr [
        .obj [("cells", .arr []), ("conditions", .arr []), ("object", .null)],
        .obj [("cells", .arr []), ("conditions", .arr [])],
        .obj [("cells", .arr []), ("conditions", .arr []), ("object", .null)]]) := by
  intro object o conv ctx u
  obtain ⟨hencode, hconvert⟩ := encoding_rowwise (β := fun _ : Unit => String)
  refine ⟨⟨_, rfl, ?_⟩, ?_⟩
  · refine ((hencode _).2.1 _).2 ⟨[_], _, [_], rfl, ?_, _, rfl, rfl⟩
    rintro b hb e ⟨o', ho, he⟩
    rw [List.mem_singleton.1 hb] at ho
    cases ho
    cases he
  · obtain ⟨v, hv⟩ : ∃ v, u.encode = .ok v := ⟨_, rfl⟩
    obtain ⟨rows, hrows, hobj⟩ := (hencode u).2.2 v hv
    refine ⟨v, hv, ?_⟩
    rw [hobj]
    rcases hrows with _ | ⟨⟨_, ⟨⟩, rfl⟩, _ | ⟨⟨_, ⟨⟩, rfl⟩, _ | ⟨⟨_, hlive, rfl⟩, ⟨⟩⟩⟩⟩
    cases hlive with
    | live hnull =>
      cases hnull
      exact ⟨rfl, rfl⟩

end Convertor

end ResourceTable
