import ResourceTable.Proofs.Traversal
import ResourceTable.Table.Convertor

namespace ResourceTable

open Traversal

/-- The row of an object with metadata: name and creation time, no remarks, and the object. -/
def Row.Shows (r : Row Embedded) (o : Object) : Prop :=
  ∃ info, o.objectInfo? = some info ∧
    r = ⟨[.str info.name, .str (createdCell info.created)], [], .live o⟩

namespace Convertor

variable {ι : Type} [DecidableEq ι] [Hashable ι] {β : ι → Type}
variable {c : Convertor} {ctx : Context β} {o : Object} {options : Option TableOptions}

theorem row_eq_ok_iff {r : Row Embedded} : c.row ctx o = .ok r ↔ r.Shows o := by
  unfold row Object.objectInfo Row.Shows
  cases o.objectInfo? with
  | none => simp
  | some info => simp [eq_comm]

theorem row_eq_error_iff {e : TableError} :
    c.row ctx o = .error e ↔ o.objectInfo? = none ∧ e = .notAcceptable (c.resource ctx) := by
  unfold row Object.objectInfo
  cases o.objectInfo? with
  | none => simp [eq_comm]
  | some info => simp

theorem convert_eq_ok_iff {t : Table Embedded} :
    c.convert ctx o options = .ok t ↔
      List.Forall₂ (fun e r => r.Shows e) o.elements t.rows ∧
        t = { frame o with columns := columns options, rows := t.rows } := by
  unfold convert
  simp only [bind_eq_ok, mapM_eq_ok_iff, row_eq_ok_iff]
  constructor
  · rintro ⟨rows, hrows, h⟩
    cases h
    exact ⟨hrows, rfl⟩
  · rintro ⟨hrows, ht⟩
    exact ⟨t.rows, hrows, congrArg Except.ok ht.symm⟩

theorem convert_eq_error {e : TableError} (h : c.convert ctx o options = .error e) :
    (∃ x ∈ o.elements, x.objectInfo? = none) ∧ e = .notAcceptable (c.resource ctx) := by
  unfold convert at h
  cases hm : o.elements.mapM (c.row ctx) with
  | ok rows =>
    rw [hm] at h
    cases h
  | error e' =>
    rw [hm] at h
    cases h
    obtain ⟨x, hx, hr⟩ := exists_of_mapM_eq_error hm
    obtain ⟨hn, he⟩ := row_eq_error_iff.1 hr
    exact ⟨⟨x, hx, hn⟩, he⟩

theorem convert_isOk_iff :
    (∃ t, c.convert ctx o options = .ok t) ↔ ∀ e ∈ o.elements, e.objectInfo? ≠ none := by
  constructor
  · rintro ⟨t, ht⟩ e he hn
    obtain ⟨r, -, info, hi, -⟩ := exists_of_forall₂ (convert_eq_ok_iff.1 ht).1 he
    rw [hn] at hi
    cases hi
  · intro h
    cases hc : c.convert ctx o options with
    | ok t => exact ⟨t, rfl⟩
    | error e =>
      obtain ⟨⟨x, hx, hn⟩, -⟩ := convert_eq_error hc
      exact absurd hn (h x hx)

/-- Collections with the same elements and the same metadata are converted alike. -/
theorem convert_eq_of_collection {o' : Object} {items : List Object} {info : ListInfo}
    (hitems : o.items? = some items) (hitems' : o'.items? = some items)
    (hlist : o.listInfo? = some info) (hlist' : o'.listInfo? = some info) :
    c.convert ctx o options = c.convert ctx o' options := by
  have helements : o.elements = o'.elements := by
    rw [Object.elements, Object.elements, hitems, hitems']
    rfl
  have hframe : frame o = frame o' := by
    rw [frame, frame, Object.listInfo, Object.listInfo, hlist, hlist']
  rw [convert, convert, helements, hframe]

def infoRow {ε : Type} (info : ObjectInfo) (object : ε) : Row ε :=
  ⟨[.str info.name, .str (createdCell info.created)], [], object⟩

theorem convert_single {info : ObjectInfo} (c : Convertor) (ctx : Context β)
    (options : Option TableOptions) (hinfo : o.objectInfo? = some info) (hitems : o.items? = none) :
    c.convert ctx o options = .ok
      { frame o with columns := columns options, rows := [infoRow info (.live o)] } := by
  rw [convert_eq_ok_iff]
  refine ⟨?_, rfl⟩
  rw [Object.elements, hitems, Option.getD_none]
  exact .cons ⟨info, hinfo, rfl⟩ .nil

/-- Elements that show their metadata and encode: their table, and its JSON. -/
theorem convert_encode {α : Type} {xs : List α} {element : α → Object} {info : α → ObjectInfo}
    {encoding : α → Json} (c : Convertor) (ctx : Context β) (options : Option TableOptions)
    (helements : o.elements = xs.map element)
    (hshows : ∀ x ∈ xs, (element x).objectInfo? = some (info x))
    (hencodes : ∀ x ∈ xs, (element x).encoding = .ok (encoding x)) :
    ∃ t, c.convert ctx o options = .ok t ∧
      t.encode = .ok (Table.codec.encode
        { (frame o).withRows (xs.map fun x => infoRow (info x) (some (encoding x))) with
          columns := columns options }) := by
  have hconvert : c.convert ctx o options = .ok
      { frame o with
        columns := columns options
        rows := xs.map fun x => infoRow (info x) (.live (element x)) } := by
    rw [convert_eq_ok_iff]
    refine ⟨?_, rfl⟩
    rw [helements, List.forall₂_map_left_iff, List.forall₂_map_right_iff, List.forall₂_same]
    exact fun x hx => ⟨_, hshows x hx, rfl⟩
  have hsettle : (xs.map fun x => infoRow (info x) (.live (element x))).mapM Row.settle =
      .ok (xs.map fun x => infoRow (info x) (some (encoding x))) := by
    rw [List.mapM_map]
    refine mapM_eq_ok_map fun x hx => ?_
    simp only [Function.comp_apply, infoRow, Row.settle, Embedded.json?, hencodes x hx, Except.map]
    rfl
  refine ⟨_, hconvert, ?_⟩
  rw [Table.encode, Table.settle, hsettle]
  rfl

theorem columns_eq (options : Option TableOptions) :
    columns options = if options = some .withoutHeaders then [] else
      [⟨"Name", "string", "name", objectMetaDoc "name", 0⟩,
        ⟨"Created At", "date", "", objectMetaDoc "creationTimestamp", 0⟩] := by
  rcases options with _ | ⟨_ | _⟩ <;> rfl

end Convertor

end ResourceTable
