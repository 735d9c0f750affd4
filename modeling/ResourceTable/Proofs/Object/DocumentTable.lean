import ResourceTable.Proofs.Object.Document
import ResourceTable.Proofs.Table.Conversion
import ResourceTable.Proofs.Table.Wire

namespace ResourceTable

namespace Json

def inMetadata? (key : String) (v : Json) : Option Json :=
  (v.member? "metadata").bind (member? key)

def metadataText (key : String) (v : Json) : String :=
  match v.inMetadata? key with
  | some (.str s) => s
  | _ => ""

def createdText (v : Json) : String :=
  match v.inMetadata? "creationTimestamp" with
  | some (.str s) => ((Time.Strict.instant? s).map Time.Instant.wholeSeconds).getD unknownTime
  | _ => unknownTime

/-- The number of items left by the metadata, null if it is no integer of 64 bits with sign. -/
def remainingCount (v : Json) : Json :=
  match v.inMetadata? "remainingItemCount" with
  | some (.int n) => if -0x8000000000000000 ≤ n ∧ n < 0x8000000000000000 then .int n else .null
  | _ => .null

/-- The row of a document. -/
def tableRow (v : Json) : Json :=
  .obj [("cells", .arr [.str (v.metadataText "name"), .str v.createdText]),
    ("conditions", .arr []), ("object", v)]

def headers (options : Option TableOptions) : Entries Json :=
  if options = some .withoutHeaders then []
  else [("columnDefinitions", .arr (Column.generic.map Column.codec.encode))]

def tableOf (options : Option TableOptions) (v : Json) (continueToken : String) (remaining : Json)
    (elements : List Json) : Json :=
  .obj (headers options ++
    [("continue", .str continueToken), ("remainingItemCount", remaining),
      ("resourceVersion", .str (v.metadataText "resourceVersion")),
      ("rows", .arr (elements.map tableRow)), ("selfLink", .str (v.metadataText "selfLink"))])

/-- One row for each item, or the only row of a single object. -/
def table (options : Option TableOptions) (v : Json) : Json :=
  match v.member? "items" with
  | some (.arr items) => tableOf options v (v.metadataText "continue") v.remainingCount items
  | _ => tableOf options v "" .null [v]

theorem table_of_isSingle {options : Option TableOptions} {v : Json} (h : v.IsSingle) :
    v.table options = tableOf options v "" .null [v] := by
  rw [table]
  split
  · next items hitems => exact absurd hitems (h.2 items)
  · rfl

theorem table_of_items {options : Option TableOptions} {v : Json} {items : List Json}
    (h : v.member? "items" = some (.arr items)) :
    v.table options = tableOf options v (v.metadataText "continue") v.remainingCount items := by
  rw [table, h]

theorem text_metadata (v : Json) (key : String) :
    Dynamic.text (v.member? "metadata") key = v.metadataText key := by
  rw [metadataText, inMetadata?, Dynamic.text]
  rcases (v.member? "metadata").bind (member? key) with _ | (_ | _ | _ | _ | _ | _ | _) <;> rfl

theorem createdCell_metadata (v : Json) :
    createdCell (Dynamic.created (v.member? "metadata")) = v.createdText := by
  rw [createdText, inMetadata?, Dynamic.created]
  rcases (v.member? "metadata").bind (member? "creationTimestamp") with
    _ | (_ | _ | _ | _ | s | _ | _)
  case some.str =>
    show createdCell (Time.Strict.instant? s) =
      ((Time.Strict.instant? s).map Time.Instant.wholeSeconds).getD unknownTime
    cases Time.Strict.instant? s <;> rfl
  all_goals rfl

theorem remaining_metadata (v : Json) :
    (Codec.option .int64).encode (Dynamic.remaining (v.member? "metadata")) =
      v.remainingCount := by
  rw [remainingCount, inMetadata?, Dynamic.remaining]
  rcases (v.member? "metadata").bind (member? "remainingItemCount") with
    _ | (_ | _ | n | _ | _ | _ | _)
  case some.int =>
    have hmin : Int64.minValue.toInt = -0x8000000000000000 := rfl
    have hmax : Int64.maxValue.toInt = 0x7fffffffffffffff := rfl
    simp only [Option.bind_some, int64?, hmin, hmax]
    by_cases hn : -0x8000000000000000 ≤ n ∧ n < 0x8000000000000000
    · rw [if_pos hn, if_pos (by omega)]
      exact congrArg Json.int (Int64.toInt_ofInt_of_le hn.1 hn.2)
    · rw [if_neg hn, if_neg (by omega)]
      rfl
  all_goals rfl

end Json

namespace Convertor

open Json

theorem frame_of_isSingle {v : Json} (h : v.IsSingle) :
    frame v.toObject =
      ⟨v.metadataText "resourceVersion", v.metadataText "selfLink", "", none, [], []⟩ := by
  rw [toObject_of_isSingle h, ← text_metadata, ← text_metadata]
  rfl

theorem frame_of_items {v : Json} {items : List Json}
    (h : v.member? "items" = some (.arr items)) :
    frame v.toObject =
      ⟨v.metadataText "resourceVersion", v.metadataText "selfLink", v.metadataText "continue",
        Dynamic.remaining (v.member? "metadata"), [], []⟩ := by
  rw [toObject_collection h, ← text_metadata, ← text_metadata, ← text_metadata]
  rfl

theorem encode_infoRow (v : Json) :
    Row.codec.encode (infoRow (Dynamic.objectInfo (v.member? "metadata")) (some v)) =
      v.tableRow := by
  rw [Row.encode_eq_obj, tableRow, ← text_metadata, ← createdCell_metadata]
  rfl

theorem encode_columns (options : Option TableOptions) :
    (if (columns options).isEmpty then [] else
      [("columnDefinitions", Json.arr ((columns options).map Column.codec.encode))]) =
      headers options := by
  rcases options with _ | ⟨_ | _⟩ <;> rfl

/-- The JSON of a table whose rows show documents. -/
theorem encode_rows {options : Option TableOptions} {v : Json} {continueToken : String}
    {remaining : Option Int64} {elements : List Json} :
    Table.codec.encode
        ⟨v.metadataText "resourceVersion", v.metadataText "selfLink", continueToken, remaining,
          columns options, elements.map fun w =>
            infoRow (Dynamic.objectInfo (w.member? "metadata")) (some w)⟩ =
      v.tableOf options continueToken ((Codec.option .int64).encode remaining) elements := by
  rw [Table.encode_eq_obj, encode_columns, tableOf, List.map_map]
  simp only [Function.comp_def, encode_infoRow]

variable {ι : Type} [DecidableEq ι] [Hashable ι] {β : ι → Type}

variable {v : Json} {conv : Convertor} {ctx : Context β} {options : Option TableOptions}

theorem convert_document_isOk_iff :
    (∃ t, conv.convert ctx (Document.toObject ⟨v⟩) options = .ok t) ↔
      ∀ w ∈ v.elements, w.IsSingle := by
  rw [convert_isOk_iff, Document.toObject, elements_toObject, List.forall_mem_map]
  simp only [objectInfo?_toObject_ne_none_iff]

theorem encode_of_convert_document {t : Table Embedded}
    (ht : conv.convert ctx (Document.toObject ⟨v⟩) options = .ok t) :
    t.encode = .ok (v.table options) := by
  have hsingle := convert_document_isOk_iff.1 ⟨t, ht⟩
  have hshows : ∀ w ∈ v.elements,
      w.toObject.objectInfo? = some (Dynamic.objectInfo (w.member? "metadata")) := by
    intro w hw
    rw [toObject_of_isSingle (hsingle w hw)]
  obtain ⟨t', ht', hencode⟩ := convert_encode conv ctx options (elements_toObject v) hshows
    fun w _ => encoding_toObject w
  rw [Document.toObject, ht'] at ht
  rw [← Except.ok.inj ht, hencode]
  rcases (forall_elements_iff v).1 hsingle with h | ⟨items, h, -⟩
  · rw [frame_of_isSingle h, elements_of_isSingle h, table_of_isSingle h]
    exact congrArg Except.ok encode_rows
  · rw [frame_of_items h, elements_of_items h, table_of_items h, ← remaining_metadata]
    exact congrArg Except.ok encode_rows

end Convertor

end ResourceTable
