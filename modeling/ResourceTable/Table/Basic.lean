import ResourceTable.Table.Column
import ResourceTable.Table.Row

namespace ResourceTable

/-- A table whose rows embed values of type `ε`. -/
structure Table (ε : Type) where
  resourceVersion : String
  selfLink : String
  continueToken : String
  remaining : Option Int64
  columns : List Column
  rows : List (Row ε)
  deriving DecidableEq

namespace Table

variable {ε φ : Type}

def empty : Table ε := ⟨"", "", "", none, [], []⟩

def withRows (t : Table ε) (rows : List (Row φ)) : Table φ :=
  ⟨t.resourceVersion, t.selfLink, t.continueToken, t.remaining, t.columns, rows⟩

/-- The table as it goes over the wire; the first row whose object does not encode decides. -/
def settle (t : Table Embedded) : Except EncodeError (Table (Option Json)) :=
  (t.rows.mapM Row.settle).map t.withRows

def received (t : Table (Option Json)) : Table Embedded := t.withRows (t.rows.map Row.received)

/-- Every field may be missing; columns are left out where there are none. -/
def codec : Codec (Table (Option Json)) :=
  let text (key : String) : Field String := .optional key .string ""
  Fields.codec
    (.cons (text "resourceVersion") <| .cons (text "selfLink") <| .cons (text "continue") <|
      .cons (.optional "remainingItemCount" (.option .int64) none) <|
      .cons (.compact "columnDefinitions" (.list Column.codec) [] List.isEmpty) <|
      .cons (.optional "rows" (.list Row.codec) []) .nil)
    "Table"
    (fun (resourceVersion, selfLink, continueToken, remaining, columns, rows, ()) =>
      ⟨resourceVersion, selfLink, continueToken, remaining, columns, rows⟩)
    (fun t =>
      (t.resourceVersion, t.selfLink, t.continueToken, t.remaining, t.columns, t.rows, ()))

def encode (t : Table Embedded) : Except EncodeError Json := t.settle.map codec.encode

def text (t : Table Embedded) : Except EncodeError String := t.settle.map codec.text

def decode (v : Json) : Except Wire.DecodeError (Table Embedded) := (codec.decode v).map received

end Table

end ResourceTable
