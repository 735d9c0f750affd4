import ResourceTable.Metadata.Docs
import ResourceTable.Wire.Record

namespace ResourceTable

structure Column where
  name : String
  type : String
  /-- Narrows the type; `name` marks the column that names the row. -/
  format : String
  description : String
  priority : Int32
  deriving DecidableEq

namespace Column

def ofType (name type : String) : Column := ⟨name, type, "", "", 0⟩

def withFormat (c : Column) (format : String) : Column := { c with format := format }

def withDescription (c : Column) (description : String) : Column :=
  { c with description := description }

def withPriority (c : Column) (priority : Int32) : Column := { c with priority := priority }

/-- The columns of the generic table: the name of each object and when it was created. -/
def generic : List Column :=
  [((ofType "Name" "string").withFormat "name").withDescription (objectMetaDoc "name"),
    (ofType "Created At" "date").withDescription (objectMetaDoc "creationTimestamp")]

def codec : Codec Column :=
  Fields.codec
    (.cons (.required "name" .string) <| .cons (.required "type" .string) <|
      .cons (.optional "format" .string "") <| .cons (.optional "description" .string "") <|
      .cons (.optional "priority" .int32 0) .nil)
    "TableColumnDefinition"
    (fun (name, type, format, description, priority, ()) =>
      ⟨name, type, format, description, priority⟩)
    (fun c => (c.name, c.type, c.format, c.description, c.priority, ()))

end Column

end ResourceTable
