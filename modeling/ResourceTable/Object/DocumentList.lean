import ResourceTable.Object.Document

namespace ResourceTable

/-- Documents, and the members beside `items` as they are. -/
structure DocumentList where
  fields : Dict Json
  items : List Document
  deriving DecidableEq

namespace DocumentList

def empty : DocumentList := ⟨.empty, []⟩

def ofItems (items : List Document) : DocumentList := ⟨.empty, items⟩

def withField (l : DocumentList) (key : String) (value : Json) : DocumentList :=
  { l with fields := l.fields.insert key value }

def listInfo (l : DocumentList) : ListInfo := Dynamic.listInfo (l.fields.get? "metadata")

def same (a b : DocumentList) : Bool :=
  Json.sameMembers a.fields.entries b.fields.entries &&
    Json.sameItems (a.items.map Document.value) (b.items.map Document.value)

/-- The items of a draft, or the members beside them, with one more member of a text. -/
def meetText (depth : Nat) (draft : Option (List Document) × Entries Json)
    (member : Option String × Tree) :
    Except Wire.ReadFault (Option (List Document) × Entries Json) := do
  match member with
  | (none, _) => throw .notJson
  | (some "items", t) =>
    if draft.1.isSome then throw .mismatch
    else return (some (← (Codec.list Document.codec).read t depth), draft.2)
  | (some key, t) => return (draft.1, draft.2 ++ [(key, ← Codec.json.read t depth)])

/-- One object holds the members and the items.  Among the members of a text, which may repeat,
the items come last; in a value they stand in place of a member of their name. -/
def codec : Codec DocumentList where
  encode l := .obj (l.fields.entries.put "items" ((Codec.list Document.codec).encode l.items))
  decode
    | .obj members => do
      let items ← match members.lookup "items" with
        | some v => (Codec.list Document.codec).decode v
        | none => .ok []
      return ⟨.ofList (members.filter (·.1 != "items")), items⟩
    | v => Codec.wrongType v (.record "UnstructuredList")
  write l :=
    .obj (l.fields.entries.map (fun (key, v) => (some key, v.toTree)) ++
      [(some "items", (Codec.list Document.codec).write l.items)])
  read
    | .obj _, 0 => .error .notJson
    | .obj members, depth + 1 => do
      let (items, fields) ← members.foldlM (meetText depth) (none, [])
      return ⟨.ofList fields, items.getD []⟩
    | t, _ => .error t.refusal

def toObject (l : DocumentList) : Object :=
  ⟨none, some l.listInfo, some (l.items.map Document.toObject), .ok (codec.encode l)⟩

end DocumentList

end ResourceTable
