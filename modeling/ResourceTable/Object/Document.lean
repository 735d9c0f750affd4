import ResourceTable.Object.Basic
import ResourceTable.Object.Dynamic
import ResourceTable.Wire.Codec

namespace ResourceTable

/-- An object of unknown kind. -/
structure Document where
  value : Json
  deriving DecidableEq

namespace Document

/-- The `kind` member, empty if it is no text. -/
def kind (d : Document) : String := ((d.value.member? "kind").bind Json.string?).getD ""

def metadata? (d : Document) : Option Json := d.value.member? "metadata"

def items? (d : Document) : Option (List Document) :=
  ((d.value.member? "items").bind Json.array?).map (·.map Document.mk)

def isCollection (d : Document) : Bool := d.items?.isSome

def items (d : Document) : List Document := d.items?.getD []

/-- The metadata read as that of an object, whether or not the document is one. -/
def objectInfo (d : Document) : ObjectInfo := Dynamic.objectInfo d.metadata?

def listInfo (d : Document) : ListInfo := Dynamic.listInfo d.metadata?

def same (a b : Document) : Bool := a.value.same b.value

def codec : Codec Document := Codec.json.iso Document.mk Document.value

end Document

mutual

/-- A JSON object whose `items` is an array is a collection and shows collection metadata; any other
JSON object shows object metadata; other values show nothing. -/
def Json.toObject : Json → Object
  | .obj members =>
    match itemObjects? members with
    | some items =>
      ⟨none, some (Document.listInfo ⟨.obj members⟩), some items, .ok (.obj members)⟩
    | none => ⟨some (Document.objectInfo ⟨.obj members⟩), none, none, .ok (.obj members)⟩
  | v => .ofJson v

/-- The objects in the array under the first `items`, if it is one. -/
def Json.itemObjects? : List (String × Json) → Option (List Object)
  | [] => none
  | (key, v) :: rest => if key = "items" then v.elementObjects? else itemObjects? rest

def Json.elementObjects? : Json → Option (List Object)
  | .arr items => some (toObjects items)
  | _ => none

def Json.toObjects : List Json → List Object
  | [] => []
  | v :: rest => v.toObject :: toObjects rest

end

def Document.toObject (d : Document) : Object := d.value.toObject

end ResourceTable
