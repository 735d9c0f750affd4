import ResourceTable.Json.Basic
import ResourceTable.Metadata.View

namespace ResourceTable

/-- Why an object does not encode, in its own words. -/
structure EncodeError where
  message : String
  deriving DecidableEq

/-- An API object: it may show object metadata and collection metadata, may list its elements, and
encodes as JSON or fails to. -/
structure Object where
  objectInfo? : Option ObjectInfo
  listInfo? : Option ListInfo
  items? : Option (List Object)
  encoding : Except EncodeError Json

inductive AccessError where
  | notAnObject
  | notAList
  deriving DecidableEq

def AccessError.message : AccessError → String
  | .notAnObject => "object does not implement the object metadata accessor"
  | .notAList => "object does not implement the list metadata accessor"

namespace Object

def ofJson (v : Json) : Object := ⟨none, none, none, .ok v⟩

def objectInfo (o : Object) : Except AccessError ObjectInfo :=
  match o.objectInfo? with
  | some info => .ok info
  | none => .error .notAnObject

def listInfo (o : Object) : Except AccessError ListInfo :=
  match o.listInfo? with
  | some info => .ok info
  | none => .error .notAList

/-- What both kinds of metadata share, of the collection if there are both. -/
def commonInfo (o : Object) : Except AccessError CommonInfo :=
  match o.listInfo?, o.objectInfo? with
  | some info, _ => .ok info.toCommonInfo
  | none, some info => .ok info.toCommonInfo
  | none, none => .error .notAnObject

def isCollection (o : Object) : Bool := o.items?.isSome

/-- The elements of a collection; any other object is its own only element. -/
def elements (o : Object) : List Object := o.items?.getD [o]

end Object

end ResourceTable
