import ResourceTable.Metadata.ListMeta
import ResourceTable.Object.Basic

namespace ResourceTable

structure ObjectList (α : Type) where
  metadata : ListMeta
  items : List α
  deriving DecidableEq

namespace ObjectList

variable {α : Type}

def ofItems (items : List α) : ObjectList α := ⟨.empty, items⟩

def withMetadata (l : ObjectList α) (metadata : ListMeta) : ObjectList α :=
  { l with metadata := metadata }

def push (l : ObjectList α) (item : α) : ObjectList α := { l with items := l.items ++ [item] }

def length (l : ObjectList α) : Nat := l.items.length

def isEmpty (l : ObjectList α) : Bool := l.items.isEmpty

def codec (c : Codec α) : Codec (ObjectList α) :=
  Fields.codec
    (.cons (.optional "metadata" ListMeta.codec .empty) <|
      .cons (.optional "items" (.list c) []) .nil)
    "ObjectList"
    (fun (metadata, items, ()) => ⟨metadata, items⟩)
    (fun l => (l.metadata, l.items, ()))

/-- The object that a collection is, given the object that each item is. -/
def toObject (c : Codec α) (item : α → Object) (l : ObjectList α) : Object :=
  ⟨none, some l.metadata.info, some (l.items.map item), .ok ((codec c).encode l)⟩

end ObjectList

end ResourceTable
