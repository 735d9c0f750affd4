import ResourceTable.Wire.Record

namespace ResourceTable

structure GroupResource where
  group : String
  resource : String
  deriving DecidableEq

namespace GroupResource

/-- The resource, a dot and the group, or the resource alone for the core group, whose name is
empty. -/
def text (g : GroupResource) : String :=
  if g.group.isEmpty then g.resource else g.resource ++ "." ++ g.group

/-- A text that is no group resource, since no resource stands before its first dot. -/
structure InvalidText where
  text : String
  deriving DecidableEq

def InvalidText.message (e : InvalidText) : String :=
  "invalid group resource '" ++ e.text ++ "': expected <resource>[.<group>]"

/-- All that follows the first dot is the group. -/
def ofText (text : String) : Except InvalidText GroupResource :=
  let resource := text.toList.takeWhile (· != '.')
  let group := (text.toList.dropWhile (· != '.')).drop 1
  if resource.isEmpty then .error ⟨text⟩ else .ok ⟨.ofList group, .ofList resource⟩

def le (a b : GroupResource) : Bool :=
  a.group < b.group || (a.group == b.group && (a.resource < b.resource || a.resource == b.resource))

def sort (gs : List GroupResource) : List GroupResource := gs.mergeSort le

def codec : Codec GroupResource :=
  Fields.codec
    (.cons (.optional "group" .string "") <| .cons (.required "resource" .string) .nil)
    "GroupResource"
    (fun (group, resource, ()) => ⟨group, resource⟩)
    (fun g => (g.group, g.resource, ()))

end GroupResource

end ResourceTable
