import ResourceTable.Metadata.ObjectMeta
import ResourceTable.Object.Basic

namespace ResourceTable

structure TypedObject where
  metadata : ObjectMeta
  spec : Json
  deriving DecidableEq

namespace TypedObject

def codec : Codec TypedObject :=
  Fields.codec
    (.cons (.required "metadata" ObjectMeta.codec) <| .cons (.optional "spec" .json .null) .nil)
    "Typed"
    (fun (metadata, spec, ()) => ⟨metadata, spec⟩)
    (fun o => (o.metadata, o.spec, ()))

/-- It shows its metadata. -/
def toObject (o : TypedObject) : Object := ⟨some o.metadata.info, none, none, .ok (codec.encode o)⟩

end TypedObject

end ResourceTable
