import ResourceTable.Metadata.View
import ResourceTable.Wire.Record

namespace ResourceTable

structure ObjectMeta where
  name : String
  namespaceName : String
  uid : String
  resourceVersion : String
  selfLink : String
  created : Option Time.Instant
  labels : Dict String
  annotations : Dict String
  deriving DecidableEq

namespace ObjectMeta

def empty : ObjectMeta := ⟨"", "", "", "", "", none, .empty, .empty⟩

def named (name : String) : ObjectMeta := { empty with name := name }

def withNamespace (m : ObjectMeta) (name : String) : ObjectMeta := { m with namespaceName := name }

def withUid (m : ObjectMeta) (uid : String) : ObjectMeta := { m with uid := uid }

def withResourceVersion (m : ObjectMeta) (version : String) : ObjectMeta :=
  { m with resourceVersion := version }

def withSelfLink (m : ObjectMeta) (link : String) : ObjectMeta := { m with selfLink := link }

def withCreated (m : ObjectMeta) (created : Option Time.Instant) : ObjectMeta :=
  { m with created := created }

def withLabel (m : ObjectMeta) (key value : String) : ObjectMeta :=
  { m with labels := m.labels.insert key value }

def withAnnotation (m : ObjectMeta) (key value : String) : ObjectMeta :=
  { m with annotations := m.annotations.insert key value }

def info (m : ObjectMeta) : ObjectInfo :=
  ⟨⟨m.resourceVersion, m.selfLink⟩, m.name, m.namespaceName, m.created⟩

/-- Every field may be missing, and is left out where it is empty. -/
def codec : Codec ObjectMeta :=
  let text (key : String) : Field String := .compact key .string "" String.isEmpty
  let texts (key : String) : Field (Dict String) := .compact key (.dict .string) .empty Dict.isEmpty
  Fields.codec
    (.cons (text "name") <| .cons (text "namespace") <| .cons (text "uid") <|
      .cons (text "resourceVersion") <| .cons (text "selfLink") <|
      .cons (.compact "creationTimestamp" (.option .instant) none Option.isNone) <|
      .cons (texts "labels") <| .cons (texts "annotations") .nil)
    "ObjectMeta"
    (fun (name, namespaceName, uid, resourceVersion, selfLink, created, labels, annotations, ()) =>
      ⟨name, namespaceName, uid, resourceVersion, selfLink, created, labels, annotations⟩)
    (fun m =>
      (m.name, m.namespaceName, m.uid, m.resourceVersion, m.selfLink, m.created, m.labels,
        m.annotations, ()))

end ObjectMeta

end ResourceTable
