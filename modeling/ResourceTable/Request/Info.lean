import ResourceTable.Request.GroupResource

namespace ResourceTable

structure RequestInfo where
  verb : String
  apiGroup : String
  apiVersion : String
  namespaceName : String
  resource : String
  subresource : String
  name : String
  deriving DecidableEq

namespace RequestInfo

def empty : RequestInfo := ⟨"", "", "", "", "", "", ""⟩

def ofResource (group resource : String) : RequestInfo :=
  { empty with apiGroup := group, resource := resource }

def withVerb (r : RequestInfo) (verb : String) : RequestInfo := { r with verb := verb }

def withNamespace (r : RequestInfo) (name : String) : RequestInfo :=
  { r with namespaceName := name }

def groupResource (r : RequestInfo) : GroupResource := ⟨r.apiGroup, r.resource⟩

/-- Every field may be missing, and all are written. -/
def codec : Codec RequestInfo :=
  let text (key : String) : Field String := .optional key .string ""
  Fields.codec
    (.cons (text "verb") <| .cons (text "apiGroup") <| .cons (text "apiVersion") <|
      .cons (text "namespace") <| .cons (text "resource") <| .cons (text "subresource") <|
      .cons (text "name") .nil)
    "RequestInfo"
    (fun (verb, apiGroup, apiVersion, namespaceName, resource, subresource, name, ()) =>
      ⟨verb, apiGroup, apiVersion, namespaceName, resource, subresource, name⟩)
    (fun r =>
      (r.verb, r.apiGroup, r.apiVersion, r.namespaceName, r.resource, r.subresource, r.name, ()))

end RequestInfo

end ResourceTable
