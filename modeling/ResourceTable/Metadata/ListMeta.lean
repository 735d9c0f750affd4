import ResourceTable.Metadata.View
import ResourceTable.Wire.Record

namespace ResourceTable

structure ListMeta where
  selfLink : String
  resourceVersion : String
  continueToken : String
  remaining : Option Int64
  deriving DecidableEq

namespace ListMeta

def empty : ListMeta := ⟨"", "", "", none⟩

def info (m : ListMeta) : ListInfo :=
  ⟨⟨m.resourceVersion, m.selfLink⟩, m.continueToken, m.remaining⟩

/-- Every field may be missing, and is left out where it is empty. -/
def codec : Codec ListMeta :=
  let text (key : String) : Field String := .compact key .string "" String.isEmpty
  Fields.codec
    (.cons (text "selfLink") <| .cons (text "resourceVersion") <| .cons (text "continue") <|
      .cons (.compact "remainingItemCount" (.option .int64) none Option.isNone) .nil)
    "ListMeta"
    (fun (selfLink, resourceVersion, continueToken, remaining, ()) =>
      ⟨selfLink, resourceVersion, continueToken, remaining⟩)
    (fun m => (m.selfLink, m.resourceVersion, m.continueToken, m.remaining, ()))

end ListMeta

end ResourceTable
