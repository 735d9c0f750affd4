import ResourceTable.Json.Basic
import ResourceTable.Metadata.View
import ResourceTable.Time.Strict

namespace ResourceTable.Dynamic

def text (metadata : Option Json) (key : String) : String :=
  (metadata.bind (·.member? key) |>.bind Json.string?).getD ""

/-- When the object was created, if that is a timestamp in strict form. -/
def created (metadata : Option Json) : Option Time.Instant := do
  let v ← metadata.bind (·.member? "creationTimestamp")
  let s ← v.string?
  Time.Strict.instant? s

/-- How many items are left, if that is an integer of 64 bits with sign. -/
def remaining (metadata : Option Json) : Option Int64 :=
  metadata.bind (·.member? "remainingItemCount") |>.bind Json.int64?

def commonInfo (metadata : Option Json) : CommonInfo :=
  ⟨text metadata "resourceVersion", text metadata "selfLink"⟩

def objectInfo (metadata : Option Json) : ObjectInfo :=
  ⟨commonInfo metadata, text metadata "name", text metadata "namespace", created metadata⟩

def listInfo (metadata : Option Json) : ListInfo :=
  ⟨commonInfo metadata, text metadata "continue", remaining metadata⟩

end ResourceTable.Dynamic
