import ResourceTable.Request.Context
import ResourceTable.Table.Basic
import ResourceTable.Table.Error
import ResourceTable.Table.Options
import ResourceTable.Time.Format

namespace ResourceTable

/-- The cell of an object whose creation time is not known. -/
def unknownTime : String := "0001-01-01T00:00:00Z"

def createdCell : Option Time.Instant → String
  | some t => t.wholeSeconds
  | none => unknownTime

/-- A conversion with the resource that errors name when the request tells of none. -/
structure Convertor where
  defaultResource : GroupResource
  deriving DecidableEq

namespace Convertor

variable {ι : Type} [DecidableEq ι] [Hashable ι] {β : ι → Type}

/-- The resource that errors name. -/
def resource (c : Convertor) (ctx : Context β) : GroupResource :=
  match ctx.request? with
  | some request => request.groupResource
  | none => c.defaultResource

def row (c : Convertor) (ctx : Context β) (o : Object) : Except TableError (Row Embedded) :=
  match o.objectInfo with
  | .ok info => .ok ⟨[.str info.name, .str (createdCell info.created)], [], .live o⟩
  | .error _ => .error (.notAcceptable (c.resource ctx))

/-- An empty table with the metadata of an object: of the collection if there is any, or else what
the object shows in common with collections. -/
def frame (o : Object) : Table Embedded :=
  match o.listInfo, o.commonInfo with
  | .ok info, _ => ⟨info.resourceVersion, info.selfLink, info.continueToken, info.remaining, [], []⟩
  | .error _, .ok info => ⟨info.resourceVersion, info.selfLink, "", none, [], []⟩
  | .error _, .error _ => .empty

def columns (options : Option TableOptions) : List Column :=
  if options.any TableOptions.noHeaders then [] else Column.generic

/-- The table of an object or a collection, with a row for each element. -/
def convert (c : Convertor) (ctx : Context β) (o : Object) (options : Option TableOptions) :
    Except TableError (Table Embedded) := do
  let rows ← o.elements.mapM (c.row ctx)
  return { frame o with columns := columns options, rows := rows }

end Convertor

end ResourceTable
