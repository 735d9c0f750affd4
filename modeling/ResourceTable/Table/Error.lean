import ResourceTable.Request.GroupResource
import ResourceTable.Status

namespace ResourceTable

/-- Why objects are not converted into a table. -/
inductive TableError where
  | notAcceptable (resource : GroupResource)
  deriving DecidableEq

namespace TableError

def message : TableError → String
  | .notAcceptable resource =>
    "the resource " ++ resource.text ++ " does not support being converted to a Table"

def statusCode : TableError → StatusCode
  | .notAcceptable _ => .notAcceptable

def reason : TableError → String
  | .notAcceptable _ => "NotAcceptable"

def status (e : TableError) : Status := .failure e.statusCode e.reason e.message

end TableError

end ResourceTable
