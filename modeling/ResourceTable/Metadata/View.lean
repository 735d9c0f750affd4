import ResourceTable.Time.Instant

namespace ResourceTable

/-- What the metadata of objects and that of collections share. -/
structure CommonInfo where
  resourceVersion : String
  selfLink : String
  deriving DecidableEq

structure ObjectInfo extends CommonInfo where
  name : String
  namespaceName : String
  created : Option Time.Instant
  deriving DecidableEq

structure ListInfo extends CommonInfo where
  continueToken : String
  remaining : Option Int64
  deriving DecidableEq

end ResourceTable
