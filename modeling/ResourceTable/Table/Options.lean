import ResourceTable.Wire.Record

namespace ResourceTable

structure TableOptions where
  noHeaders : Bool
  deriving DecidableEq

namespace TableOptions

def withHeaders : TableOptions := ⟨false⟩

def withoutHeaders : TableOptions := ⟨true⟩

def codec : Codec TableOptions :=
  Fields.codec (.cons (.optional "noHeaders" .bool false) .nil) "TableOptions"
    (fun (noHeaders, ()) => ⟨noHeaders⟩) (fun o => (o.noHeaders, ()))

end TableOptions

end ResourceTable
