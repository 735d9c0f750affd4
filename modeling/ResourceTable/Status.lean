import ResourceTable.Wire.Record

namespace ResourceTable

/-- A status code of a response: three digits. -/
structure StatusCode where
  value : UInt16
  three_digits : 100 ≤ value ∧ value ≤ 999
  deriving DecidableEq

namespace StatusCode

def ofNumber? (n : UInt16) : Option StatusCode :=
  if h : 100 ≤ n ∧ n ≤ 999 then some ⟨n, h⟩ else none

def notAcceptable : StatusCode := ⟨406, by decide⟩

def internalServerError : StatusCode := ⟨500, by decide⟩

end StatusCode

structure Status where
  kind : String
  apiVersion : String
  status : String
  message : String
  reason : String
  code : UInt16
  deriving DecidableEq

namespace Status

def failure (code : StatusCode) (reason message : String) : Status :=
  ⟨"Status", "v1", "Failure", message, reason, code.value⟩

/-- The status code; a number that is none counts as an internal error of the server. -/
def statusCode (s : Status) : StatusCode := (StatusCode.ofNumber? s.code).getD .internalServerError

def codec : Codec Status :=
  Fields.codec
    (.cons (.required "kind" .string) <| .cons (.required "apiVersion" .string) <|
      .cons (.required "status" .string) <| .cons (.required "message" .string) <|
      .cons (.required "reason" .string) <| .cons (.required "code" .uint16) .nil)
    "Status"
    (fun (kind, apiVersion, status, message, reason, code, ()) =>
      ⟨kind, apiVersion, status, message, reason, code⟩)
    (fun s => (s.kind, s.apiVersion, s.status, s.message, s.reason, s.code, ()))

end Status

end ResourceTable
