import ResourceTable.Json.Printer
import ResourceTable.Text.Quoted
import ResourceTable.Time.Relaxed

namespace ResourceTable.Wire

inductive Found where
  | null
  | bool (b : Bool)
  | int (n : Int)
  | double (d : Double)
  | str (s : String)
  | sequence
  | map
  deriving DecidableEq

def Found.of : Json → Found
  | .null => .null
  | .bool b => .bool b
  | .int n => .int n
  | .double d => .double d
  | .str s => .str s
  | .arr _ => .sequence
  | .obj _ => .map

def Found.text : Found → String
  | .null => "null"
  | .bool b => "boolean \x60" ++ (if b then "true" else "false") ++ "\x60"
  | .int n => "integer \x60" ++ String.ofList (Json.intText n) ++ "\x60"
  | .double d => "floating point \x60" ++ String.ofList (Json.doubleText d) ++ "\x60"
  | .str s => "string " ++ Text.quote s
  | .sequence => "sequence"
  | .map => "map"

inductive Expected where
  | string
  | boolean
  | int64
  | int32
  | uint16
  | sequence
  | map
  | timestamp
  | record (name : String)
  deriving DecidableEq

def Expected.text : Expected → String
  | .string => "a string"
  | .boolean => "a boolean"
  | .int64 => "i64"
  | .int32 => "i32"
  | .uint16 => "u16"
  | .sequence => "a sequence"
  | .map => "a map"
  | .timestamp => "an RFC 3339 formatted date and time string"
  | .record name => "struct " ++ name

inductive DecodeError where
  | wrongType (found : Found) (expected : Expected)
  | wrongValue (n : Int) (expected : Expected)
  | missingField (key : String)
  | tooFew (length : Nat) (record : String) (fields : Nat)
  | tooMany (length : Nat)
  | timestamp (fault : Time.Fault)
  deriving DecidableEq

def DecodeError.message : DecodeError → String
  | .wrongType found expected => "invalid type: " ++ found.text ++ ", expected " ++ expected.text
  | .wrongValue n expected =>
    "invalid value: " ++ (Found.int n).text ++ ", expected " ++ expected.text
  | .missingField key => "missing field \x60" ++ key ++ "\x60"
  | .tooFew length record fields =>
    "invalid length " ++ Nat.repr length ++ ", expected struct " ++ record ++ " with " ++
      Nat.repr fields ++ (if fields = 1 then " element" else " elements")
  | .tooMany length => "invalid length " ++ Nat.repr length ++ ", expected fewer elements in array"
  | .timestamp fault => fault.message

/-- Why a text does not decode: its JSON breaks off, or what came so far does not fit the type. -/
inductive ReadFault where
  | notJson
  | mismatch
  deriving DecidableEq

end ResourceTable.Wire
