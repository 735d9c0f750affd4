import ResourceTable.Json.Reader
import ResourceTable.Time.Format
import ResourceTable.Wire.Error

namespace ResourceTable

open Wire

/-- The two forms of a type on the wire, each with its way back. -/
structure Codec (α : Type) where
  encode : α → Json
  decode : Json → Except DecodeError α
  write : α → Tree
  read : Tree → (depth : Nat) → Except ReadFault α

namespace Tree

def refusal : Tree → ReadFault
  | .malformed | .unreadable => .notJson
  | _ => .mismatch

/-- The tree as a value without the contents of arrays and objects. -/
def surface : Tree → Except ReadFault Json
  | .null => .ok .null
  | .bool b => .ok (.bool b)
  | .int n => .ok (.int n)
  | .double d => .ok (.double d)
  | .str s => .ok (.str s)
  | .arr _ => .ok (.arr [])
  | .obj _ => .ok (.obj [])
  | .malformed | .unreadable => .error .notJson

end Tree

namespace Codec

variable {α β : Type}

def text (c : Codec α) (x : α) : String := (c.write x).text

/-- Decodes a text: the first fault from left to right is the answer, and nothing but blanks may
follow the value. -/
def decodeText (c : Codec α) (text : String) : Except ReadFault α :=
  let (tree, rest) := Tree.read text.toList
  match c.read tree Tree.maxDepth with
  | .ok x => if Tree.isEnd rest then .ok x else .error .notJson
  | .error e => .error e

def iso (c : Codec α) (wrap : α → β) (unwrap : β → α) : Codec β where
  encode x := c.encode (unwrap x)
  decode v := (c.decode v).map wrap
  write x := c.write (unwrap x)
  read t depth := (c.read t depth).map wrap

def scalar (encode : α → Json) (decode : Json → Except DecodeError α) : Codec α where
  encode := encode
  decode := decode
  write x := (encode x).toTree
  read t _ := do
    match decode (← t.surface) with
    | .ok x => return x
    | .error _ => throw .mismatch

def wrongType (v : Json) (expected : Expected) : Except DecodeError α :=
  .error (.wrongType (.of v) expected)

def string : Codec String :=
  scalar .str fun
    | .str s => .ok s
    | v => wrongType v .string

def bool : Codec Bool :=
  scalar .bool fun
    | .bool b => .ok b
    | v => wrongType v .boolean

def integer (low high : Int) (expected : Expected) (ofInt : Int → α) (toInt : α → Int) : Codec α :=
  scalar (fun x => .int (toInt x)) fun
    | .int n => if low ≤ n ∧ n ≤ high then .ok (ofInt n) else .error (.wrongValue n expected)
    | v => wrongType v expected

def int64 : Codec Int64 :=
  integer Int64.minValue.toInt Int64.maxValue.toInt .int64 Int64.ofInt Int64.toInt

def int32 : Codec Int32 :=
  integer Int32.minValue.toInt Int32.maxValue.toInt .int32 Int32.ofInt Int32.toInt

def uint16 : Codec UInt16 :=
  integer 0 65535 .uint16 (fun n => .ofNat n.toNat) (fun x => x.toNat)

/-- Timestamps are written exactly and read in relaxed form. -/
def instant : Codec Time.Instant :=
  scalar (fun t => .str t.text) fun
    | .str s => (Time.Relaxed.instant s).mapError .timestamp
    | v => wrongType v .timestamp

def json : Codec Json where
  encode := id
  decode := .ok
  write := Json.toTree
  read t depth :=
    match t.json? depth with
    | some v => .ok v
    | none => .error .notJson

def option (c : Codec α) : Codec (Option α) where
  encode
    | none => .null
    | some x => c.encode x
  decode
    | .null => .ok none
    | v => (c.decode v).map some
  write
    | none => .null
    | some x => c.write x
  read
    | .null, _ => .ok none
    | t, depth => (c.read t depth).map some

def list (c : Codec α) : Codec (List α) where
  encode xs := .arr (xs.map c.encode)
  decode
    | .arr items => items.mapM c.decode
    | v => wrongType v .sequence
  write xs := .arr (xs.map c.write)
  read
    | .arr _, 0 => .error .notJson
    | .arr items, depth + 1 => items.mapM fun t => c.read t depth
    | t, _ => .error t.refusal

def dict (c : Codec α) : Codec (Dict α) where
  encode d := .obj (d.entries.map fun (key, x) => (key, c.encode x))
  decode
    | .obj members => do
      return .ofList (← members.mapM fun (key, v) => do return (key, ← c.decode v))
    | v => wrongType v .map
  write d := .obj (d.entries.map fun (key, x) => (some key, c.write x))
  read
    | .obj _, 0 => .error .notJson
    | .obj members, depth + 1 => do
      return .ofList (← members.mapM fun (key, t) =>
        match key with
        | none => throw .notJson
        | some key => do return (key, ← c.read t depth))
    | t, _ => .error t.refusal

end Codec

end ResourceTable
