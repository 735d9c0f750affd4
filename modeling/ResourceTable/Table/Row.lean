import ResourceTable.Object.Basic
import ResourceTable.Wire.Record

namespace ResourceTable

structure Condition where
  type : String
  status : String
  reason : String
  message : String
  deriving DecidableEq

namespace Condition

def codec : Codec Condition :=
  Fields.codec
    (.cons (.required "type" .string) <| .cons (.required "status" .string) <|
      .cons (.compact "reason" .string "" String.isEmpty) <|
      .cons (.compact "message" .string "" String.isEmpty) .nil)
    "TableRowCondition"
    (fun (type, status, reason, message, ()) => ⟨type, status, reason, message⟩)
    (fun c => (c.type, c.status, c.reason, c.message, ()))

end Condition

/-- What a row embeds. -/
inductive Embedded where
  | nothing
  | live (o : Object)
  | raw (v : Json)

namespace Embedded

def isEmpty : Embedded → Bool
  | .nothing => true
  | _ => false

def object? : Embedded → Option Object
  | .live o => some o
  | _ => none

def raw? : Embedded → Option Json
  | .raw v => some v
  | _ => none

def json? : Embedded → Except EncodeError (Option Json)
  | .nothing => .ok none
  | .live o => o.encoding.map some
  | .raw v => .ok (some v)

def ofJson? : Option Json → Embedded
  | none => .nothing
  | some v => .raw v

/-- Nothing is null on the wire. -/
def codec : Codec (Option Json) := .option .json

def encode (e : Embedded) : Except EncodeError Json := e.json?.map codec.encode

def text (e : Embedded) : Except EncodeError String := e.json?.map codec.text

end Embedded

/-- A row: one cell per column, remarks, and what it embeds. -/
structure Row (ε : Type) where
  cells : List Json
  conditions : List Condition
  object : ε
  deriving DecidableEq

namespace Row

variable {ε φ : Type}

def embed (r : Row ε) (object : φ) : Row φ := ⟨r.cells, r.conditions, object⟩

/-- The row as it goes over the wire. -/
def settle (r : Row Embedded) : Except EncodeError (Row (Option Json)) := r.object.json?.map r.embed

def received (r : Row (Option Json)) : Row Embedded := r.embed (.ofJson? r.object)

def codec : Codec (Row (Option Json)) :=
  Fields.codec
    (.cons (.required "cells" (.list .json)) <|
      .cons (.optional "conditions" (.list Condition.codec) []) <|
      .cons (.compact "object" Embedded.codec none Option.isNone) .nil)
    "TableRow"
    (fun (cells, conditions, object, ()) => ⟨cells, conditions, object⟩)
    (fun r => (r.cells, r.conditions, r.object, ()))

def encode (r : Row Embedded) : Except EncodeError Json := r.settle.map codec.encode

def text (r : Row Embedded) : Except EncodeError String := r.settle.map codec.text

end Row

end ResourceTable
