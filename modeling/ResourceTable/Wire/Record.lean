import ResourceTable.Wire.Codec

namespace ResourceTable

open Wire

/-- A field: its key, what it stands for when it is missing, and when it is left out. -/
structure Field (α : Type) where
  key : String
  codec : Codec α
  absent : Option α
  leaveOut : α → Bool

namespace Field

variable {α : Type}

def required (key : String) (codec : Codec α) : Field α := ⟨key, codec, none, fun _ => false⟩

def optional (key : String) (codec : Codec α) (absent : α) : Field α :=
  ⟨key, codec, some absent, fun _ => false⟩

def compact (key : String) (codec : Codec α) (absent : α) (isEmpty : α → Bool) : Field α :=
  ⟨key, codec, some absent, isEmpty⟩

def settle (f : Field α) : Option α → Option α
  | some x => some x
  | none => f.absent

end Field

/-- The fields of a record in the order in which it is written.  The row holds their values; the
draft holds those that have been met so far. -/
inductive Fields : (row draft : Type) → Type 1 where
  | nil : Fields Unit Unit
  | cons {α ρ δ : Type} (f : Field α) (rest : Fields ρ δ) : Fields (α × ρ) (Option α × δ)

namespace Fields

def count : {ρ δ : Type} → Fields ρ δ → Nat
  | _, _, .nil => 0
  | _, _, .cons _ rest => rest.count + 1

def blank : {ρ δ : Type} → Fields ρ δ → δ
  | _, _, .nil => ()
  | _, _, .cons _ rest => (none, rest.blank)

def encode : {ρ δ : Type} → Fields ρ δ → ρ → List (String × Json)
  | _, _, .nil, () => []
  | _, _, .cons f rest, (x, r) =>
    if f.leaveOut x then rest.encode r else (f.key, f.codec.encode x) :: rest.encode r

def write : {ρ δ : Type} → Fields ρ δ → ρ → List (Option String × Tree)
  | _, _, .nil, () => []
  | _, _, .cons f rest, (x, r) =>
    if f.leaveOut x then rest.write r else (some f.key, f.codec.write x) :: rest.write r

/-- Takes in one member; a key of no field changes nothing. -/
def meet : {ρ δ : Type} → Fields ρ δ → String → Json → δ → Except DecodeError δ
  | _, _, .nil, _, _, () => .ok ()
  | _, _, .cons f rest, key, v, (x, d) =>
    if key = f.key then (f.codec.decode v).map fun y => (some y, d)
    else (rest.meet key v d).map fun e => (x, e)

/-- Takes in one member of a text.  A field may be met once; what no field needs is skipped. -/
def meetText : {ρ δ : Type} → Fields ρ δ → String → Tree → Nat → δ → Except ReadFault δ
  | _, _, .nil, _, t, _, () => if t.isWhole then .ok () else .error .notJson
  | _, _, .cons f rest, key, t, depth, (x, d) =>
    if key = f.key then
      if x.isSome then .error .mismatch else (f.codec.read t depth).map fun y => (some y, d)
    else (rest.meetText key t depth d).map fun e => (x, e)

/-- The row of a draft, or the key of the first field that is missing. -/
def complete : {ρ δ : Type} → Fields ρ δ → δ → Except String ρ
  | _, _, .nil, () => .ok ()
  | _, _, .cons f rest, (x, d) =>
    match f.settle x with
    | some x => (rest.complete d).map fun r => (x, r)
    | none => .error f.key

/-- The row from the elements of an array, and the elements left over; `seen` elements came
before. -/
def ofItems (name : String) (total : Nat) :
    {ρ δ : Type} → Fields ρ δ → (seen : Nat) → List Json → Except DecodeError (ρ × List Json)
  | _, _, .nil, _, items => .ok ((), items)
  | _, _, .cons f rest, seen, v :: items => do
    let x ← f.codec.decode v
    let (r, left) ← rest.ofItems name total (seen + 1) items
    return ((x, r), left)
  | _, _, .cons f rest, seen, [] =>
    match f.absent with
    | some x => do
      let (r, left) ← rest.ofItems name total (seen + 1) []
      return ((x, r), left)
    | none => .error (.tooFew seen name total)

def ofTrees :
    {ρ δ : Type} → Fields ρ δ → List Tree → Nat → Except ReadFault (ρ × List Tree)
  | _, _, .nil, items, _ => .ok ((), items)
  | _, _, .cons f rest, t :: items, depth => do
    let x ← f.codec.read t depth
    let (r, left) ← rest.ofTrees items depth
    return ((x, r), left)
  | _, _, .cons f rest, [], depth =>
    match f.absent with
    | some x => do
      let (r, left) ← rest.ofTrees [] depth
      return ((x, r), left)
    | none => .error .mismatch

variable {ρ δ : Type}

/-- The row of an object: members in the order of their keys, then what is missing. -/
def decodeObject (fs : Fields ρ δ) (members : List (String × Json)) : Except DecodeError ρ := do
  let d ← members.foldlM (fun d (key, v) => fs.meet key v d) fs.blank
  (fs.complete d).mapError .missingField

def decodeArray (fs : Fields ρ δ) (name : String) (items : List Json) : Except DecodeError ρ := do
  let (r, left) ← fs.ofItems name fs.count 0 items
  if left.isEmpty then return r else throw (.tooMany items.length)

def readObject (fs : Fields ρ δ) (members : List (Option String × Tree)) (depth : Nat) :
    Except ReadFault ρ := do
  let d ← members.foldlM (fun d (key, t) =>
    match key with
    | none => .error .notJson
    | some key => fs.meetText key t depth d) fs.blank
  (fs.complete d).mapError fun _ => .mismatch

def readArray (fs : Fields ρ δ) (items : List Tree) (depth : Nat) : Except ReadFault ρ := do
  let (r, left) ← fs.ofTrees items depth
  if left.isEmpty then return r else throw .notJson

def codec {α : Type} (fs : Fields ρ δ) (name : String) (ofRow : ρ → α) (toRow : α → ρ) :
    Codec α where
  encode x := .object (fs.encode (toRow x))
  decode
    | .obj members => (fs.decodeObject members).map ofRow
    | .arr items => (fs.decodeArray name items).map ofRow
    | v => Codec.wrongType v (.record name)
  write x := .obj (fs.write (toRow x))
  read
    | .obj _, 0 => .error .notJson
    | .arr _, 0 => .error .notJson
    | .obj members, depth + 1 => (fs.readObject members depth).map ofRow
    | .arr items, depth + 1 => (fs.readArray items depth).map ofRow
    | t, _ => .error t.refusal

end Fields

end ResourceTable
