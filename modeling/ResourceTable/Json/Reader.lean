import ResourceTable.Json.Numeral
import ResourceTable.Json.Tree

namespace ResourceTable.Tree

def skipBlank (s : List Char) : List Char :=
  s.dropWhile fun c => c == ' ' || c == '\n' || c == '\t' || c == '\r'

/-- A part of a string text: a character, or a 16-bit unit written by its number. -/
inductive Piece where
  | char (c : Char)
  | unit (n : Nat)

def hexDigit? (c : Char) : Option Nat :=
  if '0' ≤ c ∧ c ≤ '9' then some (c.toNat - '0'.toNat)
  else if 'a' ≤ c ∧ c ≤ 'f' then some (c.toNat - 'a'.toNat + 10)
  else if 'A' ≤ c ∧ c ≤ 'F' then some (c.toNat - 'A'.toNat + 10)
  else none

def unit? (a b c d : Char) : Option Nat := do
  return (((← hexDigit? a) * 16 + (← hexDigit? b)) * 16 + (← hexDigit? c)) * 16 + (← hexDigit? d)

def escape? : Char → Option Char
  | '"' => some '"'
  | '\\' => some '\\'
  | '/' => some '/'
  | 'b' => some '\x08'
  | 'f' => some '\x0c'
  | 'n' => some '\n'
  | 'r' => some '\r'
  | 't' => some '\t'
  | _ => none

def pieces? : List Char → Option (List Piece × List Char)
  | [] => none
  | '"' :: rest => some ([], rest)
  | '\\' :: 'u' :: a :: b :: c :: d :: rest => do
    let n ← unit? a b c d
    let (ps, r) ← pieces? rest
    return (.unit n :: ps, r)
  | '\\' :: e :: rest => do
    let c ← escape? e
    let (ps, r) ← pieces? rest
    return (.char c :: ps, r)
  | c :: rest =>
    if c.toNat < 0x20 ∨ c = '\\' then none
    else do
      let (ps, r) ← pieces? rest
      return (.char c :: ps, r)

def join? : List Piece → Option (List Char)
  | [] => some []
  | .char c :: rest => (join? rest).map (c :: ·)
  | .unit high :: .unit low :: rest =>
    if 0xd800 ≤ high ∧ high < 0xdc00 then
      if 0xdc00 ≤ low ∧ low < 0xe000 then
        (join? rest).map (.ofNat (0x10000 + (high - 0xd800) * 0x400 + (low - 0xdc00)) :: ·)
      else none
    else if 0xdc00 ≤ high ∧ high < 0xe000 then none
    else (join? (.unit low :: rest)).map (.ofNat high :: ·)
  | .unit n :: rest =>
    if 0xd800 ≤ n ∧ n < 0xe000 then none else (join? rest).map (.ofNat n :: ·)

/-- The text of a string after its opening quote, missing if a surrogate stands alone. -/
def string? (s : List Char) : Option (Option String × List Char) := do
  let (ps, rest) ← pieces? s
  return ((join? ps).map String.ofList, rest)

def ofNumeral (x : Numeral) : Tree :=
  match x.int? with
  | some n => .int n
  | none =>
    match x.double? with
    | some d => .double d
    | none => .unreadable

def word? : (word s : List Char) → Option (List Char)
  | [], s => some s
  | w :: word, c :: s => if w = c then word? word s else none
  | _ :: _, [] => none

def scalar (s : List Char) : Tree × List Char :=
  let node : Option (Tree × List Char) :=
    match s with
    | 'n' :: rest => (word? ['u', 'l', 'l'] rest).map (.null, ·)
    | 't' :: rest => (word? ['r', 'u', 'e'] rest).map (.bool true, ·)
    | 'f' :: rest => (word? ['a', 'l', 's', 'e'] rest).map (.bool false, ·)
    | '"' :: rest => (string? rest).map fun (text, r) => ((text.map Tree.str).getD .unreadable, r)
    | s => (Numeral.scan? s).map fun (x, r) => (ofNumeral x, r)
  node.getD (.malformed, [])

mutual

/-- The value at the front, blanks before it allowed.  Each step of `fuel` takes a character or
follows one that does, so twice the length of the text is enough. -/
def value : (fuel : Nat) → List Char → Tree × List Char
  | 0, _ => (.malformed, [])
  | fuel + 1, s =>
    match skipBlank s with
    | '[' :: rest =>
      match skipBlank rest with
      | ']' :: rest => (.arr [], rest)
      | rest => let (items, r) := elements fuel rest; (.arr items, r)
    | '\x7b' :: rest =>
      match skipBlank rest with
      | '\x7d' :: rest => (.obj [], rest)
      | rest => let (ms, r) := members fuel rest; (.obj ms, r)
    | s => scalar s

def elements : (fuel : Nat) → List Char → List Tree × List Char
  | 0, _ => ([.malformed], [])
  | fuel + 1, s =>
    let (t, rest) := value fuel s
    match skipBlank rest with
    | ',' :: rest => let (ts, r) := elements fuel rest; (t :: ts, r)
    | ']' :: rest => ([t], rest)
    | _ => ([t, .malformed], [])

def members : (fuel : Nat) → List Char → List (Option String × Tree) × List Char
  | 0, _ => ([(none, .malformed)], [])
  | fuel + 1, s =>
    match skipBlank s with
    | '"' :: rest =>
      match string? rest with
      | none => ([(none, .malformed)], [])
      | some (key, rest) =>
        match skipBlank rest with
        | ':' :: rest =>
          let (t, rest) := value fuel rest
          match skipBlank rest with
          | ',' :: rest => let (ms, r) := members fuel rest; ((key, t) :: ms, r)
          | '\x7d' :: rest => ([(key, t)], rest)
          | _ => ([(key, t), (none, .malformed)], [])
        | _ => ([(key, .malformed)], [])
    | _ => ([(none, .malformed)], [])

end

/-- The tree at the front of a text, and what follows it. -/
def read (s : List Char) : Tree × List Char := value (2 * s.length + 2) s

def isEnd (rest : List Char) : Bool := (skipBlank rest).isEmpty

end ResourceTable.Tree

namespace ResourceTable.Json

def parse? (text : String) : Option Json :=
  let (tree, rest) := Tree.read text.toList
  match tree.json? Tree.maxDepth with
  | some v => if Tree.isEnd rest then some v else none
  | none => none

end ResourceTable.Json
