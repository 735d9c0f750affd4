import ResourceTable.Decimal.Layout
import ResourceTable.Json.Tree

namespace ResourceTable

/-- Doubles from `0.00001` to below `10 ^ 16` are written positionally, the others with an
exponent that shows its sign. -/
def Json.doubleLayout : Decimal.Layout := ⟨-4, 16, 'e', true⟩

def Json.doubleText (d : Double) : List Char := Json.doubleLayout.double d

def Json.intText (n : Int) : List Char :=
  if n < 0 then '-' :: Nat.toDigits 10 n.natAbs else Nat.toDigits 10 n.natAbs

namespace Tree

/-- How a character is written in a string: quotes, backslashes and controls are escaped. -/
def escapeChar (c : Char) : List Char :=
  match c with
  | '"' => ['\\', '"']
  | '\\' => ['\\', '\\']
  | '\x08' => ['\\', 'b']
  | '\x0c' => ['\\', 'f']
  | '\n' => ['\\', 'n']
  | '\r' => ['\\', 'r']
  | '\t' => ['\\', 't']
  | c =>
    if c.toNat < 0x20 then
      ['\\', 'u', '0', '0', Nat.digitChar (c.toNat / 16), Nat.digitChar (c.toNat % 16)]
    else [c]

def printString (s : String) : List Char := '"' :: s.toList.flatMap escapeChar ++ ['"']

mutual

/-- The text of a tree.  Faults have none. -/
def print : Tree → List Char
  | .null => ['n', 'u', 'l', 'l']
  | .bool true => ['t', 'r', 'u', 'e']
  | .bool false => ['f', 'a', 'l', 's', 'e']
  | .int n => Json.intText n
  | .double d => Json.doubleText d
  | .str s => printString s
  | .unreadable => []
  | .malformed => []
  | .arr items => '[' :: printItems items ++ [']']
  | .obj members => '\x7b' :: printMembers members ++ ['\x7d']

def printItems : List Tree → List Char
  | [] => []
  | [t] => t.print
  | t :: rest => t.print ++ ',' :: printItems rest

def printMembers : List (Option String × Tree) → List Char
  | [] => []
  | [(key, t)] => printString (key.getD "") ++ ':' :: t.print
  | (key, t) :: rest => printString (key.getD "") ++ ':' :: t.print ++ ',' :: printMembers rest

end

def text (t : Tree) : String := String.ofList t.print

end Tree

def Json.text (v : Json) : String := v.toTree.text

end ResourceTable
