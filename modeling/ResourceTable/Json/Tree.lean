import ResourceTable.Json.Basic

namespace ResourceTable

/-- JSON in the order of a text, where keys may repeat; one is missing if it stands for no text.  At
`malformed` the text stops being JSON; an `unreadable` scalar has the form of one but no value. -/
inductive Tree where
  | null
  | bool (b : Bool)
  | int (n : Int)
  | double (d : Double)
  | str (s : String)
  | unreadable
  | malformed
  | arr (items : List Tree)
  | obj (members : List (Option String × Tree))

namespace Tree

/-- The arrays and objects that may stand one in the other where values are read. -/
def maxDepth : Nat := 127

mutual

/-- Does the text stay JSON to the end of the tree?  Nothing else is asked of what is skipped. -/
def isWhole : Tree → Bool
  | .malformed => false
  | .arr items => areWhole items
  | .obj members => membersAreWhole members
  | _ => true

def areWhole : List Tree → Bool
  | [] => true
  | t :: rest => t.isWhole && areWhole rest

def membersAreWhole : List (Option String × Tree) → Bool
  | [] => true
  | (_, t) :: rest => t.isWhole && membersAreWhole rest

end

mutual

def json? : Tree → (depth : Nat) → Option Json
  | .null, _ => some .null
  | .bool b, _ => some (.bool b)
  | .int n, _ => some (.int n)
  | .double d, _ => some (.double d)
  | .str s, _ => some (.str s)
  | .unreadable, _ => none
  | .malformed, _ => none
  | .arr _, 0 => none
  | .obj _, 0 => none
  | .arr items, depth + 1 => (items?  items depth).map .arr
  | .obj members, depth + 1 => (members? members depth).map .object

def items? : List Tree → Nat → Option (List Json)
  | [], _ => some []
  | t :: rest, depth => do return (← json? t depth) :: (← items? rest depth)

def members? : List (Option String × Tree) → Nat → Option (List (String × Json))
  | [], _ => some []
  | (none, _) :: _, _ => none
  | (some key, t) :: rest, depth => do return (key, ← json? t depth) :: (← members? rest depth)

end

end Tree

namespace Json

mutual

def toTree : Json → Tree
  | .null => .null
  | .bool b => .bool b
  | .int n => .int n
  | .double d => .double d
  | .str s => .str s
  | .arr items => .arr (toTrees items)
  | .obj members => .obj (toTreeMembers members)

def toTrees : List Json → List Tree
  | [] => []
  | v :: rest => v.toTree :: toTrees rest

def toTreeMembers : List (String × Json) → List (Option String × Tree)
  | [] => []
  | (key, v) :: rest => (some key, v.toTree) :: toTreeMembers rest

end

end Json

end ResourceTable
