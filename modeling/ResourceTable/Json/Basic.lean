import ResourceTable.Dict
import ResourceTable.Decimal.Double

namespace ResourceTable

/-- A JSON value.  Integers have at most 64 bits; every other number is a double. -/
inductive Json where
  | null
  | bool (b : Bool)
  | int (n : Int)
  | double (d : Double)
  | str (s : String)
  | arr (items : List Json)
  | obj (members : List (String × Json))
  deriving Inhabited

namespace Json

/-- What the readers produce: integers in range, and objects with ascending keys. -/
inductive WellFormed : Json → Prop where
  | null : WellFormed .null
  | bool (b : Bool) : WellFormed (.bool b)
  | int {n : Int} (lower : -0x8000000000000000 ≤ n) (upper : n < 0x10000000000000000) :
    WellFormed (.int n)
  | double (d : Double) : WellFormed (.double d)
  | str (s : String) : WellFormed (.str s)
  | arr {items : List Json} (each : ∀ v ∈ items, WellFormed v) : WellFormed (.arr items)
  | obj {members : Entries Json} (ascending : members.Ascending)
      (each : ∀ m ∈ members, WellFormed m.2) : WellFormed (.obj members)

def object (members : Entries Json) : Json := .obj members.sorted

def member? (key : String) : Json → Option Json
  | .obj members => members.lookup key
  | _ => none

def string? : Json → Option String
  | .str s => some s
  | _ => none

def int64? : Json → Option Int64
  | .int n => if Int64.minValue.toInt ≤ n ∧ n ≤ Int64.maxValue.toInt then some (.ofInt n) else none
  | _ => none

def array? : Json → Option (List Json)
  | .arr items => some items
  | _ => none

def isObject : Json → Bool
  | .obj _ => true
  | _ => false

mutual

/-- Equal, where doubles are compared as numbers; an integer never equals a double. -/
def same : Json → Json → Bool
  | .null, .null => true
  | .bool a, .bool b => a == b
  | .int a, .int b => a == b
  | .double a, .double b => a.same b
  | .str a, .str b => a == b
  | .arr a, .arr b => sameItems a b
  | .obj a, .obj b => sameMembers a b
  | _, _ => false

def sameItems : List Json → List Json → Bool
  | [], [] => true
  | a :: as, b :: bs => same a b && sameItems as bs
  | _, _ => false

def sameMembers : List (String × Json) → List (String × Json) → Bool
  | [], [] => true
  | (k, a) :: as, (l, b) :: bs => k == l && same a b && sameMembers as bs
  | _, _ => false

end

mutual

def identical : Json → Json → Bool
  | .null, .null => true
  | .bool a, .bool b => a == b
  | .int a, .int b => a == b
  | .double a, .double b => a == b
  | .str a, .str b => a == b
  | .arr a, .arr b => identicalItems a b
  | .obj a, .obj b => identicalMembers a b
  | _, _ => false

def identicalItems : List Json → List Json → Bool
  | [], [] => true
  | a :: as, b :: bs => identical a b && identicalItems as bs
  | _, _ => false

def identicalMembers : List (String × Json) → List (String × Json) → Bool
  | [], [] => true
  | (k, a) :: as, (l, b) :: bs => k == l && identical a b && identicalMembers as bs
  | _, _ => false

end

mutual

theorem identical_iff : ∀ a b : Json, a.identical b = true ↔ a = b
  | .null, b => by cases b <;> simp [identical]
  | .bool _, b => by cases b <;> simp [identical]
  | .int _, b => by cases b <;> simp [identical]
  | .double _, b => by cases b <;> simp [identical]
  | .str _, b => by cases b <;> simp [identical]
  | .arr xs, b => by cases b <;> simp [identical, identicalItems_iff xs]
  | .obj ms, b => by cases b <;> simp [identical, identicalMembers_iff ms]

theorem identicalItems_iff : ∀ as bs : List Json, identicalItems as bs = true ↔ as = bs
  | [], bs => by cases bs <;> simp [identicalItems]
  | a :: as, bs => by cases bs <;> simp [identicalItems, identical_iff a, identicalItems_iff as]

theorem identicalMembers_iff :
    ∀ as bs : List (String × Json), identicalMembers as bs = true ↔ as = bs
  | [], bs => by cases bs <;> simp [identicalMembers]
  | (k, a) :: as, bs => by
    cases bs <;> simp [identicalMembers, identical_iff a, identicalMembers_iff as, Prod.ext_iff]

end

instance : DecidableEq Json := fun a b => decidable_of_iff _ (identical_iff a b)

end Json

end ResourceTable
