import Std.Data.DHashMap.Lemmas
import ResourceTable.Request.Info

namespace ResourceTable

/-- The kinds of values in a context, those of the program indexed by `ι`. -/
inductive Context.Kind (ι : Type) where
  | request
  | extension (i : ι)
  deriving DecidableEq, Hashable

abbrev Context.Kind.Value {ι : Type} (β : ι → Type) : Context.Kind ι → Type
  | .request => RequestInfo
  | .extension i => β i

/-- The values known while a request is handled, one of each kind at most. -/
structure Context {ι : Type} [DecidableEq ι] [Hashable ι] (β : ι → Type) where
  values : Std.DHashMap (Context.Kind ι) (Context.Kind.Value β)

namespace Context

variable {ι : Type} [DecidableEq ι] [Hashable ι] {β : ι → Type}

def empty : Context β := ⟨∅⟩

def store (c : Context β) (k : Kind ι) (value : k.Value β) : Context β :=
  ⟨c.values.insert k value⟩

def get? (c : Context β) (k : Kind ι) : Option (k.Value β) := c.values.get? k

def contains (c : Context β) (k : Kind ι) : Bool := c.values.contains k

def size (c : Context β) : Nat := c.values.size

def isEmpty (c : Context β) : Bool := c.values.isEmpty

def request? (c : Context β) : Option RequestInfo := c.get? .request

def summary (c : Context β) : String :=
  "RequestContext \x7b values: " ++ Nat.repr c.size ++ ", .. \x7d"

end Context

end ResourceTable
