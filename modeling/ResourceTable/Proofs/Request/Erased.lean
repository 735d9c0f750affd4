import Std.Data.HashMap.Lemmas
import ResourceTable.Proofs.Request.Lineage

namespace ResourceTable.Context

/-- A store that has forgotten the types: a value of any kind may stand under a key. -/
structure Erased {ι : Type} [DecidableEq ι] [Hashable ι] (β : ι → Type) where
  values : Std.HashMap (Kind ι) (Entry β)

namespace Erased

variable {ι : Type} [DecidableEq ι] [Hashable ι] {β : ι → Type}

def empty : Erased β := ⟨∅⟩

def store (s : Erased β) (k : Kind ι) (value : k.Value β) : Erased β :=
  ⟨s.values.insert k ⟨k, value⟩⟩

/-- The value as one of kind `k`, if it is one. -/
def downcast (k : Kind ι) (e : Entry β) : Option (k.Value β) :=
  if h : e.1 = k then some (cast (congrArg (Kind.Value β) h) e.2) else none

def get? (s : Erased β) (k : Kind ι) : Option (k.Value β) := s.values[k]?.bind (downcast k)

def contains (s : Erased β) (k : Kind ι) : Bool := s.values.contains k

def size (s : Erased β) : Nat := s.values.size

/-- Each value is of the kind under which it stands. -/
def Tagged (s : Erased β) : Prop :=
  ∀ (k : Kind ι) (e : Entry β), s.values[k]? = some e → e.1 = k

theorem tagged_empty : (empty : Erased β).Tagged := by
  intro k e he
  rw [empty, Std.HashMap.getElem?_empty] at he
  cases he

theorem Tagged.store {s : Erased β} (h : s.Tagged) (k : Kind ι) (value : k.Value β) :
    (s.store k value).Tagged := by
  intro l e he
  rw [Erased.store, Std.HashMap.getElem?_insert] at he
  split at he
  · next hl =>
    cases he
    exact eq_of_beq hl
  · exact h l e he

omit [Hashable ι] in
theorem downcast_ne_none {k : Kind ι} {e : Entry β} (h : e.1 = k) : downcast k e ≠ none := by
  rw [downcast, dif_pos h]
  exact Option.some_ne_none _

theorem Tagged.contains_iff {s : Erased β} (h : s.Tagged) (k : Kind ι) :
    s.contains k = true ↔ s.get? k ≠ none := by
  rw [contains, get?, Std.HashMap.contains_eq_isSome_getElem?]
  cases hk : s.values[k]? with
  | none => simp
  | some e => simp [downcast_ne_none (h k e hk)]

theorem get?_store (s : Erased β) (k : Kind ι) (value : k.Value β) (l : Kind ι) :
    (s.store k value).get? l =
      if h : k = l then some (cast (congrArg (Kind.Value β) h) value) else s.get? l := by
  rw [get?, store, Std.HashMap.getElem?_insert]
  by_cases h : k = l
  · subst h
    rw [if_pos (beq_self_eq_true k), Option.bind_some, downcast, dif_pos rfl, dif_pos rfl]
  · rw [if_neg (mt eq_of_beq h), dif_neg h, get?]

theorem size_store (s : Erased β) (k : Kind ι) (value : k.Value β) :
    (s.store k value).size = if s.contains k then s.size else s.size + 1 :=
  Std.HashMap.size_insert

structure Represents (s : Erased β) (c : Context β) : Prop where
  tagged : s.Tagged
  get? : ∀ k, s.get? k = c.get? k
  size : s.size = c.size

theorem Represents.contains {s : Erased β} {c : Context β} (h : s.Represents c) (k : Kind ι) :
    s.contains k = c.contains k := by
  rw [Bool.eq_iff_iff, h.tagged.contains_iff, c.contains_iff, h.get?]

theorem represents_empty : (empty : Erased β).Represents Context.empty where
  tagged := tagged_empty
  get? k := by
    rw [get?, empty, Std.HashMap.getElem?_empty]
    exact Std.DHashMap.get?_empty.symm
  size := Std.HashMap.size_empty.trans Std.DHashMap.size_empty.symm

theorem Represents.store {s : Erased β} {c : Context β} (h : s.Represents c) (k : Kind ι)
    (value : k.Value β) : (s.store k value).Represents (c.store k value) where
  tagged := h.tagged.store k value
  get? l := by rw [get?_store, Context.get?_store, h.get?]
  size := by rw [size_store, Context.size_store, h.contains, h.size]

theorem Represents.extend {s : Erased β} {c : Context β} (h : s.Represents c)
    (entries : List (Entry β)) :
    (entries.foldl (fun s e => s.store e.1 e.2) s).Represents (c.extend entries) := by
  induction entries generalizing s c with
  | nil => exact h
  | cons e entries ih => exact ih (h.store e.1 e.2)

/-- A store without types that is filled along the line of descent of a context, the latest value
last, has each value under its own kind, and answers as the context does. -/
theorem run_represented {steps : List (Step β)} {name : String} {c : Context β}
    (h : (run steps).get? name = some c) :
    ∃ entries, line steps.reverse name = some entries ∧
      (entries.reverse.foldl (fun s e => s.store e.1 e.2) empty).Represents c := by
  have hrel := rel_run steps name
  rw [h] at hrel
  generalize line steps.reverse name = entries at hrel ⊢
  cases hrel with
  | @some _ entries hholds =>
    -- what a context holds is settled by the line, so it is enough to look at one filled from it
    have hfilled := holds_extend entries
    obtain ⟨htagged, hget, hsize⟩ := represents_empty.extend entries.reverse
    refine ⟨entries, rfl, htagged, fun k => ?_, ?_⟩
    · rw [hget, hfilled.get?, hholds.get?]
    · rw [hsize, hfilled.size, hholds.size]

end Erased

end ResourceTable.Context
