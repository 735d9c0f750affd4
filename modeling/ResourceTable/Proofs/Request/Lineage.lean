import Mathlib.Data.Finset.Card
import ResourceTable.Proofs.Table.Conversion

namespace ResourceTable.Context

open Traversal

variable {ι : Type} {β : ι → Type}

abbrev Entry (β : ι → Type) := (k : Kind ι) × k.Value β

inductive Step (β : ι → Type) where
  | create (name : String)
  | clone (name source : String)
  | store (name : String) (k : Kind ι) (value : k.Value β)

def Step.name : Step β → String
  | .create name => name
  | .clone name _ => name
  | .store name _ _ => name

/-- The line of descent of a context: what was stored in it and in the contexts that it was cloned
from, up to the cloning, the latest first.  The history has its latest operation first, too. -/
def line : (history : List (Step β)) → String → Option (List (Entry β))
  | [], _ => none
  | .create name :: earlier, c => if c = name then some [] else line earlier c
  | .clone name source :: earlier, c =>
    if c = name then (line earlier source).or (line earlier c) else line earlier c
  | .store name k value :: earlier, c =>
    if c = name then (line earlier c).map (⟨k, value⟩ :: ·) else line earlier c

theorem line_cons_of_ne {s : Step β} {c : String} (h : s.name ≠ c) (earlier : List (Step β)) :
    line (s :: earlier) c = line earlier c := by
  cases s <;> exact if_neg (Ne.symm h)

variable [DecidableEq ι]

def latest? (k : Kind ι) : List (Entry β) → Option (k.Value β)
  | [] => none
  | ⟨l, value⟩ :: earlier =>
    if h : l = k then some (cast (congrArg (Kind.Value β) h) value) else latest? k earlier

theorem latest?_ne_none_iff {k : Kind ι} {entries : List (Entry β)} :
    latest? k entries ≠ none ↔ k ∈ entries.map Sigma.fst := by
  induction entries with
  | nil => simp [latest?]
  | cons e entries ih =>
    rw [latest?, List.map_cons, List.mem_cons]
    split
    · next h => simp [h]
    · next h => rw [ih, or_iff_right (Ne.symm h)]

variable [Hashable ι]

theorem contains_iff (c : Context β) (k : Kind ι) : c.contains k = true ↔ c.get? k ≠ none := by
  rw [contains, get?, Std.DHashMap.contains_eq_isSome_get?, Option.isSome_iff_ne_none]

theorem isEmpty_iff (c : Context β) : c.isEmpty = true ↔ c.size = 0 := by
  rw [isEmpty, size, Std.DHashMap.isEmpty_eq_size_eq_zero, beq_iff_eq]

theorem get?_store (c : Context β) (k : Kind ι) (value : k.Value β) (l : Kind ι) :
    (c.store k value).get? l =
      if h : k = l then some (cast (congrArg (Kind.Value β) h) value) else c.get? l := by
  rw [get?, store, Std.DHashMap.get?_insert]
  simp only [beq_iff_eq]
  rfl

def extend (c : Context β) (entries : List (Entry β)) : Context β :=
  entries.foldl (fun c e => c.store e.1 e.2) c

theorem request?_extend {entries : List (Entry β)} (h : ∀ e ∈ entries, e.1 ≠ .request)
    (c : Context β) : (c.extend entries).request? = c.request? := by
  induction entries generalizing c with
  | nil => rfl
  | cons e entries ih =>
    rw [List.forall_mem_cons] at h
    have hstore : (c.store e.1 e.2).request? = c.request? := by
      rw [request?, get?_store, dif_neg h.1]
      rfl
    rw [extend, List.foldl_cons]
    exact (ih h.2 _).trans hstore

theorem size_store (c : Context β) (k : Kind ι) (value : k.Value β) :
    (c.store k value).size = if c.contains k then c.size else c.size + 1 :=
  Std.DHashMap.size_insert

/-- A context holds the latest value of each kind among the entries, and no others. -/
structure Holds (c : Context β) (entries : List (Entry β)) : Prop where
  get? : ∀ k, c.get? k = latest? k entries
  size : c.size = (entries.map Sigma.fst).toFinset.card

theorem holds_empty : (empty : Context β).Holds [] :=
  ⟨fun _ => Std.DHashMap.get?_empty, Std.DHashMap.size_empty⟩

theorem Holds.store {c : Context β} {entries : List (Entry β)} (h : c.Holds entries) (k : Kind ι)
    (value : k.Value β) : (c.store k value).Holds (⟨k, value⟩ :: entries) where
  get? l := by rw [get?_store, latest?, h.get?]
  size := by
    rw [size_store, List.map_cons, List.toFinset_cons, Finset.card_insert_eq_ite, h.size]
    simp only [contains_iff, h.get?, latest?_ne_none_iff, List.mem_toFinset]

theorem holds_extend (entries : List (Entry β)) :
    ((empty : Context β).extend entries.reverse).Holds entries := by
  induction entries with
  | nil => exact holds_empty
  | cons e entries ih =>
    rw [List.reverse_cons, extend, List.foldl_append]
    exact ih.store e.1 e.2

/-- One operation.  What is not there is neither cloned nor extended. -/
def Step.apply (contexts : Dict (Context β)) : Step β → Dict (Context β)
  | .create name => contexts.insert name .empty
  | .clone name source =>
    match contexts.get? source with
    | some c => contexts.insert name c
    | none => contexts
  | .store name k value =>
    match contexts.get? name with
    | some c => contexts.insert name (c.store k value)
    | none => contexts

def run (steps : List (Step β)) : Dict (Context β) := steps.foldl Step.apply .empty

/-- An operation on one context is not seen by the others. -/
theorem get?_apply_of_ne {s : Step β} {name : String} (h : s.name ≠ name)
    (contexts : Dict (Context β)) : (s.apply contexts).get? name = contexts.get? name := by
  have hinsert : ∀ c, (contexts.insert s.name c).get? name = contexts.get? name := by
    intro c
    rw [Dict.get?_insert, if_neg (Ne.symm h)]
  cases s with
  | create _ => exact hinsert _
  | clone _ source =>
    rw [Step.apply]
    split
    · exact hinsert _
    · rfl
  | store _ k value =>
    rw [Step.apply]
    split
    · exact hinsert _
    · rfl

theorem rel_apply {contexts : Dict (Context β)} {earlier : List (Step β)}
    (h : ∀ name, Option.Rel Holds (contexts.get? name) (line earlier name)) (s : Step β)
    (name : String) :
    Option.Rel Holds ((s.apply contexts).get? name) (line (s :: earlier) name) := by
  by_cases hname : s.name = name
  · subst hname
    cases s with
    | create name =>
      rw [Step.apply, Step.name, Dict.get?_insert, line, if_pos rfl, if_pos rfl]
      exact .some holds_empty
    | clone name source =>
      have hsource := h source
      rw [Step.apply, Step.name, line, if_pos rfl]
      generalize contexts.get? source = c, line earlier source = entries at hsource ⊢
      cases hsource with
      | none => exact h name
      | some hc =>
        rw [Dict.get?_insert, if_pos rfl]
        exact .some hc
    | store name k value =>
      have hown := h name
      rw [Step.apply, Step.name, line, if_pos rfl]
      generalize hget : contexts.get? name = c, line earlier name = entries at hown ⊢
      cases hown with
      | none =>
        show Option.Rel Holds (contexts.get? name) none
        rw [hget]
        exact .none
      | some hc =>
        rw [Dict.get?_insert, if_pos rfl]
        exact .some (hc.store k value)
  · rw [get?_apply_of_ne hname, line_cons_of_ne hname]
    exact h name

theorem rel_run (steps : List (Step β)) (name : String) :
    Option.Rel Holds ((run steps).get? name) (line steps.reverse name) := by
  -- the line of descent looks back from the last operation, so the run is taken from its end
  induction steps using List.reverseRecOn generalizing name with
  | nil => exact .none
  | append_singleton steps s ih =>
    rw [run, List.foldl_append, List.reverse_append]
    exact rel_apply ih s name

theorem Holds.resource {c : Context β} {entries : List (Entry β)} (h : c.Holds entries)
    (convertor : Convertor) :
    convertor.resource c = match latest? .request entries with
      | some request => RequestInfo.groupResource request
      | none => convertor.defaultResource := by
  rw [Convertor.resource, request?, h.get?]
  cases latest? .request entries <;> rfl

end ResourceTable.Context
