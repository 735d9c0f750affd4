import Mathlib.Data.List.Nodup
import ResourceTable.Proofs.Json.Values

namespace ResourceTable.Tree

mutual

def isDistinct : Tree → Bool
  | .arr items => areDistinct items
  | .obj members => decide (members.map Prod.fst).Nodup && membersAreDistinct members
  | _ => true

def areDistinct : List Tree → Bool
  | [] => true
  | t :: rest => t.isDistinct && areDistinct rest

def membersAreDistinct : List (Option String × Tree) → Bool
  | [] => true
  | (_, t) :: rest => t.isDistinct && membersAreDistinct rest

end

/-- No object in the tree repeats a key, and `v` is its value where containers nest at most `depth`
deep. -/
structure Holds (depth : Nat) (t : Tree) (v : Json) : Prop where
  distinct : t.isDistinct = true
  value : t.json? depth = some v

structure MemberHolds (depth : Nat) (m : Option String × Tree) (e : String × Json) : Prop where
  key : m.1 = some e.1
  value : m.2.Holds depth e.2

variable {t : Tree} {depth : Nat} {v : Json}

theorem areDistinct_iff {items : List Tree} :
    areDistinct items = true ↔ ∀ t ∈ items, t.isDistinct = true := by
  induction items with
  | nil => simp [areDistinct]
  | cons t items ih => rw [areDistinct, Bool.and_eq_true, ih, List.forall_mem_cons]

theorem membersAreDistinct_iff {members : List (Option String × Tree)} :
    membersAreDistinct members = true ↔ ∀ m ∈ members, m.2.isDistinct = true := by
  induction members with
  | nil => simp [membersAreDistinct]
  | cons m members ih => rw [membersAreDistinct, Bool.and_eq_true, ih, List.forall_mem_cons]

theorem forall₂_of_items? {items : List Tree} {vs : List Json}
    (hd : areDistinct items = true) (hv : items? items depth = some vs) :
    List.Forall₂ (Holds depth) items vs := by
  have each := (List.forall₂_and_left items vs).2
    ⟨areDistinct_iff.1 hd, items?_eq_some_iff.1 hv⟩
  exact each.imp fun t v h => ⟨h.1, h.2⟩

theorem forall₂_of_members? {members : List (Option String × Tree)} {es : Entries Json}
    (hd : membersAreDistinct members = true) (hv : members? members depth = some es) :
    List.Forall₂ (MemberHolds depth) members es := by
  have each := (List.forall₂_and_left members es).2
    ⟨membersAreDistinct_iff.1 hd, members?_eq_some_iff.1 hv⟩
  exact each.imp fun m e h => ⟨h.2.1, h.1, h.2.2⟩

theorem keys_of_forall₂ {members : List (Option String × Tree)} {es : Entries Json}
    (h : List.Forall₂ (MemberHolds depth) members es) :
    members.map Prod.fst = (es.map Prod.fst).map some := by
  induction h with
  | nil => rfl
  | cons hm _ ih => rw [List.map_cons, hm.key, ih, List.map_cons, List.map_cons]

/-- A tree beside the value that it holds. -/
inductive Shape : (depth : Nat) → Tree → Json → Prop where
  | null {depth : Nat} : Shape depth .null .null
  | bool {depth : Nat} (b : Bool) : Shape depth (.bool b) (.bool b)
  | int {depth : Nat} (n : Int) : Shape depth (.int n) (.int n)
  | double {depth : Nat} (d : Double) : Shape depth (.double d) (.double d)
  | str {depth : Nat} (s : String) : Shape depth (.str s) (.str s)
  | arr {depth : Nat} {items : List Tree} {vs : List Json}
      (each : List.Forall₂ (Holds depth) items vs) : Shape (depth + 1) (.arr items) (.arr vs)
  | obj {depth : Nat} {members : List (Option String × Tree)} {es : Entries Json}
      (distinct : (es.map Prod.fst).Nodup) (each : List.Forall₂ (MemberHolds depth) members es) :
    Shape (depth + 1) (.obj members) (.obj es.sorted)

theorem Holds.shape (h : t.Holds depth v) : Shape depth t v := by
  obtain ⟨hd, hv⟩ := h
  cases t with
  | null => cases hv; exact .null
  | bool b => cases hv; exact .bool b
  | int n => cases hv; exact .int n
  | double d => cases hv; exact .double d
  | str s => cases hv; exact .str s
  | unreadable => cases hv
  | malformed => cases hv
  | arr items =>
    cases depth with
    | zero => cases hv
    | succ depth =>
      rw [isDistinct] at hd
      rw [json?, Option.map_eq_some_iff] at hv
      obtain ⟨vs, hvs, rfl⟩ := hv
      exact .arr (forall₂_of_items? hd hvs)
  | obj members =>
    cases depth with
    | zero => cases hv
    | succ depth =>
      rw [isDistinct, Bool.and_eq_true, decide_eq_true_iff] at hd
      rw [json?, Option.map_eq_some_iff] at hv
      obtain ⟨es, hes, rfl⟩ := hv
      have each := forall₂_of_members? hd.2 hes
      exact .obj ((keys_of_forall₂ each ▸ hd.1).of_map some) each

mutual

theorem isWhole_of_json? : ∀ {t : Tree} {depth : Nat} {v : Json},
    t.json? depth = some v → t.isWhole = true
  | .null, _, _, _ | .bool _, _, _, _ | .int _, _, _, _ => rfl
  | .double _, _, _, _ | .str _, _, _, _ => rfl
  | .unreadable, _, _, h | .malformed, _, _, h => nomatch h
  | .arr _, 0, _, h | .obj _, 0, _, h => nomatch h
  | .arr _, _ + 1, _, h => by
    obtain ⟨vs, hvs, -⟩ := Option.map_eq_some_iff.1 h
    exact areWhole_of_items? hvs
  | .obj _, _ + 1, _, h => by
    obtain ⟨es, hes, -⟩ := Option.map_eq_some_iff.1 h
    exact membersAreWhole_of_members? hes

theorem areWhole_of_items? : ∀ {items : List Tree} {depth : Nat} {vs : List Json},
    items? items depth = some vs → areWhole items = true
  | [], _, _, _ => rfl
  | t :: rest, _, _, h => by
    obtain ⟨v, hv, hrest⟩ := Option.bind_eq_some_iff.1 h
    obtain ⟨us, hus, -⟩ := Option.bind_eq_some_iff.1 hrest
    rw [areWhole, isWhole_of_json? hv, areWhole_of_items? hus]
    rfl

theorem membersAreWhole_of_members? :
    ∀ {members : List (Option String × Tree)} {depth : Nat} {es : Entries Json},
      members? members depth = some es → membersAreWhole members = true
  | [], _, _, _ => rfl
  | (none, _) :: _, _, _, h => nomatch h
  | (some _, t) :: rest, _, _, h => by
    obtain ⟨v, hv, hrest⟩ := Option.bind_eq_some_iff.1 h
    obtain ⟨us, hus, -⟩ := Option.bind_eq_some_iff.1 hrest
    rw [membersAreWhole, isWhole_of_json? hv, membersAreWhole_of_members? hus]
    rfl

end

end ResourceTable.Tree
