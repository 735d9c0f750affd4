import ResourceTable.Proofs.Entries
import ResourceTable.Proofs.Json.Text
import ResourceTable.Proofs.Traversal

namespace ResourceTable

open Traversal

namespace Json

/-- No doubles, and arrays and objects stand in one another at most `depth` deep. -/
inductive Plain : (depth : Nat) → Json → Prop where
  | null {depth : Nat} : Plain depth .null
  | bool {depth : Nat} (b : Bool) : Plain depth (.bool b)
  | int {depth : Nat} (n : Int) : Plain depth (.int n)
  | str {depth : Nat} (s : String) : Plain depth (.str s)
  | arr {depth : Nat} {items : List Json} (each : ∀ v ∈ items, Plain depth v) :
    Plain (depth + 1) (.arr items)
  | obj {depth : Nat} {members : Entries Json} (each : ∀ m ∈ members, Plain depth m.2) :
    Plain (depth + 1) (.obj members)

theorem toTrees_eq_map (vs : List Json) : toTrees vs = vs.map toTree := by
  induction vs with
  | nil => rfl
  | cons v vs ih => rw [toTrees, ih, List.map_cons]

theorem toTreeMembers_eq_map (ms : Entries Json) :
    toTreeMembers ms = ms.map fun (key, v) => (some key, v.toTree) := by
  induction ms with
  | nil => rfl
  | cons m ms ih => rw [toTreeMembers, ih, List.map_cons]

theorem toTreeMembers_append (ms ns : Entries Json) :
    toTreeMembers (ms ++ ns) = toTreeMembers ms ++ toTreeMembers ns := by
  simp only [toTreeMembers_eq_map, List.map_append]

end Json

namespace Tree

variable {depth : Nat}

theorem items?_eq_some_iff {ts : List Tree} {vs : List Json} :
    items? ts depth = some vs ↔ List.Forall₂ (fun t v => t.json? depth = some v) ts vs := by
  induction ts generalizing vs with
  | nil => cases vs <;> simp [items?]
  | cons t ts ih =>
    simp only [items?, Option.bind_eq_bind, Option.bind_eq_some_iff, Option.pure_def,
      Option.some.injEq, List.forall₂_cons_left_iff, ih]
    constructor
    · rintro ⟨v, hv, us, hus, rfl⟩
      exact ⟨v, us, hv, hus, rfl⟩
    · rintro ⟨v, us, hv, hus, rfl⟩
      exact ⟨v, hv, us, hus, rfl⟩

theorem members?_eq_some_iff {ms : List (Option String × Tree)} {es : Entries Json} :
    members? ms depth = some es ↔
      List.Forall₂ (fun m e => m.1 = some e.1 ∧ m.2.json? depth = some e.2) ms es := by
  induction ms generalizing es with
  | nil => cases es <;> simp [members?]
  | cons m ms ih =>
    obtain ⟨_ | key, t⟩ := m
    · simp [members?, List.forall₂_cons_left_iff]
    · simp only [members?, Option.bind_eq_bind, Option.bind_eq_some_iff, Option.pure_def,
        Option.some.injEq, List.forall₂_cons_left_iff, ih, Prod.exists]
      constructor
      · rintro ⟨v, hv, us, hus, rfl⟩
        exact ⟨key, v, us, ⟨rfl, hv⟩, hus, rfl⟩
      · rintro ⟨_, v, us, ⟨rfl, hv⟩, hus, rfl⟩
        exact ⟨v, hv, us, hus, rfl⟩

/-- The tree is written in full, and `v` is its value where containers nest at most `depth`
deep. -/
structure Spells (depth : Nat) (t : Tree) (v : Json) : Prop where
  exact : t.Exact
  value : t.json? depth = some v

structure MemberSpells (depth : Nat) (m : Option String × Tree) (e : String × Json) : Prop where
  key : m.1 = some e.1
  value : m.2.Spells depth e.2

theorem spells_arr {ts : List Tree} {vs : List Json} (each : List.Forall₂ (Spells depth) ts vs) :
    (Tree.arr ts).Spells (depth + 1) (.arr vs) where
  exact := by
    refine .arr fun t ht => ?_
    obtain ⟨v, -, hv⟩ := exists_of_forall₂ each ht
    exact hv.exact
  value := by rw [json?, items?_eq_some_iff.2 (each.imp fun _ _ h => h.value), Option.map_some]

/-- Keys may repeat in the text; the value has the last member under each. -/
theorem spells_obj {ms : List (Option String × Tree)} {es : Entries Json}
    (each : List.Forall₂ (MemberSpells depth) ms es) :
    (Tree.obj ms).Spells (depth + 1) (.object es) where
  exact := by
    refine .obj (fun m hm => ?_) fun m hm => ?_
    · obtain ⟨e, -, he⟩ := exists_of_forall₂ each hm
      exact Option.isSome_iff_exists.2 ⟨e.1, he.key⟩
    · obtain ⟨e, -, he⟩ := exists_of_forall₂ each hm
      exact he.value.exact
  value := by rw [json?, members?_eq_some_iff.2 (each.imp fun _ _ h => ⟨h.key, h.value.value⟩),
    Option.map_some]

/-- The text of a tree holds its value. -/
theorem Spells.parse?_text {t : Tree} {v : Json} (h : t.Spells maxDepth v) :
    Json.parse? t.text = some v := by
  simp only [Json.parse?, text, String.toList_ofList, read_print h.exact, h.value]
  rfl

end Tree

namespace Json

theorem object_of_ascending {es : Entries Json} (h : es.Ascending) : object es = .obj es := by
  rw [object, Entries.sorted_of_ascending h]

theorem spells_toTree {v : Json} {depth : Nat} (hv : v.WellFormed) (hp : v.Plain depth) :
    v.toTree.Spells depth v := by
  induction hv generalizing depth with
  | null => exact ⟨.null, rfl⟩
  | bool b => exact ⟨.bool b, rfl⟩
  | int lower upper => exact ⟨.int lower upper, rfl⟩
  | double d => cases hp
  | str s => exact ⟨.str s, rfl⟩
  | arr each ih =>
    cases hp with
    | arr plain =>
      rw [toTree, toTrees_eq_map]
      apply Tree.spells_arr
      rw [List.forall₂_map_left_iff, List.forall₂_same]
      exact fun v hv => ih v hv (plain v hv)
  | obj ascending each ih =>
    cases hp with
    | obj plain =>
      rw [toTree, toTreeMembers_eq_map, ← object_of_ascending ascending]
      apply Tree.spells_obj
      rw [List.forall₂_map_left_iff, List.forall₂_same]
      exact fun m hm => ⟨rfl, ih m hm (plain m hm)⟩

structure Fits (depth : Nat) (v : Json) : Prop where
  wellFormed : v.WellFormed
  plain : v.Plain depth

theorem Fits.spells {depth : Nat} {v : Json} (h : v.Fits depth) : v.toTree.Spells depth v :=
  spells_toTree h.wellFormed h.plain

end Json

namespace Tree

inductive Sound : Tree → Prop where
  | null : Sound .null
  | bool (b : Bool) : Sound (.bool b)
  | int {n : Int} (lower : -0x8000000000000000 ≤ n) (upper : n < 0x10000000000000000) :
    Sound (.int n)
  | double (d : Double) : Sound (.double d)
  | str (s : String) : Sound (.str s)
  | unreadable : Sound .unreadable
  | malformed : Sound .malformed
  | arr {items : List Tree} (each : ∀ t ∈ items, Sound t) : Sound (.arr items)
  | obj {members : List (Option String × Tree)} (each : ∀ m ∈ members, Sound m.2) :
    Sound (.obj members)

theorem ofNumeral_sound (x : Numeral) : (ofNumeral x).Sound := by
  unfold ofNumeral
  split
  · next n hn =>
    obtain ⟨lower, upper⟩ := Numeral.int?_range hn
    exact .int lower upper
  · split
    · exact .double _
    · exact .unreadable

theorem scalar_sound (s : List Char) : (scalar s).1.Sound := by
  have hnode : ∀ node : Option (Tree × List Char), (∀ p ∈ node, p.1.Sound) →
      (node.getD (.malformed, [])).1.Sound := by
    intro node h
    cases node with
    | none => exact .malformed
    | some p => exact h p rfl
  unfold scalar
  refine hnode _ fun p hp => ?_
  split at hp
  · obtain ⟨_, _, rfl⟩ := Option.map_eq_some_iff.1 hp
    exact .null
  · obtain ⟨_, _, rfl⟩ := Option.map_eq_some_iff.1 hp
    exact .bool true
  · obtain ⟨_, _, rfl⟩ := Option.map_eq_some_iff.1 hp
    exact .bool false
  · obtain ⟨⟨text, _⟩, _, rfl⟩ := Option.map_eq_some_iff.1 hp
    cases text with
    | none => exact .unreadable
    | some text => exact .str text
  · obtain ⟨⟨x, _⟩, _, rfl⟩ := Option.map_eq_some_iff.1 hp
    exact ofNumeral_sound x

theorem value_sound (fuel : Nat) (s : List Char) : (value fuel s).1.Sound := by
  -- the three readers call each other with less fuel, so they are taken together
  suffices ∀ fuel, (∀ s, (value fuel s).1.Sound) ∧ (∀ s, ∀ t ∈ (elements fuel s).1, t.Sound) ∧
      ∀ s, ∀ m ∈ (members fuel s).1, m.2.Sound from (this fuel).1 s
  intro fuel
  induction fuel with
  | zero =>
    refine ⟨fun _ => .malformed, fun _ t ht => ?_, fun _ m hm => ?_⟩
    · rw [List.mem_singleton.1 ht]
      exact .malformed
    · rw [List.mem_singleton.1 hm]
      exact .malformed
  | succ fuel ih =>
    obtain ⟨hvalue, helements, hmembers⟩ := ih
    refine ⟨fun s => ?_, fun s => ?_, fun s => ?_⟩
    · rw [value]
      split
      · split
        · exact .arr (List.forall_mem_nil _)
        · exact .arr (helements _)
      · split
        · exact .obj (List.forall_mem_nil _)
        · exact .obj (hmembers _)
      · exact scalar_sound _
    · have hfirst := hvalue s
      simp only [elements]
      split
      · exact List.forall_mem_cons.2 ⟨hfirst, helements _⟩
      · exact List.forall_mem_cons.2 ⟨hfirst, List.forall_mem_nil _⟩
      · exact List.forall_mem_cons.2 ⟨hfirst, List.forall_mem_singleton.2 .malformed⟩
    · have hfault : ∀ key : Option String, ∀ m ∈ [(key, malformed)], m.2.Sound :=
        fun _ => List.forall_mem_singleton.2 .malformed
      simp only [members]
      split
      · split
        · exact hfault none
        · split
          · next rest _ =>
            have hfirst := hvalue rest
            split
            · exact List.forall_mem_cons.2 ⟨hfirst, hmembers _⟩
            · exact List.forall_mem_cons.2 ⟨hfirst, List.forall_mem_nil _⟩
            · exact List.forall_mem_cons.2 ⟨hfirst, hfault none⟩
          · exact hfault _
      · exact hfault none

theorem wellFormed_of_json? {t : Tree} {depth : Nat} {v : Json} (ht : t.Sound)
    (hv : t.json? depth = some v) : v.WellFormed := by
  induction ht generalizing depth v with
  | null => cases hv; exact .null
  | bool b => cases hv; exact .bool b
  | int lower upper => cases hv; exact .int lower upper
  | double d => cases hv; exact .double d
  | str s => cases hv; exact .str s
  | unreadable => cases hv
  | malformed => cases hv
  | arr each ih =>
    cases depth with
    | zero => cases hv
    | succ depth =>
      rw [json?, Option.map_eq_some_iff] at hv
      obtain ⟨vs, hvs, rfl⟩ := hv
      refine .arr fun v hv => ?_
      obtain ⟨t, ht, hjson⟩ := exists_of_forall₂ (items?_eq_some_iff.1 hvs).flip hv
      exact ih t ht hjson
  | obj each ih =>
    cases depth with
    | zero => cases hv
    | succ depth =>
      rw [json?, Option.map_eq_some_iff] at hv
      obtain ⟨ms, hms, rfl⟩ := hv
      -- putting members in order drops some and changes none
      refine .obj (Entries.ascending_sorted ms) fun e he => ?_
      obtain ⟨m, hm, -, hjson⟩ :=
        exists_of_forall₂ (members?_eq_some_iff.1 hms).flip (Entries.mem_sorted he)
      exact ih m hm hjson

end Tree

end ResourceTable
