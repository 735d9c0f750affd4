import Mathlib.Data.List.Induction
import ResourceTable.Proofs.Object.DocumentList

namespace ResourceTable.DocumentList

open Traversal Wire

inductive Step where
  | create (items : List Document)
  | setField (key : String) (value : Json)
  | decode (v : Json)
  | read (text : String)

def Step.apply (l : DocumentList) : Step → DocumentList
  | .create items => .ofItems items
  | .setField key value => l.withField key value
  | .decode v => (codec.decode v).toOption.getD l
  | .read text => (codec.decodeText text).toOption.getD l

/-- Does the operation put another collection in place of the one there is? -/
def Step.renews : Step → Bool
  | .create _ => true
  | .setField _ _ => false
  | .decode v => (codec.decode v).isOk
  | .read text => (codec.decodeText text).isOk

def Step.WellFormed : Step → Prop
  | .create items => ∀ d ∈ items, d.value.WellFormed
  | .setField _ value => value.WellFormed
  | .decode v => v.WellFormed
  | .read _ => True

def run (steps : List Step) : DocumentList := steps.foldl Step.apply .empty

theorem wellFormed_of_decode_items {v : Json} {ds : List Document} (hv : v.WellFormed)
    (h : (Codec.list Document.codec).decode v = .ok ds) : ∀ d ∈ ds, d.value.WellFormed := by
  cases hv with
  | @arr items each =>
    rw [Document.decode_items] at h
    cases h
    exact List.forall_mem_map.2 each
  | _ => cases h

theorem clashes_of_decode {v : Json} {l : DocumentList} (h : codec.decode v = .ok l) :
    l.clashes = false := by
  cases v with
  | obj members =>
    obtain ⟨items, -, rfl⟩ := decode_obj_eq_ok_iff.1 h
    exact clashes_ofList (fun _ hm => ne_of_mem_filter hm) items
  | _ => cases h

theorem wellFormed_of_decode {v : Json} {l : DocumentList} (hv : v.WellFormed)
    (h : codec.decode v = .ok l) : l.WellFormed := by
  cases hv with
  | @obj members ascending each =>
    obtain ⟨items, hitems, rfl⟩ := decode_obj_eq_ok_iff.1 h
    refine ⟨fun m hm => each m (List.mem_of_mem_filter (Entries.mem_sorted hm)), ?_⟩
    cases hlook : members.lookup "items" with
    | none =>
      rw [hlook] at hitems
      cases hitems
      nofun
    | some v =>
      rw [hlook] at hitems
      exact wellFormed_of_decode_items (each _ (Entries.mem_of_lookup hlook)) hitems
  | _ => cases h

structure Draft (draft : Option (List Document) × Entries Json) : Prop where
  items : ∀ d ∈ draft.1.getD [], d.value.WellFormed
  fields : ∀ m ∈ draft.2, m.1 ≠ "items" ∧ m.2.WellFormed

theorem wellFormed_of_read_json {t : Tree} {depth : Nat} {v : Json} (ht : t.Sound)
    (h : Codec.json.read t depth = .ok v) : v.WellFormed := by
  simp only [Codec.json] at h
  split at h
  · next hv =>
    cases h
    exact Tree.wellFormed_of_json? ht hv
  · cases h

theorem wellFormed_of_read_items {t : Tree} {depth : Nat} {ds : List Document} (ht : t.Sound)
    (h : (Codec.list Document.codec).read t depth = .ok ds) : ∀ d ∈ ds, d.value.WellFormed := by
  cases ht with
  | @arr items each =>
    cases depth with
    | zero => cases h
    | succ depth =>
      have hrows : List.Forall₂ (fun t d => Document.codec.read t depth = .ok d) items ds :=
        mapM_eq_ok_iff.1 h
      intro d hd
      obtain ⟨t, ht, hread⟩ := exists_of_forall₂ hrows.flip hd
      obtain ⟨v, hv, rfl⟩ := map_eq_ok.1 hread
      exact wellFormed_of_read_json (each t ht) hv
  | _ => cases h

theorem Draft.meetText {depth : Nat} {member : Option String × Tree} (ht : member.2.Sound)
    {draft draft' : Option (List Document) × Entries Json} (hd : Draft draft)
    (h : meetText depth draft member = .ok draft') : Draft draft' := by
  unfold DocumentList.meetText at h
  split at h
  · cases h
  · split at h
    · cases h
    · obtain ⟨ds, hds, heq⟩ := bind_eq_ok.1 h
      cases heq
      exact ⟨wellFormed_of_read_items ht hds, hd.fields⟩
  · next key t hkey =>
    obtain ⟨v, hv, heq⟩ := bind_eq_ok.1 h
    cases heq
    refine ⟨hd.items, ?_⟩
    rw [List.forall_mem_append, List.forall_mem_singleton]
    exact ⟨hd.fields, hkey, wellFormed_of_read_json ht hv⟩

theorem of_decodeText {text : String} {l : DocumentList} (h : codec.decodeText text = .ok l) :
    l.clashes = false ∧ l.WellFormed := by
  have hread : codec.read (Tree.read text.toList).1 Tree.maxDepth = .ok l := by
    simp only [Codec.decodeText] at h
    split at h
    · next hl =>
      split at h
      · cases h
        exact hl
      · cases h
    · cases h
  have hsound : (Tree.read text.toList).1.Sound := Tree.value_sound _ _
  generalize (Tree.read text.toList).1 = tree at hread hsound
  cases hsound with
  | @obj members each =>
    obtain ⟨draft, hdraft, heq⟩ := bind_eq_ok.1 hread
    cases heq
    have hempty : Draft (none, []) := ⟨List.forall_mem_nil _, List.forall_mem_nil _⟩
    have hd : Draft draft := foldlM_invariant
      (fun m hm _ _ hb hstep => hb.meetText (each m hm) hstep) hempty hdraft
    exact ⟨clashes_ofList (fun m hm => (hd.fields m hm).1) _,
      fun m hm => (hd.fields m (Entries.mem_sorted hm)).2, hd.items⟩
  | _ => cases hread

theorem clashes_withField (l : DocumentList) (key : String) (value : Json) :
    (l.withField key value).clashes = (key == "items" || l.clashes) := by
  rw [clashes, withField, Dict.get?_insert]
  by_cases hkey : key = "items"
  · simp [hkey]
  · rw [if_neg (Ne.symm hkey), beq_false_of_ne hkey, Bool.false_or, clashes]

theorem clashes_apply (l : DocumentList) (s : Step) :
    (s.apply l).clashes = true ↔
      s.renews = false ∧ ((∃ v, s = .setField "items" v) ∨ l.clashes = true) := by
  cases s with
  | create items => simp [Step.apply, Step.renews]; rfl
  | setField key value => simp [Step.apply, Step.renews, clashes_withField]
  | decode v =>
    simp only [Step.apply, Step.renews]
    cases hv : codec.decode v with
    | ok l' => simp [Except.toOption, Except.isOk, Except.toBool, clashes_of_decode hv]
    | error e => simp [Except.toOption, Except.isOk, Except.toBool]
  | read text =>
    simp only [Step.apply, Step.renews]
    cases hv : codec.decodeText text with
    | ok l' => simp [Except.toOption, Except.isOk, Except.toBool, (of_decodeText hv).1]
    | error e => simp [Except.toOption, Except.isOk, Except.toBool]

theorem wellFormed_apply {l : DocumentList} {s : Step} (hl : l.WellFormed) (hs : s.WellFormed) :
    (s.apply l).WellFormed := by
  cases s with
  | create items => exact ⟨List.forall_mem_nil _, hs⟩
  | setField key value =>
    refine ⟨fun m hm => ?_, hl.2⟩
    rcases Entries.mem_put hm with rfl | hm
    · exact hs
    · exact hl.1 m hm
  | decode v =>
    simp only [Step.apply]
    cases hv : codec.decode v with
    | ok l' => exact wellFormed_of_decode hs hv
    | error e => exact hl
  | read text =>
    simp only [Step.apply]
    cases hv : codec.decodeText text with
    | ok l' => exact (of_decodeText hv).2
    | error e => exact hl

/-- A field of the name of the items was set, and nothing has renewed the collection since. -/
def SetsItems (steps : List Step) : Prop :=
  ∃ before v after, steps = before ++ .setField "items" v :: after ∧
    ∀ s ∈ after, s.renews = false

theorem setsItems_append_singleton (steps : List Step) (s : Step) :
    SetsItems (steps ++ [s]) ↔
      s.renews = false ∧ ((∃ v, s = .setField "items" v) ∨ SetsItems steps) := by
  constructor
  · rintro ⟨before, v, after, heq, hafter⟩
    -- the last step is the one that sets the field, or one of those after it
    rcases List.eq_nil_or_concat after with rfl | ⟨after, s', rfl⟩
    · obtain ⟨-, hs⟩ := List.append_inj' heq rfl
      cases hs
      exact ⟨rfl, .inl ⟨v, rfl⟩⟩
    · rw [List.concat_eq_append, ← List.cons_append, ← List.append_assoc] at heq
      obtain ⟨rfl, hs⟩ := List.append_inj' heq rfl
      cases hs
      rw [List.concat_eq_append, List.forall_mem_append, List.forall_mem_singleton] at hafter
      exact ⟨hafter.2, .inr ⟨before, v, after, rfl, hafter.1⟩⟩
  · rintro ⟨hs, ⟨v, rfl⟩ | ⟨before, v, after, rfl, hafter⟩⟩
    · exact ⟨steps, v, [], rfl, nofun⟩
    · refine ⟨before, v, after ++ [s], by simp, ?_⟩
      rw [List.forall_mem_append, List.forall_mem_singleton]
      exact ⟨hafter, hs⟩

/-- A run leaves such a field exactly where it set one. -/
theorem clashes_run_iff (steps : List Step) : (run steps).clashes = true ↔ SetsItems steps := by
  -- the last operation decides, so the run is taken from its end
  induction steps using List.reverseRecOn with
  | nil =>
    refine iff_of_false (by decide) ?_
    rintro ⟨before, v, after, heq, -⟩
    cases before <;> cases heq
  | append_singleton steps s ih =>
    rw [setsItems_append_singleton, ← ih, run, List.foldl_append]
    exact clashes_apply (run steps) s

theorem wellFormed_run {steps : List Step} (h : ∀ s ∈ steps, s.WellFormed) :
    (run steps).WellFormed := by
  -- over every start, since the run goes on from where each step leaves it
  suffices ∀ l : DocumentList, l.WellFormed → (steps.foldl Step.apply l).WellFormed from
    this _ ⟨List.forall_mem_nil _, List.forall_mem_nil _⟩
  induction steps with
  | nil => exact fun l hl => hl
  | cons s steps ih =>
    intro l hl
    exact ih (fun s hs => h s (List.mem_cons_of_mem _ hs)) _
      (wellFormed_apply hl (h s List.mem_cons_self))

/-- A collection comes back from its value, and from its text if that is plain, unless a field took
the name of the items: its value has lost that field, and its text is refused. -/
theorem run_roundTrip {steps : List Step} (h : ∀ s ∈ steps, s.WellFormed) :
    ((run steps).clashes = true ↔ SetsItems steps) ∧
      (¬ SetsItems steps → codec.decode (codec.encode (run steps)) = .ok (run steps)) ∧
      (SetsItems steps → ∃ l, codec.decode (codec.encode (run steps)) = .ok l ∧
        l.same (run steps) = false) ∧
      ((run steps).Plain →
        (¬ SetsItems steps → codec.decodeText (codec.text (run steps)) = .ok (run steps)) ∧
        (SetsItems steps → codec.decodeText (codec.text (run steps)) = .error .mismatch)) := by
  have hclashes := clashes_run_iff steps
  refine ⟨hclashes, ?_⟩
  rw [← hclashes, Bool.not_eq_true]
  refine ⟨fun hfree => ?_, fun hclash => ?_, fun hp => ⟨fun hfree => ?_, fun hclash => ?_⟩⟩
  · rw [decode_encode, apart_eq_self hfree]
  · refine ⟨_, decode_encode _, ?_⟩
    by_contra hsame
    have heq := clashes_eq_of_same (Bool.not_eq_false _ ▸ hsame)
    rw [clashes_apart, hclash] at heq
    cases heq
  · rw [decodeText_text (wellFormed_run h) hp, hfree]
    rfl
  · rw [decodeText_text (wellFormed_run h) hp, hclash]
    rfl

theorem run_roundTrip_again :
    let free : List Step :=
      [.setField "items" (.int 7), .create [⟨.obj []⟩], .setField "kind" (.str "PodList")]
    let steps := free ++ [.setField "items" (.arr [])]
    codec.decode (codec.encode (run free)) = .ok (run free) ∧
      codec.decodeText (codec.text (run free)) = .ok (run free) ∧
      codec.decodeText (codec.text (run steps)) = .error .mismatch := by
  intro free steps
  have hint : (Json.int 7).WellFormed := .int (by decide) (by decide)
  have hobj : (Json.obj []).WellFormed := .obj List.Pairwise.nil nofun
  have harr : (Json.arr []).WellFormed := .arr nofun
  have hfree : ∀ s ∈ free, s.WellFormed := by
    simp [free, Step.WellFormed, hint, hobj, Json.WellFormed.str]
  have hsteps : ∀ s ∈ steps, s.WellFormed := by
    simp [steps, free, Step.WellFormed, hint, hobj, harr, Json.WellFormed.str]
  obtain ⟨hclashes, hvalue, -, htext⟩ := run_roundTrip hfree
  obtain ⟨-, -, -, htext'⟩ := run_roundTrip hsteps
  have hnot : ¬ SetsItems free := fun h => absurd (hclashes.2 h) (by decide)
  have hsets : SetsItems steps := ⟨free, .arr [], [], rfl, nofun⟩
  have hitems : ∀ d ∈ [Document.mk (.obj [])], d.value.Plain (Tree.maxDepth - 2) :=
    List.forall_mem_singleton.2 (.obj nofun)
  have hplain : (run free).Plain := by
    have hfields : (run free).fields.entries = [("kind", .str "PodList")] := by decide
    exact ⟨hfields ▸ List.forall_mem_singleton.2 (.str _), hitems⟩
  have hplain' : (run steps).Plain := by
    have hfields : (run steps).fields.entries = [("items", .arr []), ("kind", .str "PodList")] := by
      decide
    exact ⟨hfields ▸ List.forall_mem_cons.2 ⟨.arr nofun, List.forall_mem_singleton.2 (.str _)⟩,
      hitems⟩
  exact ⟨hvalue hnot, (htext hplain).1 hnot, (htext' hplain').2 hsets⟩

theorem items_field_lost :
    let l := run [.create [], .setField "items" (.arr [.int 7])]
    (∃ l', codec.decode (codec.encode l) = .ok l' ∧ l'.same l = false) ∧
      codec.decodeText (codec.text l) = .error .mismatch :=
  ⟨⟨_, rfl, by decide +kernel⟩, by decide +kernel⟩

end ResourceTable.DocumentList
