import ResourceTable.Object.DocumentList
import ResourceTable.Proofs.Wire.Faithful
import ResourceTable.Proofs.Wire.Lawful

namespace ResourceTable

open Codec Traversal Wire

theorem Entries.filter_put {α : Type} (es : Entries α) (key : String) (value : α) :
    (es.put key value).filter (·.1 != key) = es.filter (·.1 != key) := by
  induction es with
  | nil => simp [put]
  | cons e es ih =>
    obtain ⟨k, v⟩ := e
    simp only [put]
    split
    · simp
    · split
      · next heq => simp [heq]
      · rw [List.filter_cons, List.filter_cons, ih]

theorem Document.codec_lawful : Document.codec.Lawful := fun _ => rfl

theorem Document.codec_faithful {depth : Nat} {d : Document} (h : d.value.Fits depth) :
    Document.codec.Faithful depth d :=
  iso_faithful (json_faithful h)

theorem Document.decode_items (items : List Json) :
    (Codec.list Document.codec).decode (.arr items) = .ok (items.map Document.mk) :=
  mapM_eq_ok_map fun _ _ => rfl

namespace DocumentList

/-- Does a field have the name of the items? -/
def clashes (l : DocumentList) : Bool := (l.fields.get? "items").isSome

theorem clashes_eq_false_iff {l : DocumentList} :
    l.clashes = false ↔ "items" ∉ l.fields.entries.map Prod.fst := by
  rw [clashes, Option.isSome_eq_false_iff, Option.isNone_iff_eq_none, Dict.get?,
    Entries.lookup_eq_none_iff]

/-- The collection without a field of that name. -/
def apart (l : DocumentList) : DocumentList :=
  ⟨.ofList (l.fields.entries.filter (·.1 != "items")), l.items⟩

theorem decode_obj_eq_ok_iff {members : Entries Json} {l : DocumentList} :
    codec.decode (.obj members) = .ok l ↔
      ∃ items, (members.lookup "items").elim (.ok []) (Codec.list Document.codec).decode =
        .ok items ∧ ⟨.ofList (members.filter (·.1 != "items")), items⟩ = l := by
  simp only [codec]
  cases members.lookup "items" with
  | none => simp only [bind_eq_ok, Option.elim_none, pure, Except.pure, Except.ok.injEq]
  | some v => simp only [bind_eq_ok, Option.elim_some, pure, Except.pure, Except.ok.injEq]

theorem decode_encode (l : DocumentList) : codec.decode (codec.encode l) = .ok l.apart := by
  simp only [codec, Entries.lookup_put, if_true, Entries.filter_put,
    Document.codec_lawful.list l.items]
  rfl

theorem clashes_ofList {es : Entries Json} (h : ∀ m ∈ es, m.1 ≠ "items") (ds : List Document) :
    (DocumentList.mk (.ofList es) ds).clashes = false := by
  rw [clashes_eq_false_iff]
  intro hmem
  obtain ⟨m, hm, hkey⟩ := List.mem_map.1 hmem
  exact h m (Entries.mem_sorted hm) hkey

theorem ne_of_mem_filter {es : Entries Json} {m : String × Json}
    (hm : m ∈ es.filter (·.1 != "items")) : m.1 ≠ "items" :=
  bne_iff_ne.1 (List.mem_filter.1 hm).2

theorem clashes_apart (l : DocumentList) : l.apart.clashes = false :=
  clashes_ofList (fun _ hm => ne_of_mem_filter hm) l.items

theorem apart_eq_self {l : DocumentList} (h : l.clashes = false) : l.apart = l := by
  have hnone : l.fields.entries.lookup "items" = none :=
    Entries.lookup_eq_none_iff.2 (clashes_eq_false_iff.1 h)
  rw [apart, Entries.filter_bne_of_lookup hnone, Dict.ofList_entries]

theorem keys_eq_of_sameMembers {a b : Entries Json} (h : Json.sameMembers a b = true) :
    a.map Prod.fst = b.map Prod.fst := by
  induction a generalizing b with
  | nil =>
    cases b with
    | nil => rfl
    | cons m b => cases h
  | cons m a ih =>
    cases b with
    | nil => cases h
    | cons n b =>
      simp only [Json.sameMembers, Bool.and_eq_true, beq_iff_eq] at h
      rw [List.map_cons, List.map_cons, h.1.1, ih h.2]

theorem clashes_eq_of_same {a b : DocumentList} (h : a.same b = true) : a.clashes = b.clashes := by
  have hkeys := keys_eq_of_sameMembers (Bool.and_eq_true_iff.1 h).1
  have hiff : a.clashes = false ↔ b.clashes = false := by
    rw [clashes_eq_false_iff, clashes_eq_false_iff, hkeys]
  rwa [← Bool.not_eq_true, ← Bool.not_eq_true, not_iff_not, ← Bool.eq_iff_iff] at hiff

def WellFormed (l : DocumentList) : Prop :=
  (∀ m ∈ l.fields.entries, m.2.WellFormed) ∧ ∀ d ∈ l.items, d.value.WellFormed

def Plain (l : DocumentList) : Prop :=
  (∀ m ∈ l.fields.entries, m.2.Plain (Tree.maxDepth - 1)) ∧
    ∀ d ∈ l.items, d.value.Plain (Tree.maxDepth - 2)

/-- The items come last, so they win over a field of their name in the text as in the value. -/
theorem codec_faithful {l : DocumentList} (hw : l.WellFormed) (hp : l.Plain) :
    codec.Faithful Tree.maxDepth l := by
  have hitems : (Codec.list Document.codec).Faithful (Tree.maxDepth - 1) l.items :=
    list_faithful fun d hd => Document.codec_faithful ⟨hw.2 d hd, hp.2 d hd⟩
  have hfields : List.Forall₂ (Tree.MemberSpells (Tree.maxDepth - 1))
      (Json.toTreeMembers l.fields.entries) l.fields.entries := by
    rw [Json.toTreeMembers_eq_map, List.forall₂_map_left_iff, List.forall₂_same]
    exact fun m hm => ⟨rfl, Json.spells_toTree (hw.1 m hm) (hp.1 m hm)⟩
  have hvalue : codec.encode l = .object
      (l.fields.entries ++ [("items", (Codec.list Document.codec).encode l.items)]) := by
    rw [Json.object, Entries.sorted_append_singleton,
      Entries.sorted_of_ascending l.fields.ascending]
    rfl
  rw [Json.toTreeMembers_eq_map] at hfields
  rw [Codec.Faithful, hvalue]
  exact Tree.spells_obj (List.rel_append hfields (.cons ⟨rfl, hitems⟩ .nil))

/-- Documents in a text. -/
theorem read_write_items {ds : List Document} {depth : Nat} (hw : ∀ d ∈ ds, d.value.WellFormed)
    (hp : ∀ d ∈ ds, d.value.Plain depth) :
    (Codec.list Document.codec).read ((Codec.list Document.codec).write ds) (depth + 1) =
      .ok ds := by
  simp only [Codec.list, List.mapM_map]
  rw [mapM_eq_ok_map (g := id), List.map_id]
  intro d hd
  simp only [Document.codec, Codec.iso, Codec.json, Function.comp_apply,
    (Json.spells_toTree (hw d hd) (hp d hd)).value]
  rfl

theorem meetText_field {depth : Nat} {key : String} {v : Json} (hkey : key ≠ "items")
    (hw : v.WellFormed) (hp : v.Plain depth) (draft : Option (List Document) × Entries Json) :
    meetText depth draft (some key, v.toTree) = .ok (draft.1, draft.2 ++ [(key, v)]) := by
  rw [meetText]
  · simp only [Codec.json, (Json.spells_toTree hw hp).value]
    rfl
  · exact fun h => hkey h

theorem foldlM_meetText_fields {depth : Nat} {es : Entries Json}
    (hkeys : "items" ∉ es.map Prod.fst) (hw : ∀ m ∈ es, m.2.WellFormed)
    (hp : ∀ m ∈ es, m.2.Plain depth) (draft : Option (List Document) × Entries Json) :
    (Json.toTreeMembers es).foldlM (meetText depth) draft = .ok (draft.1, draft.2 ++ es) := by
  induction es generalizing draft with
  | nil => simp [Json.toTreeMembers, pure, Except.pure]
  | cons m es ih =>
    obtain ⟨hkey, hrest⟩ := not_or.1 (List.mem_cons.not.1 hkeys)
    rw [Json.toTreeMembers, List.foldlM_cons,
      meetText_field (Ne.symm hkey) (hw m List.mem_cons_self) (hp m List.mem_cons_self)]
    have htail := ih hrest (fun n hn => hw n (List.mem_cons_of_mem _ hn))
      (fun n hn => hp n (List.mem_cons_of_mem _ hn)) (draft.1, draft.2 ++ [m])
    rw [List.append_assoc] at htail
    exact htail

/-- A field of the name of the items is taken for them, or is refused. -/
theorem meetText_clash {depth : Nat} {v : Json} (hw : v.WellFormed) (hp : v.Plain (depth + 1))
    (fs : Entries Json) :
    meetText (depth + 1) (none, fs) (some "items", v.toTree) = .error .mismatch ∨
      ∃ ds, meetText (depth + 1) (none, fs) (some "items", v.toTree) = .ok (some ds, fs) := by
  cases hp with
  | @arr _ items plain =>
    right
    cases hw with
    | arr each =>
      have hwrite : (Json.arr items).toTree =
          (Codec.list Document.codec).write (items.map Document.mk) := by
        simp only [Json.toTree, Json.toTrees_eq_map, Codec.list, List.map_map]
        rfl
      have hread := read_write_items (List.forall_mem_map.2 each) (List.forall_mem_map.2 plain)
      refine ⟨items.map Document.mk, ?_⟩
      rw [meetText, hwrite, hread]
      rfl
  | _ => exact .inl rfl

theorem foldlM_meetText_write {l : DocumentList} {depth : Nat} (hw : l.WellFormed)
    (hfields : ∀ m ∈ l.fields.entries, m.2.Plain (depth + 1))
    (hitems : ∀ d ∈ l.items, d.value.Plain depth) :
    (Json.toTreeMembers l.fields.entries ++
        [(some "items", (Codec.list Document.codec).write l.items)]).foldlM
      (meetText (depth + 1)) (none, []) =
      if l.clashes then .error .mismatch else .ok (some l.items, l.fields.entries) := by
  split
  · next hclash =>
    have hmem : "items" ∈ l.fields.entries.map Prod.fst := by
      by_contra h
      rw [clashes_eq_false_iff.2 h] at hclash
      cases hclash
    obtain ⟨⟨key, v⟩, hm, rfl⟩ := List.mem_map.1 hmem
    have hmet := meetText_clash (hw.1 _ hm) (hfields _ hm)
    obtain ⟨before, after, hentries⟩ := List.append_of_mem hm
    have hnodup := l.fields.ascending.nodup_keys
    have hwell := hw.1
    rw [hentries] at hnodup hwell hfields ⊢
    rw [List.map_append, List.map_cons] at hnodup
    obtain ⟨-, hnodup, hapart⟩ := List.nodup_append.1 hnodup
    have hbefore : "items" ∉ before.map Prod.fst :=
      fun h => hapart _ h _ List.mem_cons_self rfl
    have hafter := (List.nodup_cons.1 hnodup).1
    rw [List.forall_mem_append, List.forall_mem_cons] at hwell hfields
    rw [Json.toTreeMembers_append, Json.toTreeMembers, List.append_assoc, List.foldlM_append,
      foldlM_meetText_fields hbefore hwell.1 hfields.1]
    -- the field is met first and taken for the items, if it is not refused; the items come second
    change (meetText (depth + 1) (none, before) (some "items", v.toTree) >>= fun draft =>
      (Json.toTreeMembers after ++
        [(some "items", (Codec.list Document.codec).write l.items)]).foldlM _ draft) = _
    rcases hmet before with hrefused | ⟨ds, htaken⟩
    · rw [hrefused]
      rfl
    · rw [htaken]
      change (Json.toTreeMembers after ++ _).foldlM _ (some ds, before) = _
      rw [List.foldlM_append, foldlM_meetText_fields hafter hwell.2.2 hfields.2.2]
      rfl
  · next hclash =>
    have hkeys := clashes_eq_false_iff.1 (eq_false_of_ne_true hclash)
    rw [List.foldlM_append, foldlM_meetText_fields hkeys hw.1 hfields]
    change (meetText (depth + 1) (none, l.fields.entries) _ >>= pure) = _
    rw [meetText, read_write_items hw.2 hitems]
    rfl

theorem decodeText_text {l : DocumentList} (hw : l.WellFormed) (hp : l.Plain) :
    codec.decodeText (codec.text l) = if l.clashes then .error .mismatch else .ok l := by
  have hread : codec.read (codec.write l) Tree.maxDepth =
      if l.clashes then .error .mismatch else .ok l := by
    have hfold := foldlM_meetText_write hw hp.1 hp.2
    rw [Json.toTreeMembers_eq_map] at hfold
    simp only [codec, Tree.maxDepth] at hfold ⊢
    rw [hfold]
    split
    · rfl
    · show Except.ok (DocumentList.mk (.ofList l.fields.entries) l.items) = .ok l
      rw [Dict.ofList_entries]
  rw [Codec.decodeText, Codec.text, Tree.text, String.toList_ofList,
    Tree.read_print (codec_faithful hw hp).exact]
  simp only [hread]
  cases l.clashes <;> rfl

end DocumentList

end ResourceTable
