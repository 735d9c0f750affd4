import ResourceTable.Proofs.Object.DocumentList
import ResourceTable.Proofs.Wire.RecordText

namespace ResourceTable

open Wire Traversal ResourceTable.Tree Codec

theorem Document.codec_coherent : Document.codec.Coherent := json_coherent.iso _ _

namespace DocumentList

variable {depth : Nat} {draft draft' : Option (List Document) × Entries Json}

theorem meetText_items_eq_ok_iff {t : Tree} {v : Json} (ht : t.Holds depth v)
    (hfree : draft.1 = none) :
    meetText depth draft (some "items", t) = .ok draft' ↔
      ∃ ds, (Codec.list Document.codec).decode v = .ok ds ∧ (some ds, draft.2) = draft' := by
  rw [meetText, hfree, Option.isSome_none, if_neg Bool.false_ne_true]
  simp only [bind_eq_ok, pure_eq_ok, Document.codec_coherent.list ht]

theorem meetText_other_eq_ok_iff {key : String} {t : Tree} {v : Json} (ht : t.Holds depth v)
    (hkey : key ≠ "items") :
    meetText depth draft (some key, t) = .ok draft' ↔
      (draft.1, draft.2 ++ [(key, v)]) = draft' := by
  rw [meetText]
  · simp only [Codec.json, ht.value]
    exact pure_eq_ok
  · exact fun h => hkey h

theorem foldlM_meetText_eq_ok_iff {members : List (Option String × Tree)} {es : Entries Json}
    (each : List.Forall₂ (MemberHolds depth) members es) (hnodup : (es.map Prod.fst).Nodup)
    (draft draft' : Option (List Document) × Entries Json)
    (hfree : draft.1 = none ∨ "items" ∉ es.map Prod.fst) :
    members.foldlM (meetText depth) draft = .ok draft' ↔
      ((es.lookup "items").elim (.ok draft.1) fun v =>
          ((Codec.list Document.codec).decode v).map some) = .ok draft'.1 ∧
        draft.2 ++ es.filter (·.1 != "items") = draft'.2 := by
  induction each generalizing draft with
  | nil =>
    simp only [List.foldlM_nil, pure_eq_ok, List.lookup_nil, Option.elim_none, Except.ok.injEq,
      List.filter_nil, List.append_nil, Prod.ext_iff]
  | @cons m e members es hm each ih =>
    obtain ⟨_, t⟩ := m
    obtain ⟨key, v⟩ := e
    obtain ⟨rfl, ht⟩ := hm
    obtain ⟨hfresh, hrest⟩ := List.nodup_cons.1 hnodup
    rw [List.foldlM_cons, bind_eq_ok, Entries.lookup_cons]
    by_cases hkey : key = "items"
    · subst hkey
      -- the items have not been met before and will not be met again
      have hnone : draft.1 = none := hfree.resolve_right fun h => h List.mem_cons_self
      rw [if_pos rfl, List.filter_cons_of_neg (by simp)]
      simp only [meetText_items_eq_ok_iff ht hnone, Option.elim_some, map_eq_ok]
      constructor
      · rintro ⟨_, ⟨ds, hds, rfl⟩, h⟩
        obtain ⟨hitems, hfields⟩ := (ih hrest _ (.inr hfresh)).1 h
        rw [Entries.lookup_eq_none_iff.2 hfresh] at hitems
        exact ⟨⟨ds, hds, Except.ok.inj hitems⟩, hfields⟩
      · rintro ⟨⟨ds, hds, hitems⟩, hfields⟩
        refine ⟨_, ⟨ds, hds, rfl⟩, (ih hrest _ (.inr hfresh)).2 ⟨?_, hfields⟩⟩
        rw [Entries.lookup_eq_none_iff.2 hfresh]
        exact congrArg Except.ok hitems
    · have hfree' : draft.1 = none ∨ "items" ∉ es.map Prod.fst :=
        hfree.imp_right fun h hmem => h (List.mem_cons_of_mem _ hmem)
      rw [if_neg (Ne.symm hkey), List.filter_cons_of_pos (by simp [hkey])]
      simp only [meetText_other_eq_ok_iff ht hkey, exists_eq_left']
      rw [ih hrest (draft.1, draft.2 ++ [(key, v)]) hfree', List.append_assoc,
        List.singleton_append]

/-- The fields of a text in their order make the same collection as those of its value. -/
theorem ofList_filter_sorted {es : Entries Json} (hnodup : (es.map Prod.fst).Nodup) :
    Dict.ofList (es.sorted.filter (·.1 != "items")) = .ofList (es.filter (·.1 != "items")) := by
  have hfilter : ((es.filter (·.1 != "items")).map Prod.fst).Nodup :=
    (List.filter_sublist.map Prod.fst).nodup hnodup
  simp only [Dict.ofList,
    Entries.sorted_eq_of_perm ((Entries.sorted_perm hnodup).filter _) hfilter]

theorem codec_coherent : codec.Coherent := by
  intro t depth v ht l
  cases ht.shape with
  | @obj depth members es distinct each =>
    have hrun := fun draft => foldlM_meetText_eq_ok_iff each distinct (none, []) draft (.inl rfl)
    rw [decode_obj_eq_ok_iff, Entries.lookup_sorted distinct, ofList_filter_sorted distinct]
    simp only [codec, bind_eq_ok, pure_eq_ok, Prod.exists, hrun, List.nil_append]
    cases es.lookup "items" with
    | none => simp
    | some v => simp [map_eq_ok]
  | _ => constructor <;> rintro ⟨⟩

end DocumentList

end ResourceTable
