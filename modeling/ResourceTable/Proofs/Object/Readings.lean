import ResourceTable.Object.ObjectList
import ResourceTable.Proofs.Object.Decoded
import ResourceTable.Proofs.Object.DocumentList
import ResourceTable.Proofs.Object.DocumentTable

namespace ResourceTable

open Traversal

theorem DocumentList.decode_collection {members : Entries Json} {items : List Json}
    (hi : members.lookup "items" = some (.arr items)) :
    codec.decode (.obj members) =
      .ok ⟨.ofList (members.filter (·.1 != "items")), items.map Document.mk⟩ := by
  rw [decode_obj_eq_ok_iff, hi]
  exact ⟨_, Document.decode_items items, rfl⟩

/-- The members beside the items show the same metadata as the whole document. -/
theorem DocumentList.listInfo_ofList {members : Entries Json} (hm : members.Ascending)
    (ds : List Document) :
    (DocumentList.mk (.ofList (members.filter (·.1 != "items"))) ds).listInfo =
      Dynamic.listInfo (members.lookup "metadata") := by
  have hfilter : (Dict.ofList (members.filter (·.1 != "items"))).get? "metadata" =
      members.lookup "metadata" := by
    show (Entries.sorted _).lookup "metadata" = _
    rw [Entries.sorted_of_ascending (List.Pairwise.filter _ hm),
      Entries.lookup_filter_bne members (by decide)]
  rw [listInfo, hfilter]

theorem ObjectList.of_decode_obj {α : Type} {c : Codec α} {members : Entries Json}
    {l : ObjectList α} (hv : (Json.obj members).WellFormed)
    (hmetadata : ∀ m, members.lookup "metadata" = some m → m.isObject = true)
    (h : (codec c).decode (.obj members) = .ok l) :
    (Field.optional "items" (Codec.list c) []).Takes (members.lookup "items") l.items ∧
      l.metadata.info = Dynamic.listInfo (members.lookup "metadata") := by
  cases hv with
  | obj ascending each =>
    rw [codec, Fields.decode_obj_eq_ok_iff (by simp [Fields.keys, Field.optional])
      ascending.nodup_keys] at h
    obtain ⟨⟨metadata, items, ⟨⟩⟩, ⟨htaken, hitems, -⟩, rfl⟩ := h
    change (Field.optional "metadata" ListMeta.codec .empty).Takes (members.lookup "metadata")
      metadata at htaken
    refine ⟨hitems, ?_⟩
    cases hm : members.lookup "metadata" with
    | none =>
      rw [hm] at htaken
      rw [← Option.some.inj htaken]
      rfl
    | some m =>
      rw [hm] at htaken
      have hwell := each _ (Entries.mem_of_lookup hm)
      exact (Dynamic.listInfo_of_decode hwell (hmetadata m hm) htaken).symm

theorem ObjectList.of_decode_documents {members : Entries Json} {items : List Json}
    {l : ObjectList Document} (hv : (Json.obj members).WellFormed)
    (hi : members.lookup "items" = some (.arr items))
    (hmetadata : ∀ m, members.lookup "metadata" = some m → m.isObject = true)
    (h : (codec Document.codec).decode (.obj members) = .ok l) :
    l.items = items.map Document.mk ∧
      l.metadata.info = Dynamic.listInfo (members.lookup "metadata") := by
  obtain ⟨hitems, hinfo⟩ := of_decode_obj hv hmetadata h
  rw [hi] at hitems
  exact ⟨Except.ok.inj (hitems.symm.trans (Document.decode_items items)), hinfo⟩

/-- Both conversions fail with one error, or both tables encode, as one JSON value. -/
def SameOutcome (x y : Except TableError (Table Embedded)) : Prop :=
  (∃ e, x = .error e ∧ y = .error e) ∨
    ∃ t t' w, x = .ok t ∧ y = .ok t' ∧ t.encode = .ok w ∧ t'.encode = .ok w

theorem SameOutcome.of_ok {x y : Except TableError (Table Embedded)} {t : Table Embedded}
    (h : SameOutcome x y) (hx : x = .ok t) :
    ∃ t' w, y = .ok t' ∧ t.encode = .ok w ∧ t'.encode = .ok w := by
  subst hx
  obtain ⟨e, ⟨⟩, -⟩ | ⟨_, t', w, ⟨⟩, hy, hw, hw'⟩ := h
  exact ⟨t', w, hy, hw, hw'⟩

theorem SameOutcome.of_error {x y : Except TableError (Table Embedded)} {e : TableError}
    (h : SameOutcome x y) (hx : x = .error e) : y = .error e := by
  subst hx
  obtain ⟨_, ⟨⟩, hy⟩ | ⟨_, _, _, ⟨⟩, -⟩ := h
  exact hy

namespace Convertor

variable {ι : Type} [DecidableEq ι] [Hashable ι] {β : ι → Type}

theorem sameOutcome_document {v : Json} {items : List Json} {o : Object}
    (hi : v.member? "items" = some (.arr items))
    (hitems : o.items? = some (items.map Json.toObject))
    (hlist : o.listInfo? = some (Dynamic.listInfo (v.member? "metadata"))) (conv : Convertor)
    (ctx : Context β) (options : Option TableOptions) :
    SameOutcome (conv.convert ctx (Document.toObject ⟨v⟩) options)
      (conv.convert ctx o options) := by
  have hdocument := Json.toObject_collection hi
  have hsame : conv.convert ctx o options = conv.convert ctx (Document.toObject ⟨v⟩) options :=
    convert_eq_of_collection hitems (by rw [Document.toObject, hdocument]) hlist
      (by rw [Document.toObject, hdocument])
  rw [hsame]
  cases hconvert : conv.convert ctx (Document.toObject ⟨v⟩) options with
  | error e => exact .inl ⟨e, rfl, rfl⟩
  | ok t =>
    have hencode := encode_of_convert_document hconvert
    exact .inr ⟨t, t, _, rfl, rfl, hencode, hencode⟩

/-- A document with an array of items is converted like the collection of documents that it is
decoded as, and like one with decoded metadata where this is an object or missing. -/
theorem readings_agree {v : Json} {items : List Json} (hv : v.WellFormed)
    (hi : v.member? "items" = some (.arr items)) :
    ∃ l, DocumentList.codec.decode v = .ok l ∧
      (∀ (conv : Convertor) (ctx : Context β) (options : Option TableOptions),
        SameOutcome (conv.convert ctx (Document.toObject ⟨v⟩) options)
          (conv.convert ctx l.toObject options)) ∧
      ∀ l', (ObjectList.codec Document.codec).decode v = .ok l' →
        (∀ m, v.member? "metadata" = some m → m.isObject = true) →
        ∀ (conv : Convertor) (ctx : Context β) (options : Option TableOptions),
          SameOutcome (conv.convert ctx (Document.toObject ⟨v⟩) options)
            (conv.convert ctx (l'.toObject Document.codec Document.toObject) options) := by
  have hobjects : (items.map Document.mk).map Document.toObject = items.map Json.toObject := by
    rw [List.map_map]
    rfl
  cases v with
  | obj members =>
    refine ⟨_, DocumentList.decode_collection hi, fun conv ctx options => ?_,
      fun l' hl' hmetadata conv ctx options => ?_⟩
    · cases hv with
      | obj ascending each =>
        refine sameOutcome_document hi ?_ ?_ conv ctx options
        · rw [DocumentList.toObject, hobjects]
        · rw [DocumentList.toObject, DocumentList.listInfo_ofList ascending]
          rfl
    · obtain ⟨hitems, hinfo⟩ := ObjectList.of_decode_documents hv hi hmetadata hl'
      refine sameOutcome_document hi ?_ ?_ conv ctx options
      · rw [ObjectList.toObject, hitems, hobjects]
      · rw [ObjectList.toObject, hinfo]
        rfl
  | _ => cases hi

/-- The metadata has a count that is null; the items are an object, or an object and a number.  The
conversions of the three readings all yield one JSON, or all fail. -/
theorem readings_agree_pods :
    let pod : Json := .obj [("metadata", .obj [("name", .str "a")])]
    let metadata : Json := .obj [("remainingItemCount", .null), ("resourceVersion", .str "7")]
    let v (items : List Json) : Json :=
      .obj [("items", .arr items), ("kind", .str "PodList"), ("metadata", metadata)]
    let l (items : List Json) : ObjectList Document :=
      ⟨⟨"", "7", "", none⟩, items.map Document.mk⟩
    let conv : Convertor := ⟨⟨"", "pods"⟩⟩
    let ctx : Context fun _ : Unit => String := .empty
    let typed (items : List Json) : Object := (l items).toObject Document.codec Document.toObject
    (v [pod]).WellFormed ∧ (ObjectList.codec Document.codec).decode (v [pod]) = .ok (l [pod]) ∧
      (∃ l' t t' t'' w, DocumentList.codec.decode (v [pod]) = .ok l' ∧
        conv.convert ctx (Document.toObject ⟨v [pod]⟩) none = .ok t ∧
        conv.convert ctx l'.toObject none = .ok t' ∧
        conv.convert ctx (typed [pod]) none = .ok t'' ∧
        t.encode = .ok w ∧ t'.encode = .ok w ∧ t''.encode = .ok w) ∧
      (v [pod, .int 7]).WellFormed ∧
      (ObjectList.codec Document.codec).decode (v [pod, .int 7]) = .ok (l [pod, .int 7]) ∧
      ∃ l' e, DocumentList.codec.decode (v [pod, .int 7]) = .ok l' ∧
        conv.convert ctx (Document.toObject ⟨v [pod, .int 7]⟩) none = .error e ∧
        conv.convert ctx l'.toObject none = .error e ∧
        conv.convert ctx (typed [pod, .int 7]) none = .error e := by
  intro pod metadata v l conv ctx typed
  have hname : (Json.obj [("name", .str "a")]).WellFormed :=
    .obj (List.pairwise_singleton _ _) (List.forall_mem_singleton.2 (.str "a"))
  have hpod : pod.WellFormed :=
    .obj (List.pairwise_singleton _ _) (List.forall_mem_singleton.2 hname)
  have hnumber : (Json.int 7).WellFormed := .int (by decide) (by decide)
  have hmetadata : metadata.WellFormed :=
    .obj (Entries.ascending_of_keys ["remainingItemCount", "resourceVersion"] rfl (by decide))
      (by simp [Json.WellFormed.null, Json.WellFormed.str])
  have hv : ∀ items : List Json, (∀ x ∈ items, x.WellFormed) → (v items).WellFormed := by
    intro items hitems
    exact .obj (Entries.ascending_of_keys ["items", "kind", "metadata"] rfl (by decide))
      (by simp [Json.WellFormed.arr hitems, hmetadata, Json.WellFormed.str])
  have hone := hv [pod] (by simp [hpod])
  have htwo := hv [pod, .int 7] (by simp [hpod, hnumber])
  have hdecode : (ObjectList.codec Document.codec).decode (v [pod]) = .ok (l [pod]) := by
    decide +kernel
  have hdecode' : (ObjectList.codec Document.codec).decode (v [pod, .int 7]) =
      .ok (l [pod, .int 7]) := by decide +kernel
  have hobject : ∀ m, some metadata = some m → m.isObject = true := by
    rintro m ⟨⟩
    rfl
  have hmember : ∀ items : List Json, (v items).member? "items" = some (.arr items) := fun _ => rfl
  obtain ⟨l₁, hl₁, hlist, htyped⟩ :=
    readings_agree (β := fun _ : Unit => String) hone (hmember [pod])
  obtain ⟨l₂, hl₂, hlist', htyped'⟩ :=
    readings_agree (β := fun _ : Unit => String) htwo (hmember [pod, .int 7])
  obtain ⟨t, ht⟩ : ∃ t, conv.convert ctx (Document.toObject ⟨v [pod]⟩) none = .ok t := ⟨_, rfl⟩
  obtain ⟨e, he⟩ :
      ∃ e, conv.convert ctx (Document.toObject ⟨v [pod, .int 7]⟩) none = .error e := ⟨_, rfl⟩
  refine ⟨hone, hdecode, ?_, htwo, hdecode', ?_⟩
  · obtain ⟨t', w, ht', hw, hw'⟩ := (hlist conv ctx none).of_ok ht
    obtain ⟨t'', w', ht'', hsame, hw''⟩ := (htyped _ hdecode hobject conv ctx none).of_ok ht
    obtain rfl : w = w' := Except.ok.inj (hw.symm.trans hsame)
    exact ⟨l₁, t, t', t'', w, hl₁, ht, ht', ht'', hw, hw', hw''⟩
  · exact ⟨l₂, e, hl₂, he, (hlist' conv ctx none).of_error he,
      (htyped' _ hdecode' hobject conv ctx none).of_error he⟩

end Convertor

end ResourceTable
