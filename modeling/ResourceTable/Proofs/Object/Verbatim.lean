import ResourceTable.Proofs.Object.Readings

namespace ResourceTable

namespace Entries

variable {α : Type} {es : Entries α} {key : String} {value : α}

theorem put_filter_bne (h : es.Ascending) (hv : es.lookup key = some value) :
    put key value (List.filter (·.1 != key) es) = es := by
  induction es with
  | nil => cases hv
  | cons e es ih =>
    obtain ⟨k, v⟩ := e
    obtain ⟨hlt, hrest⟩ := List.pairwise_cons.1 h
    rw [lookup_cons] at hv
    by_cases hk : key = k
    · rw [if_pos hk, Option.some.injEq] at hv
      subst hk hv
      -- all other keys are greater, so the entry goes in front of them
      have hkeep : List.filter (·.1 != key) es = es :=
        filter_bne_of_ne fun e he heq => String.lt_irrefl _ (heq ▸ hlt e he)
      rw [List.filter_cons_of_neg (by simp), hkeep]
      cases es with
      | nil => rfl
      | cons e es => rw [put, if_pos (hlt e List.mem_cons_self)]
    · rw [if_neg hk] at hv
      have hlast : k < key := hlt _ (mem_of_lookup hv)
      rw [List.filter_cons_of_pos (by simp [Ne.symm hk]), put, if_neg (String.lt_asymm hlast),
        if_neg hk, ih hrest hv]

end Entries

namespace DocumentList

theorem decode_items_eq_ok_iff {v : Json} {ds : List Document} :
    (Codec.list Document.codec).decode v = .ok ds ↔ v = .arr (ds.map Document.value) := by
  cases v with
  | arr items =>
    rw [Document.decode_items, Except.ok.injEq, Json.arr.injEq]
    constructor
    · rintro rfl
      rw [List.map_map]
      exact (List.map_id items).symm
    · rintro rfl
      rw [List.map_map]
      exact List.map_id ds
  | _ => simp [Codec.list, Codec.wrongType]

variable {members : Entries Json} {l : DocumentList}

theorem decode_obj_cases (h : codec.decode (.obj members) = .ok l) :
    l.fields = .ofList (members.filter (·.1 != "items")) ∧
      (members.lookup "items" = none ∧ l.items = [] ∨
        members.lookup "items" = some (.arr (l.items.map Document.value))) := by
  obtain ⟨ds, hds, rfl⟩ := decode_obj_eq_ok_iff.1 h
  refine ⟨rfl, ?_⟩
  cases hi : members.lookup "items" with
  | none =>
    rw [hi] at hds
    exact .inl ⟨rfl, (Except.ok.inj hds).symm⟩
  | some w =>
    rw [hi] at hds
    exact .inr (congrArg some (decode_items_eq_ok_iff.1 hds))

theorem decode_isOk_iff {v : Json} :
    (∃ l, codec.decode v = .ok l) ↔
      v.isObject = true ∧ ∀ w, v.member? "items" = some w → ∃ items, w = .arr items := by
  cases v with
  | obj members =>
    constructor
    · rintro ⟨l, hl⟩
      refine ⟨rfl, fun w hw => ?_⟩
      rcases (decode_obj_cases hl).2 with ⟨hnone, -⟩ | hitems
      · cases hnone.symm.trans hw
      · exact ⟨_, Option.some.inj (hw.symm.trans hitems)⟩
    · rintro ⟨-, harr⟩
      cases hi : members.lookup "items" with
      | none => exact ⟨_, decode_obj_eq_ok_iff.2 ⟨[], by rw [hi]; rfl, rfl⟩⟩
      | some w =>
        obtain ⟨items, rfl⟩ := harr w hi
        exact ⟨_, decode_collection hi⟩
  | _ =>
    refine iff_of_false ?_ fun h => absurd h.1 Bool.false_ne_true
    rintro ⟨l, ⟨⟩⟩

/-- A value decodes exactly if it is an object whose items are missing or an array.  Every member is
kept, and the JSON is the document again, with an empty array where it has no items. -/
theorem decoded_verbatim {v : Json} (hv : v.WellFormed) :
    ((∃ l, codec.decode v = .ok l) ↔
      v.isObject = true ∧ ∀ w, v.member? "items" = some w → ∃ items, w = .arr items) ∧
    ∀ l, codec.decode v = .ok l → ∃ members : Entries Json, v = .obj members ∧
      l.fields.entries = members.filter (·.1 != "items") ∧
      (v.member? "items" = none ∧ l.items = [] ∧
          codec.encode l = .object (members ++ [("items", .arr [])]) ∨
        v.member? "items" = some (.arr (l.items.map Document.value)) ∧ codec.encode l = v) ∧
      l.listInfo.resourceVersion = v.metadataText "resourceVersion" ∧
      l.listInfo.selfLink = v.metadataText "selfLink" ∧
      l.listInfo.continueToken = v.metadataText "continue" ∧
      (Codec.option .int64).encode l.listInfo.remaining = v.remainingCount := by
  refine ⟨decode_isOk_iff, fun l hl => ?_⟩
  cases hv with
  | @obj members ascending each =>
    obtain ⟨hfields, hitems⟩ := decode_obj_cases hl
    have hentries : l.fields.entries = members.filter (·.1 != "items") := by
      rw [hfields]
      exact Entries.sorted_of_ascending (List.Pairwise.filter _ ascending)
    have hencode : codec.encode l = .obj (Entries.put "items" (.arr (l.items.map Document.value))
        (members.filter (·.1 != "items"))) := by
      rw [← hentries]
      rfl
    have hinfo : l.listInfo = Dynamic.listInfo ((Json.obj members).member? "metadata") := by
      rw [Json.member?, ← listInfo_ofList ascending l.items, ← hfields]
    refine ⟨members, rfl, hentries, ?_, ?_, ?_, ?_, ?_⟩
    · rcases hitems with ⟨hnone, hempty⟩ | hsome
      · refine .inl ⟨hnone, hempty, ?_⟩
        rw [hencode, Entries.filter_bne_of_lookup hnone, hempty, Json.object,
          Entries.sorted_append_singleton, Entries.sorted_of_ascending ascending]
        rfl
      · -- the items go back to the place from which they were taken
        refine .inr ⟨hsome, ?_⟩
        rw [hencode, Entries.put_filter_bne ascending hsome]
    · rw [hinfo]
      exact Json.text_metadata _ _
    · rw [hinfo]
      exact Json.text_metadata _ _
    · rw [hinfo]
      exact Json.text_metadata _ _
    · rw [hinfo]
      exact Json.remaining_metadata _
  | _ => cases hl

theorem decoded_verbatim_documents :
    let inner : Json := .obj [("items", .null)]
    let v : Json := .obj [("items", .arr [.int 7, inner]), ("kind", .str "PodList"),
      ("metadata", .obj [("continue", .str "next"), ("resourceVersion", .int 7)])]
    let w : Json := .obj [("kind", .str "PodList"), ("metadata", .str "none")]
    (∃ l, codec.decode v = .ok l ∧ codec.encode l = v ∧ l.listInfo.continueToken = "next" ∧
      l.listInfo.resourceVersion = "") ∧
    (∃ l, codec.decode w = .ok l ∧ codec.encode l = .obj (("items", .arr []) :: [("kind",
      .str "PodList"), ("metadata", .str "none")])) ∧
    ¬ ∃ l, codec.decode inner = .ok l := by
  intro inner v w
  have hinner : inner.WellFormed :=
    .obj (List.pairwise_singleton _ _) (List.forall_mem_singleton.2 .null)
  have hitems : (Json.arr [.int 7, inner]).WellFormed :=
    .arr (by simp [hinner, Json.WellFormed.int])
  have hmetadata : (Json.obj [("continue", .str "next"), ("resourceVersion", .int 7)]).WellFormed :=
    .obj (Entries.ascending_of_keys ["continue", "resourceVersion"] rfl (by decide))
      (by simp [Json.WellFormed.str, Json.WellFormed.int])
  have hv : v.WellFormed :=
    .obj (Entries.ascending_of_keys ["items", "kind", "metadata"] rfl (by decide))
      (by simp [hitems, hmetadata, Json.WellFormed.str])
  have hw : w.WellFormed :=
    .obj (Entries.ascending_of_keys ["kind", "metadata"] rfl (by decide))
      (by simp [Json.WellFormed.str])
  obtain ⟨hdecodes, hkept⟩ := decoded_verbatim hv
  obtain ⟨hdecodes', hkept'⟩ := decoded_verbatim hw
  obtain ⟨l, hl⟩ := hdecodes.2 ⟨rfl, fun _ hw => ⟨_, (Option.some.inj hw).symm⟩⟩
  obtain ⟨l', hl'⟩ := hdecodes'.2 ⟨rfl, nofun⟩
  obtain ⟨_, -, -, hcases, hversion, -, hcontinue, -⟩ := hkept l hl
  obtain ⟨members, hmembers, -, hcases', -⟩ := hkept' l' hl'
  have hsame := Json.obj.inj hmembers
  subst hsame
  refine ⟨⟨l, hl, ?_, hcontinue, hversion⟩, ⟨l', hl', ?_⟩, fun h => ?_⟩
  · rcases hcases with ⟨⟨⟩, -⟩ | ⟨-, hkeeps⟩
    exact hkeeps
  · rcases hcases' with ⟨-, -, hadded⟩ | ⟨⟨⟩, -⟩
    exact hadded.trans (by decide +kernel)
  · obtain ⟨items, ⟨⟩⟩ := ((decoded_verbatim hinner).1.1 h).2 .null rfl

end DocumentList

end ResourceTable
