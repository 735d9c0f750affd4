import ResourceTable.Object.Typed
import ResourceTable.Proofs.Object.Verbatim
import ResourceTable.Proofs.Table.Provenance

namespace ResourceTable

namespace Json

theorem int64?_eq_some_iff {v : Json} {n : Int64} : v.int64? = some n ↔ v = .int n.toInt := by
  cases v with
  | int k =>
    simp only [int64?, int.injEq]
    constructor
    · intro h
      split at h
      · next hk =>
        cases h
        exact (Int64.toInt_ofInt_of_le hk.1 (Int.lt_of_le_of_lt hk.2 (by decide))).symm
      · cases h
    · rintro rfl
      rw [if_pos ⟨n.minValue_le_toInt, n.toInt_le⟩, Int64.ofInt_toInt]
  | _ => simp [int64?]

theorem remaining_eq_some_iff {v : Json} {n : Int64} :
    Dynamic.remaining (v.member? "metadata") = some n ↔
      v.inMetadata? "remainingItemCount" = some (.int n.toInt) := by
  rw [Dynamic.remaining, ← inMetadata?, Option.bind_eq_some_iff]
  simp only [int64?_eq_some_iff, exists_eq_right]

theorem WellFormed.of_inMetadata? {v w : Json} {key : String} (hv : v.WellFormed)
    (h : v.inMetadata? key = some w) : w.WellFormed := by
  obtain ⟨m, hm, hw⟩ := Option.bind_eq_some_iff.1 h
  exact (hv.of_member? hm).of_member? hw

/-- What is seen of the count is less than 0 exactly if the integer in the document is; an integer
that is too large is not seen at all. -/
theorem remaining_nonneg_iff {v : Json} (hv : v.WellFormed) :
    (∀ n ∈ Dynamic.remaining (v.member? "metadata"), 0 ≤ n) ↔
      ∀ k, v.inMetadata? "remainingItemCount" = some (.int k) → 0 ≤ k := by
  have hsign : ∀ n : Int64, 0 ≤ n ↔ 0 ≤ n.toInt := fun n => Int64.le_iff_toInt_le
  simp only [Option.mem_def, remaining_eq_some_iff, hsign]
  constructor
  · intro h k hk
    -- an integer below 0 is one of 64 bits, as the integers of documents are
    by_contra hneg
    cases hv.of_inMetadata? hk with
    | int lower upper =>
      have hfits : (Int64.ofInt k).toInt = k := Int64.toInt_ofInt_of_le lower (by omega)
      exact hneg (hfits ▸ h (.ofInt k) (hfits.symm ▸ hk))
  · exact fun h n hn => h n.toInt hn

/-- A collection document as it stands, as a collection of documents, and as one of objects of one
type if its metadata is an object or missing. -/
inductive ReadAs (v : Json) : Object → Prop where
  | document {items : List Json} (h : v.member? "items" = some (.arr items)) :
    v.ReadAs (Document.toObject ⟨v⟩)
  | documents {l : DocumentList} (h : DocumentList.codec.decode v = .ok l) : v.ReadAs l.toObject
  | typed {α : Type} {c : Codec α} (item : α → Object) {l : ObjectList α}
    (isObject : v.isObject = true)
    (metadata : ∀ m, v.member? "metadata" = some m → m.isObject = true)
    (h : (ObjectList.codec c).decode v = .ok l) : v.ReadAs (l.toObject c item)

theorem ReadAs.listInfo?_eq {v : Json} {o : Object} (h : v.ReadAs o) (hv : v.WellFormed) :
    o.listInfo? = some (Dynamic.listInfo (v.member? "metadata")) := by
  cases h with
  | document h => rw [Document.toObject, toObject_collection h]
  | documents h =>
    cases hv with
    | obj ascending each =>
      obtain ⟨ds, -, rfl⟩ := DocumentList.decode_obj_eq_ok_iff.1 h
      exact congrArg some (DocumentList.listInfo_ofList ascending ds)
    | _ => cases h
  | typed item isObject metadata h =>
    cases v with
    | obj members => exact congrArg some (ObjectList.of_decode_obj hv metadata h).2
    | _ => cases isObject

end Json

namespace Convertor

variable {ι : Type} [DecidableEq ι] [Hashable ι] {β : ι → Type}
variable {c : Convertor} {ctx : Context β} {o : Object} {options : Option TableOptions}
variable {t : Table Embedded}

theorem remaining_eq (h : c.convert ctx o options = .ok t) :
    t.remaining = o.listInfo?.bind ListInfo.remaining := by
  have hinfo := congrArg ListInfo.remaining ((info_of_convert h).trans (info_frame o))
  refine Eq.trans hinfo ?_
  cases o.listInfo? with
  | some l => rfl
  | none => cases o.objectInfo? <;> rfl

/-- The count of a table is less than 0 exactly if that of the object is; for a document, in each of
its readings, exactly if the integer in it is. -/
theorem remaining_of_convert (h : c.convert ctx o options = .ok t) :
    t.remaining = o.listInfo?.bind ListInfo.remaining ∧
    ((∀ n ∈ t.remaining, 0 ≤ n) ↔ ∀ l ∈ o.listInfo?, ∀ n ∈ l.remaining, 0 ≤ n) ∧
    ∀ v : Json, v.WellFormed → v.ReadAs o →
      (∀ n, t.remaining = some n ↔ v.inMetadata? "remainingItemCount" = some (.int n.toInt)) ∧
      ((∀ n ∈ t.remaining, 0 ≤ n) ↔
        ∀ k, v.inMetadata? "remainingItemCount" = some (.int k) → 0 ≤ k) := by
  have hcount := remaining_eq h
  refine ⟨hcount, ?_, fun v hv hread => ?_⟩
  · rw [hcount]
    cases o.listInfo? <;> simp
  · have hdocument : t.remaining = Dynamic.remaining (v.member? "metadata") := by
      rw [hcount, hread.listInfo?_eq hv]
      rfl
    rw [hdocument]
    exact ⟨fun n => Json.remaining_eq_some_iff, Json.remaining_nonneg_iff hv⟩

/-- A document that counts one more than fits, and one that counts the least integer that fits. -/
theorem remaining_of_convert_extremes :
    let counting (k : Int) : Json :=
      .obj [("items", .arr []), ("metadata", .obj [("remainingItemCount", .int k)])]
    let large := counting 0x8000000000000000
    let least := counting (-0x8000000000000000)
    let conv : Convertor := ⟨⟨"", "pods"⟩⟩
    let ctx : Context fun _ : Unit => String := .empty
    large.WellFormed ∧ large.ReadAs (Document.toObject ⟨large⟩) ∧
      least.WellFormed ∧ least.ReadAs (Document.toObject ⟨least⟩) ∧
      ∃ t t', conv.convert ctx (Document.toObject ⟨large⟩) none = .ok t ∧
        conv.convert ctx (Document.toObject ⟨least⟩) none = .ok t' ∧
        (∀ n ∈ t.remaining, 0 ≤ n) ∧ t'.remaining = some Int64.minValue := by
  intro counting large least conv ctx
  have hwell : ∀ k, -0x8000000000000000 ≤ k → k < 0x10000000000000000 →
      (counting k).WellFormed := by
    intro k hlow hhigh
    have hmetadata : (Json.obj [("remainingItemCount", .int k)]).WellFormed :=
      .obj (List.pairwise_singleton _ _) (List.forall_mem_singleton.2 (.int hlow hhigh))
    exact .obj (Entries.ascending_of_keys ["items", "metadata"] rfl (by decide))
      (by simp [hmetadata, Json.WellFormed.arr])
  have hlarge := hwell 0x8000000000000000 (by decide) (by decide)
  have hleast := hwell (-0x8000000000000000) (by decide) (by decide)
  have hread : ∀ k, (counting k).ReadAs (Document.toObject ⟨counting k⟩) := fun k => .document rfl
  obtain ⟨t, ht⟩ : ∃ t, conv.convert ctx (Document.toObject ⟨large⟩) none = .ok t := ⟨_, rfl⟩
  obtain ⟨t', ht'⟩ : ∃ t, conv.convert ctx (Document.toObject ⟨least⟩) none = .ok t := ⟨_, rfl⟩
  obtain ⟨-, -, hdocument⟩ := remaining_of_convert ht
  obtain ⟨-, -, hdocument'⟩ := remaining_of_convert ht'
  refine ⟨hlarge, hread _, hleast, hread _, t, t', ht, ht', ?_, ?_⟩
  · rw [(hdocument large hlarge (hread _)).2]
    rintro k ⟨⟩
    decide
  · exact ((hdocument' least hleast (hread _)).1 Int64.minValue).2 rfl

theorem remaining_negative :
    let v : Json :=
      .obj [("items", .arr []), ("metadata", .obj [("remainingItemCount", .int (-1))])]
    let l : ObjectList TypedObject := ⟨⟨"", "", "", some (-1)⟩, []⟩
    let conv : Convertor := ⟨⟨"", "pods"⟩⟩
    let ctx : Context fun _ : Unit => String := .empty
    (ObjectList.codec TypedObject.codec).decode v = .ok l ∧
      ∃ t t', conv.convert ctx (Document.toObject ⟨v⟩) none = .ok t ∧
        conv.convert ctx (l.toObject TypedObject.codec TypedObject.toObject) none = .ok t' ∧
        t.remaining = some (-1) ∧ t'.remaining = some (-1) ∧ ¬ ∀ n ∈ t.remaining, 0 ≤ n := by
  intro v l conv ctx
  refine ⟨by decide +kernel, _, _, rfl, rfl, by decide +kernel, rfl, fun h => ?_⟩
  exact absurd (h (-1) (by decide +kernel)) (by decide)

end Convertor

end ResourceTable
