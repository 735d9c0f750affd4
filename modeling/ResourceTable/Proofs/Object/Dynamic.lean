import ResourceTable.Metadata.ListMeta
import ResourceTable.Metadata.ObjectMeta
import ResourceTable.Object.Dynamic
import ResourceTable.Proofs.Time.Strict
import ResourceTable.Proofs.Wire.Lawful

namespace ResourceTable

theorem ObjectMeta.member?_encode (m : ObjectMeta) (key : String) :
    (codec.encode m).member? key =
      if key = "name" ∧ m.name.isEmpty = false then some (.str m.name)
      else if key = "namespace" ∧ m.namespaceName.isEmpty = false then some (.str m.namespaceName)
      else if key = "uid" ∧ m.uid.isEmpty = false then some (.str m.uid)
      else if key = "resourceVersion" ∧ m.resourceVersion.isEmpty = false then
        some (.str m.resourceVersion)
      else if key = "selfLink" ∧ m.selfLink.isEmpty = false then some (.str m.selfLink)
      else if key = "creationTimestamp" ∧ m.created.isNone = false then
        some ((Codec.option .instant).encode m.created)
      else if key = "labels" ∧ m.labels.isEmpty = false then
        some ((Codec.dict .string).encode m.labels)
      else if key = "annotations" ∧ m.annotations.isEmpty = false then
        some ((Codec.dict .string).encode m.annotations)
      else none := by
  rw [codec, Fields.member?_encode (by decide)]
  simp only [Fields.lookup_encode_cons, Field.compact]
  rfl

theorem ListMeta.member?_encode (m : ListMeta) (key : String) :
    (codec.encode m).member? key =
      if key = "selfLink" ∧ m.selfLink.isEmpty = false then some (.str m.selfLink)
      else if key = "resourceVersion" ∧ m.resourceVersion.isEmpty = false then
        some (.str m.resourceVersion)
      else if key = "continue" ∧ m.continueToken.isEmpty = false then some (.str m.continueToken)
      else if key = "remainingItemCount" ∧ m.remaining.isNone = false then
        some ((Codec.option .int64).encode m.remaining)
      else none := by
  rw [codec, Fields.member?_encode (by decide)]
  simp only [Fields.lookup_encode_cons, Field.compact]
  rfl

/-- A year of four digits, which is written without a sign. -/
def Time.Instant.hasPlainYear (t : Instant) : Bool := 0 ≤ t.year ∧ t.year ≤ 9999

theorem Time.Instant.hasPlainYear_iff {t : Instant} :
    t.hasPlainYear = true ↔ 0 ≤ t.year ∧ t.year ≤ 9999 := decide_eq_true_iff

namespace Dynamic

theorem text_eq {metadata : Json} {key s : String}
    (h : metadata.member? key = if s.isEmpty = false then some (.str s) else none) :
    text (some metadata) key = s := by
  rw [text, Option.bind_some, h]
  split
  · rfl
  · next hs =>
    rw [Bool.not_eq_false, String.isEmpty_iff] at hs
    exact hs.symm

theorem created_eq {metadata : Json} {created? : Option Time.Instant}
    (h : metadata.member? "creationTimestamp" = created?.map fun t => .str t.text) :
    created (some metadata) =
      (created?.filter Time.Instant.hasPlainYear).map Time.Instant.regular := by
  rw [created, Option.bind_eq_bind, Option.bind_some, h]
  cases created? with
  | none => rfl
  | some t =>
    simp only [Option.map_some, Option.bind_eq_bind, Option.bind_some, Json.string?,
      Time.Strict.instant?_text, Option.filter, Time.Instant.hasPlainYear, decide_eq_true_eq]
    split <;> rfl

theorem remaining_eq {metadata : Json} {remaining? : Option Int64}
    (h : metadata.member? "remainingItemCount" = remaining?.map fun n => .int n.toInt) :
    remaining (some metadata) = remaining? := by
  rw [remaining, Option.bind_some, h]
  cases remaining? with
  | none => rfl
  | some n =>
    simp only [Option.map_some, Option.bind_some, Json.int64?,
      if_pos (And.intro n.minValue_le_toInt n.toInt_le), Int64.ofInt_toInt]

/-- The view of an object's metadata as JSON. -/
theorem objectInfo_encode (m : ObjectMeta) :
    objectInfo (some (ObjectMeta.codec.encode m)) =
      { m.info with
        created := (m.created.filter Time.Instant.hasPlainYear).map Time.Instant.regular } := by
  have hcreated : (ObjectMeta.codec.encode m).member? "creationTimestamp" =
      m.created.map fun t => .str t.text := by
    rw [ObjectMeta.member?_encode]
    cases m.created <;> simp [Codec.option, Codec.instant, Codec.scalar]
  simp only [objectInfo, commonInfo, ObjectMeta.info, ObjectInfo.mk.injEq, CommonInfo.mk.injEq]
  refine ⟨⟨text_eq ?_, text_eq ?_⟩, text_eq ?_, text_eq ?_, created_eq hcreated⟩
  all_goals simp [ObjectMeta.member?_encode]

theorem listInfo_encode (m : ListMeta) : listInfo (some (ListMeta.codec.encode m)) = m.info := by
  have hremaining : (ListMeta.codec.encode m).member? "remainingItemCount" =
      m.remaining.map fun n => .int n.toInt := by
    rw [ListMeta.member?_encode]
    cases m.remaining <;> simp [Codec.option, Codec.int64, Codec.integer, Codec.scalar]
  simp only [listInfo, commonInfo, ListMeta.info, ListInfo.mk.injEq, CommonInfo.mk.injEq]
  refine ⟨⟨text_eq ?_, text_eq ?_⟩, text_eq ?_, remaining_eq hremaining⟩
  all_goals simp [ListMeta.member?_encode]

end Dynamic

end ResourceTable
