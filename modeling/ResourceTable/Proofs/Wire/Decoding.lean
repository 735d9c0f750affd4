import ResourceTable.Object.ObjectList
import ResourceTable.Metadata.ObjectMeta
import ResourceTable.Proofs.Object.DocumentText
import ResourceTable.Request.Info
import ResourceTable.Status
import ResourceTable.Table.Basic
import ResourceTable.Table.Options

namespace ResourceTable

open Codec Traversal

theorem ObjectMeta.codec_coherent : ObjectMeta.codec.Coherent := by
  unfold ObjectMeta.codec
  exact Fields.codec_coherent (by decide)
    ⟨string_coherent, string_coherent, string_coherent, string_coherent, string_coherent,
      instant_coherent.option, string_coherent.dict, string_coherent.dict, trivial⟩

theorem ListMeta.codec_coherent : ListMeta.codec.Coherent := by
  unfold ListMeta.codec
  exact Fields.codec_coherent (by decide)
    ⟨string_coherent, string_coherent, string_coherent, int64_coherent.option, trivial⟩

theorem GroupResource.codec_coherent : GroupResource.codec.Coherent := by
  unfold GroupResource.codec
  exact Fields.codec_coherent (by decide) ⟨string_coherent, string_coherent, trivial⟩

theorem RequestInfo.codec_coherent : RequestInfo.codec.Coherent := by
  unfold RequestInfo.codec
  exact Fields.codec_coherent (by decide)
    ⟨string_coherent, string_coherent, string_coherent, string_coherent, string_coherent,
      string_coherent, string_coherent, trivial⟩

theorem Column.codec_coherent : Column.codec.Coherent := by
  unfold Column.codec
  exact Fields.codec_coherent (by decide)
    ⟨string_coherent, string_coherent, string_coherent, string_coherent, int32_coherent, trivial⟩

theorem Condition.codec_coherent : Condition.codec.Coherent := by
  unfold Condition.codec
  exact Fields.codec_coherent (by decide)
    ⟨string_coherent, string_coherent, string_coherent, string_coherent, trivial⟩

theorem TableOptions.codec_coherent : TableOptions.codec.Coherent := by
  unfold TableOptions.codec
  exact Fields.codec_coherent (by decide) ⟨bool_coherent, trivial⟩

theorem Status.codec_coherent : Status.codec.Coherent := by
  unfold Status.codec
  exact Fields.codec_coherent (by decide)
    ⟨string_coherent, string_coherent, string_coherent, string_coherent, string_coherent,
      uint16_coherent, trivial⟩

theorem Embedded.codec_coherent : Embedded.codec.Coherent := json_coherent.option

theorem Row.codec_coherent : Row.codec.Coherent := by
  unfold Row.codec
  exact Fields.codec_coherent (by decide)
    ⟨json_coherent.list, Condition.codec_coherent.list, Embedded.codec_coherent, trivial⟩

theorem Table.codec_coherent : Table.codec.Coherent := by
  unfold Table.codec
  exact Fields.codec_coherent (by decide)
    ⟨string_coherent, string_coherent, string_coherent, int64_coherent.option,
      Column.codec_coherent.list, Row.codec_coherent.list, trivial⟩

/-- A collection is read off a text as it is decoded from a value, if its items are. -/
theorem ObjectList.codec_coherent {α : Type} {c : Codec α} (h : c.Coherent) :
    (ObjectList.codec c).Coherent := by
  unfold ObjectList.codec
  exact Fields.codec_coherent (by simp [Fields.keys, Field.optional])
    ⟨ListMeta.codec_coherent, h.list, trivial⟩

namespace Codec

variable {α : Type} {c : Codec α} {text : String} {v : Json}

/-- The text and the value decode to the same, or neither decodes. -/
def AgreesOn (c : Codec α) (text : String) (v : Json) : Prop :=
  ∀ x, c.decodeText text = .ok x ↔ c.decode v = .ok x

theorem holds_of_parse? (hv : Json.parse? text = some v)
    (hkeys : (Tree.read text.toList).1.isDistinct = true) :
    (Tree.read text.toList).1.Holds Tree.maxDepth v ∧
      Tree.isEnd (Tree.read text.toList).2 = true := by
  simp only [Json.parse?] at hv
  split at hv
  · next w hw =>
    split at hv
    · next hend =>
      cases hv
      exact ⟨⟨hkeys, hw⟩, hend⟩
    · cases hv
  · cases hv

theorem Coherent.agreesOn (h : c.Coherent) (hv : Json.parse? text = some v)
    (hkeys : (Tree.read text.toList).1.isDistinct = true) : c.AgreesOn text v := by
  intro x
  obtain ⟨htree, hend⟩ := holds_of_parse? hv hkeys
  rw [← h htree x]
  simp only [decodeText, hend, if_true]
  cases c.read (Tree.read text.toList).1 Tree.maxDepth with
  | ok y => rfl
  | error e => constructor <;> rintro ⟨⟩

end Codec

/-- Where a text holds a value and no object in it repeats a key, each type decodes from the text
exactly where it decodes from the value, and to the same. -/
theorem decodeText_agrees {text : String} {v : Json} (hv : Json.parse? text = some v)
    (hkeys : (Tree.read text.toList).1.isDistinct = true) :
    ObjectMeta.codec.AgreesOn text v ∧ ListMeta.codec.AgreesOn text v ∧
      GroupResource.codec.AgreesOn text v ∧ RequestInfo.codec.AgreesOn text v ∧
      Column.codec.AgreesOn text v ∧ Condition.codec.AgreesOn text v ∧
      TableOptions.codec.AgreesOn text v ∧ Status.codec.AgreesOn text v ∧
      Document.codec.AgreesOn text v ∧ DocumentList.codec.AgreesOn text v ∧
      Embedded.codec.AgreesOn text v ∧ Row.codec.AgreesOn text v ∧ Table.codec.AgreesOn text v ∧
      (ObjectList.codec Document.codec).AgreesOn text v ∧
      (∀ (α : Type) (c : Codec α), c.Coherent → (ObjectList.codec c).AgreesOn text v) ∧
      ∀ t, (Table.codec.decodeText text).map Table.received = .ok t ↔ Table.decode v = .ok t := by
  have htable := Table.codec_coherent.agreesOn hv hkeys
  refine ⟨ObjectMeta.codec_coherent.agreesOn hv hkeys, ListMeta.codec_coherent.agreesOn hv hkeys,
    GroupResource.codec_coherent.agreesOn hv hkeys, RequestInfo.codec_coherent.agreesOn hv hkeys,
    Column.codec_coherent.agreesOn hv hkeys, Condition.codec_coherent.agreesOn hv hkeys,
    TableOptions.codec_coherent.agreesOn hv hkeys, Status.codec_coherent.agreesOn hv hkeys,
    Document.codec_coherent.agreesOn hv hkeys, DocumentList.codec_coherent.agreesOn hv hkeys,
    Embedded.codec_coherent.agreesOn hv hkeys, Row.codec_coherent.agreesOn hv hkeys, htable,
    (ObjectList.codec_coherent Document.codec_coherent).agreesOn hv hkeys,
    fun _ _ hc => (ObjectList.codec_coherent hc).agreesOn hv hkeys, fun t => ?_⟩
  rw [Table.decode, map_eq_ok, map_eq_ok]
  exact exists_congr fun u => and_congr_left' (htable u)

/-- A table given as an array, with an escape in a key, a member that no field has, and a row that
embeds null. -/
theorem decodeText_agrees_array :
    let text := "[\"7\", \"\", \"\", null, [], [\x7b\"\\u006fbject\": null, \"x\": [1e3], " ++
      "\"cells\": [-1, \x7b\"b\": 1.5, \"a\": []\x7d]\x7d]]"
    let t : Table (Option Json) := ⟨"7", "", "", none, [], [⟨[.int (-1),
      .obj [("a", .arr []), ("b", .double ⟨false, 0x3ff8000000000000, by decide⟩)]], [], none⟩]⟩
    ∃ v, Json.parse? text = some v ∧ (Tree.read text.toList).1.isDistinct = true ∧
      Table.codec.decodeText text = .ok t ∧ Table.codec.decode v = .ok t := by
  intro text t
  have hkeys : (Tree.read text.toList).1.isDistinct = true := by decide +kernel
  have htext : Table.codec.decodeText text = .ok t := by decide +kernel
  obtain ⟨v, hv⟩ : ∃ v, Json.parse? text = some v :=
    Option.isSome_iff_exists.1 (by decide +kernel)
  obtain ⟨-, -, -, -, -, -, -, -, -, -, -, -, htable, -⟩ := decodeText_agrees hv hkeys
  exact ⟨v, hv, hkeys, htext, (htable t).1 htext⟩

end ResourceTable
