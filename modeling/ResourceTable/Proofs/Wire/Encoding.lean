import ResourceTable.Metadata.ObjectMeta
import ResourceTable.Object.ObjectList
import ResourceTable.Proofs.Object.DocumentList
import ResourceTable.Proofs.Table.RoundTrip
import ResourceTable.Request.Info
import ResourceTable.Status
import ResourceTable.Table.Options

namespace ResourceTable

open Codec Traversal

variable {depth : Nat}

theorem ObjectMeta.codec_faithful (m : ObjectMeta) : ObjectMeta.codec.Faithful (depth + 2) m := by
  unfold ObjectMeta.codec
  exact Fields.codec_faithful
    ⟨fun _ => string_faithful _, fun _ => string_faithful _, fun _ => string_faithful _,
      fun _ => string_faithful _, fun _ => string_faithful _,
      fun _ => option_faithful fun t _ => instant_faithful t,
      fun _ => dict_faithful fun _ _ => string_faithful _,
      fun _ => dict_faithful fun _ _ => string_faithful _, trivial⟩

theorem ListMeta.codec_faithful (m : ListMeta) : ListMeta.codec.Faithful (depth + 1) m := by
  unfold ListMeta.codec
  exact Fields.codec_faithful
    ⟨fun _ => string_faithful _, fun _ => string_faithful _, fun _ => string_faithful _,
      fun _ => option_faithful fun n _ => int64_faithful n, trivial⟩

theorem GroupResource.codec_faithful (g : GroupResource) :
    GroupResource.codec.Faithful (depth + 1) g := by
  unfold GroupResource.codec
  exact Fields.codec_faithful ⟨fun _ => string_faithful _, fun _ => string_faithful _, trivial⟩

theorem RequestInfo.codec_faithful (r : RequestInfo) :
    RequestInfo.codec.Faithful (depth + 1) r := by
  unfold RequestInfo.codec
  exact Fields.codec_faithful
    ⟨fun _ => string_faithful _, fun _ => string_faithful _, fun _ => string_faithful _,
      fun _ => string_faithful _, fun _ => string_faithful _, fun _ => string_faithful _,
      fun _ => string_faithful _, trivial⟩

theorem Column.codec_faithful (c : Column) : Column.codec.Faithful (depth + 1) c := by
  unfold Column.codec
  exact Fields.codec_faithful
    ⟨fun _ => string_faithful _, fun _ => string_faithful _, fun _ => string_faithful _,
      fun _ => string_faithful _, fun _ => int32_faithful _, trivial⟩

theorem Condition.codec_faithful (c : Condition) : Condition.codec.Faithful (depth + 1) c := by
  unfold Condition.codec
  exact Fields.codec_faithful
    ⟨fun _ => string_faithful _, fun _ => string_faithful _, fun _ => string_faithful _,
      fun _ => string_faithful _, trivial⟩

theorem TableOptions.codec_faithful (o : TableOptions) :
    TableOptions.codec.Faithful (depth + 1) o := by
  unfold TableOptions.codec
  exact Fields.codec_faithful ⟨fun _ => bool_faithful _, trivial⟩

theorem Status.codec_faithful (s : Status) : Status.codec.Faithful (depth + 1) s := by
  unfold Status.codec
  exact Fields.codec_faithful
    ⟨fun _ => string_faithful _, fun _ => string_faithful _, fun _ => string_faithful _,
      fun _ => string_faithful _, fun _ => string_faithful _, fun _ => uint16_faithful _, trivial⟩

theorem ObjectList.codec_faithful {α : Type} {c : Codec α} {l : ObjectList α}
    (each : ∀ x ∈ l.items, c.Faithful depth x) :
    (ObjectList.codec c).Faithful (depth + 2) l := by
  unfold ObjectList.codec
  exact Fields.codec_faithful
    ⟨fun _ => ListMeta.codec_faithful l.metadata, fun _ => list_faithful each, trivial⟩

namespace Embedded

def Fits (depth : Nat) (e : Embedded) : Prop := ∀ v, e.json? = .ok (some v) → v.Fits depth

theorem codec_faithful {e : Embedded} {o : Option Json} (he : e.Fits depth)
    (ho : e.json? = .ok o) : codec.Faithful depth o := by
  apply option_faithful
  rintro v rfl
  exact json_faithful (he v ho)

end Embedded

namespace Row

structure Fits (depth : Nat) (r : Row Embedded) : Prop where
  cells : ∀ v ∈ r.cells, v.Fits (depth - 2)
  object : r.object.Fits (depth - 1)

theorem codec_faithful {r : Row Embedded} {s : Row (Option Json)} (hr : r.Fits (depth + 3))
    (hs : r.settle = .ok s) : codec.Faithful (depth + 3) s := by
  obtain ⟨o, ho, rfl⟩ := map_eq_ok.1 hs
  unfold codec
  exact Fields.codec_faithful
    ⟨fun _ => list_faithful fun v hv => json_faithful (hr.cells v hv),
      fun _ => list_faithful fun c _ => c.codec_faithful,
      fun _ => Embedded.codec_faithful hr.object ho, trivial⟩

end Row

namespace Table

def Fits (depth : Nat) (t : Table Embedded) : Prop := ∀ r ∈ t.rows, r.Fits (depth - 2)

theorem codec_faithful {t : Table Embedded} {u : Table (Option Json)} (ht : t.Fits (depth + 5))
    (hu : t.settle = .ok u) : codec.Faithful (depth + 5) u := by
  obtain ⟨rows, hrows, rfl⟩ := map_eq_ok.1 hu
  have hfit : ∀ s ∈ rows, Row.codec.Faithful (depth + 3) s := by
    intro s hs
    obtain ⟨r, hr, hsettle⟩ := exists_of_forall₂ (mapM_eq_ok_iff.1 hrows).flip hs
    exact Row.codec_faithful (ht r hr) hsettle
  unfold codec
  exact Fields.codec_faithful
    ⟨fun _ => string_faithful _, fun _ => string_faithful _, fun _ => string_faithful _,
      fun _ => option_faithful fun n _ => int64_faithful n,
      fun _ => list_faithful fun c _ => c.codec_faithful,
      fun _ => list_faithful hfit, trivial⟩

end Table

namespace Codec

variable {α ε : Type} {c : Codec α}

/-- The text of `x` holds the JSON of `x`. -/
def TextHolds (c : Codec α) (x : α) : Prop := Json.parse? (c.text x) = some (c.encode x)

theorem Faithful.textHolds {x : α} (h : c.Faithful Tree.maxDepth x) : c.TextHolds x :=
  Tree.Spells.parse?_text h

theorem map_text_eq {x : Except ε α} (h : ∀ y, x = .ok y → c.Faithful Tree.maxDepth y) :
    (x.map c.text).map Json.parse? = (x.map c.encode).map some := by
  cases x with
  | error e => rfl
  | ok y => exact congrArg Except.ok (h y rfl).textHolds

end Codec

/-- The text of each type holds its JSON, also where a field has the name of the items.  For what
embeds live objects there is neither where one does not encode, with one error. -/
theorem text_holds_value :
    (∀ m, ObjectMeta.codec.TextHolds m) ∧ (∀ m, ListMeta.codec.TextHolds m) ∧
      (∀ g, GroupResource.codec.TextHolds g) ∧ (∀ r, RequestInfo.codec.TextHolds r) ∧
      (∀ c, Column.codec.TextHolds c) ∧ (∀ c, Condition.codec.TextHolds c) ∧
      (∀ o, TableOptions.codec.TextHolds o) ∧ (∀ s, Status.codec.TextHolds s) ∧
      (∀ d : Document, d.value.Fits Tree.maxDepth → Document.codec.TextHolds d) ∧
      (∀ l : DocumentList, l.WellFormed → l.Plain → DocumentList.codec.TextHolds l) ∧
      (∀ l : ObjectList Document, (∀ d ∈ l.items, d.value.Fits (Tree.maxDepth - 2)) →
        (ObjectList.codec Document.codec).TextHolds l) ∧
      (∀ (α : Type) (c : Codec α) (l : ObjectList α),
        (∀ x ∈ l.items, c.Faithful (Tree.maxDepth - 2) x) → (ObjectList.codec c).TextHolds l) ∧
      (∀ e : Embedded, e.Fits Tree.maxDepth → e.text.map Json.parse? = e.encode.map some) ∧
      (∀ r : Row Embedded, r.Fits Tree.maxDepth → r.text.map Json.parse? = r.encode.map some) ∧
      ∀ t : Table Embedded, t.Fits Tree.maxDepth → t.text.map Json.parse? = t.encode.map some := by
  refine ⟨fun m => m.codec_faithful.textHolds, fun m => m.codec_faithful.textHolds,
    fun g => g.codec_faithful.textHolds, fun r => r.codec_faithful.textHolds,
    fun c => c.codec_faithful.textHolds, fun c => c.codec_faithful.textHolds,
    fun o => o.codec_faithful.textHolds, fun s => s.codec_faithful.textHolds,
    ?_, ?_, ?_, ?_, ?_, ?_, ?_⟩
  · exact fun d hd => (Document.codec_faithful hd).textHolds
  · exact fun l hw hp => (DocumentList.codec_faithful hw hp).textHolds
  · intro l hl
    apply Faithful.textHolds
    exact ObjectList.codec_faithful fun d hd => Document.codec_faithful (hl d hd)
  · intro α c l hl
    apply Faithful.textHolds
    exact ObjectList.codec_faithful hl
  · exact fun e he => map_text_eq fun o ho => Embedded.codec_faithful he ho
  · exact fun r hr => map_text_eq fun s hs => Row.codec_faithful hr hs
  · exact fun t ht => map_text_eq fun u hu => Table.codec_faithful ht hu

theorem text_holds_value_clash :
    let l : DocumentList :=
      ⟨⟨[("items", .str "\"\\\x01é")], List.pairwise_singleton _ _⟩, [⟨.int (-7)⟩]⟩
    let table (o : Object) : Table Embedded :=
      ⟨"", "", "", some 3, [], [⟨[.str "a"], [], .live o⟩, ⟨[], [], .raw .null⟩]⟩
    let a : Object := .ofJson (.arr [.bool true])
    let b : Object := ⟨none, none, none, .error ⟨"no JSON"⟩⟩
    DocumentList.codec.text l =
        "\x7b\"items\":\"\\\"\\\\\\u0001é\",\"items\":[-7]\x7d" ∧
      DocumentList.codec.TextHolds l ∧ (∃ v, (table a).encode = .ok v) ∧
      (table a).text.map Json.parse? = (table a).encode.map some ∧
      (table b).encode = .error ⟨"no JSON"⟩ ∧
      (table b).text.map Json.parse? = (table b).encode.map some := by
  intro l table a b
  obtain ⟨-, -, -, -, -, -, -, -, -, hlist, -, -, -, -, htable⟩ := text_holds_value
  have hcell : ∀ v ∈ [Json.str "a"], v.Fits (Tree.maxDepth - 4) := by
    rw [List.forall_mem_singleton]
    exact ⟨.str _, .str _⟩
  have hraw : (Row.mk [] [] (Embedded.raw .null)).Fits (Tree.maxDepth - 2) := by
    refine ⟨nofun, ?_⟩
    rintro v ⟨⟩
    exact ⟨.null, .null⟩
  have hrow : ∀ o : Object, (∀ v, o.encoding = .ok v → v.Fits (Tree.maxDepth - 3)) →
      (table o).Fits Tree.maxDepth := by
    intro o ho
    refine List.forall_mem_cons.2 ⟨⟨hcell, ?_⟩, List.forall_mem_singleton.2 hraw⟩
    intro v hv
    obtain ⟨_, hencoding, ⟨⟩⟩ := map_eq_ok.1 hv
    exact ho v hencoding
  have hl : l.WellFormed ∧ l.Plain := by
    refine ⟨⟨?_, ?_⟩, ?_, ?_⟩ <;> rw [List.forall_mem_singleton]
    · exact .str _
    · exact .int (by decide) (by decide)
    · exact .str _
    · exact .int _
  refine ⟨by decide +kernel, hlist l hl.1 hl.2, ⟨_, rfl⟩, htable _ (hrow a ?_), rfl,
    htable _ (hrow b nofun)⟩
  rintro v ⟨⟩
  exact ⟨.arr (List.forall_mem_singleton.2 (.bool true)),
    .arr (List.forall_mem_singleton.2 (.bool true))⟩

end ResourceTable
