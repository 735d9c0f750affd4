import ResourceTable.Object.Typed
import ResourceTable.Object.ObjectList
import ResourceTable.Proofs.Object.Document
import ResourceTable.Proofs.Object.Dynamic
import ResourceTable.Proofs.Table.RoundTrip
import ResourceTable.Proofs.Time.Stamp

namespace ResourceTable

open Traversal

def plainCell (created : Option Time.Instant) : String :=
  if created.all Time.Instant.hasPlainYear then createdCell created else unknownTime

theorem createdCell_filter (created : Option Time.Instant) :
    createdCell ((created.filter Time.Instant.hasPlainYear).map Time.Instant.regular) =
      plainCell created := by
  cases created with
  | none => rfl
  | some t =>
    rw [plainCell, Option.all_some, Option.filter_some]
    split
    · exact t.wholeSeconds_regular
    · rfl

theorem isStamp_createdCell (created : Option Time.Instant) :
    Time.IsStamp (createdCell created) ↔ created.all Time.Instant.hasPlainYear := by
  cases created with
  | none => decide +kernel
  | some t =>
    rw [Option.all_some, Time.Instant.hasPlainYear_iff]
    exact t.isStamp_wholeSeconds

theorem plainCell_eq_iff (created : Option Time.Instant) :
    plainCell created = createdCell created ↔ created.all Time.Instant.hasPlainYear := by
  rw [plainCell]
  split
  · next h => simp [h]
  · next h =>
    refine iff_of_false (fun heq => h ?_) h
    rw [← isStamp_createdCell, ← heq]
    exact (isStamp_createdCell none).2 rfl

namespace ObjectList

variable {α : Type} {c : Codec α} {item : α → Object} {md : α → ObjectMeta}

/-- Items that show object metadata and encode as JSON objects, which hold the metadata under its
key and no array of items. -/
structure CarryMetadata (c : Codec α) (item : α → Object) (md : α → ObjectMeta) : Prop where
  shows : ∀ x, (item x).objectInfo? = some (md x).info
  encodes : ∀ x, (item x).encoding = .ok (c.encode x)
  holds : ∀ x, (c.encode x).member? "metadata" = some (ObjectMeta.codec.encode (md x))
  single : ∀ x, ((c.encode x).member? "items").bind Json.array? = none

/-- The table of a collection as it goes over the wire, with the given cells for creation times. -/
def rendered (c : Codec α) (md : α → ObjectMeta) (options : Option TableOptions)
    (cell : Option Time.Instant → String) (l : ObjectList α) : Table (Option Json) :=
  ⟨l.metadata.resourceVersion, l.metadata.selfLink, l.metadata.continueToken, l.metadata.remaining,
    Convertor.columns options,
    l.items.map fun x =>
      ⟨[.str (md x).name, .str (cell (md x).created)], [], some (c.encode x)⟩⟩

theorem member?_metadata (l : ObjectList α) :
    ((codec c).encode l).member? "metadata" = some (ListMeta.codec.encode l.metadata) := by
  rw [codec, Fields.member?_encode (by simp [Fields.keys, Field.optional])]
  rfl

theorem member?_items (l : ObjectList α) :
    ((codec c).encode l).member? "items" = some (.arr (l.items.map c.encode)) := by
  rw [codec, Fields.member?_encode (by simp [Fields.keys, Field.optional])]
  rfl

variable {ι : Type} [DecidableEq ι] [Hashable ι] {β : ι → Type}

/-- A collection whose elements show their metadata, but for creation times only what `see` leaves,
is converted and encodes as the rendered table. -/
theorem converted_encode {c : Codec α} {md : α → ObjectMeta} {o : Object} {l : ObjectList α}
    (element : α → Object) (see : Option Time.Instant → Option Time.Instant)
    (hlist : o.listInfo? = some l.metadata.info)
    (hitems : o.items? = some (l.items.map element))
    (hshows : ∀ x, (element x).objectInfo? =
      some { (md x).info with created := see (md x).created })
    (hencodes : ∀ x, (element x).encoding = .ok (c.encode x))
    (conv : Convertor) (ctx : Context β) (options : Option TableOptions) :
    ∃ t, conv.convert ctx o options = .ok t ∧
      t.encode = .ok (Table.codec.encode
        (l.rendered c md options fun created => createdCell (see created))) := by
  have hframe : Convertor.frame o = ⟨l.metadata.resourceVersion, l.metadata.selfLink,
      l.metadata.continueToken, l.metadata.remaining, [], []⟩ := by
    rw [Convertor.frame, Object.listInfo, hlist]
    rfl
  have helements : o.elements = l.items.map element := by
    rw [Object.elements, hitems, Option.getD_some]
  obtain ⟨t, ht, hencode⟩ := Convertor.convert_encode conv ctx options helements
    (fun x _ => hshows x) (fun x _ => hencodes x)
  rw [hframe] at hencode
  exact ⟨t, ht, hencode⟩

theorem encode_rendered_inj {l : ObjectList α} {options : Option TableOptions}
    {cell cell' : Option Time.Instant → String} :
    Table.codec.encode (l.rendered c md options cell) =
        Table.codec.encode (l.rendered c md options cell') ↔
      ∀ x ∈ l.items, cell (md x).created = cell' (md x).created := by
  constructor
  · intro h x hx
    -- no cell is lost on the wire, so the decoded tables tell the cells apart
    have hdecode := congrArg Table.codec.decode h
    rw [Table.decode_encode, Table.decode_encode] at hdecode
    have hrows := congrArg Table.rows (Except.ok.inj hdecode)
    simp only [Table.arrived, Table.withRows, rendered, List.map_map, List.map_inj_left] at hrows
    simpa [Row.arrived, Row.embed] using congrArg Row.cells (hrows x hx)
  · intro h
    have hrows : (l.rendered c md options cell).rows = (l.rendered c md options cell').rows :=
      List.map_inj_left.2 fun x hx => by rw [h x hx]
    exact congrArg (fun rows => Table.codec.encode
      { l.rendered c md options cell with rows := rows }) hrows

/-- A collection and the document that holds its JSON are both converted, and both tables encode.
They are the same exactly where each creation time that is known has a year of four digits. -/
theorem rendering_agrees (h : CarryMetadata c item md) (l : ObjectList α) (conv : Convertor)
    (ctx : Context β) (options : Option TableOptions) :
    ∃ t t', conv.convert ctx (l.toObject c item) options = .ok t ∧
      conv.convert ctx (Document.toObject ⟨(codec c).encode l⟩) options = .ok t' ∧
      t.encode = .ok (Table.codec.encode (l.rendered c md options createdCell)) ∧
      t'.encode = .ok (Table.codec.encode (l.rendered c md options plainCell)) ∧
      (t'.encode = t.encode ↔ ∀ x ∈ l.items, (md x).created.all Time.Instant.hasPlainYear) := by
  have hsingle : ∀ x, (c.encode x).toObject =
      ⟨some { (md x).info with
          created := ((md x).created.filter Time.Instant.hasPlainYear).map Time.Instant.regular },
        none, none, .ok (c.encode x)⟩ := by
    intro x
    rw [Json.toObject_single (h.holds x) (h.single x), Dynamic.objectInfo_encode]
  have hcollection : Document.toObject ⟨(codec c).encode l⟩ =
      ⟨none, some l.metadata.info, some (l.items.map fun x => (c.encode x).toObject),
        .ok ((codec c).encode l)⟩ := by
    rw [Document.toObject, Json.toObject_collection l.member?_items, member?_metadata,
      Dynamic.listInfo_encode, List.map_map]
    rfl
  -- both are converted alike; only what is seen of the creation times differs
  obtain ⟨t, ht, hencode⟩ := converted_encode (o := l.toObject c item) item id rfl rfl h.shows
    h.encodes conv ctx options
  obtain ⟨t', ht', hencode'⟩ := converted_encode (o := Document.toObject ⟨(codec c).encode l⟩)
    (fun x => (c.encode x).toObject)
    (fun created => (created.filter Time.Instant.hasPlainYear).map Time.Instant.regular)
    (by rw [hcollection]) (by rw [hcollection]) (fun x => by rw [hsingle])
    (fun x => by rw [hsingle]) conv ctx options
  simp only [createdCell_filter] at hencode'
  refine ⟨t, t', ht, ht', hencode, hencode', ?_⟩
  rw [hencode, hencode', Except.ok.injEq, encode_rendered_inj]
  simp only [id_eq, plainCell_eq_iff]

theorem typed_carryMetadata :
    CarryMetadata TypedObject.codec TypedObject.toObject TypedObject.metadata where
  shows _ := rfl
  encodes _ := rfl
  holds x := by
    rw [TypedObject.codec, Fields.member?_encode (by decide)]
    rfl
  single x := by
    rw [TypedObject.codec, Fields.member?_encode (by decide)]
    rfl

theorem rendering_agrees_objects :
    let early : Time.Instant := ⟨0, false, 0, by decide, by decide, by decide⟩
    let late : Time.Instant := ⟨253402300800, false, 5, by decide, by decide, by decide⟩
    let l : ObjectList TypedObject := ⟨⟨"", "7", "next", some 3⟩,
      [⟨(ObjectMeta.named "a").withCreated (some early), .null⟩,
        ⟨(ObjectMeta.named "b").withCreated (some late), .null⟩]⟩
    let conv : Convertor := ⟨⟨"", "pods"⟩⟩
    let ctx : Context fun _ : Unit => String := .empty
    CarryMetadata TypedObject.codec TypedObject.toObject TypedObject.metadata ∧
      ∃ t t', conv.convert ctx (l.toObject TypedObject.codec TypedObject.toObject) none = .ok t ∧
        conv.convert ctx (Document.toObject ⟨(codec TypedObject.codec).encode l⟩) none = .ok t' ∧
        t'.encode ≠ t.encode := by
  intro early late l conv ctx
  obtain ⟨t, t', ht, ht', -, -, hsame⟩ := rendering_agrees typed_carryMetadata l conv ctx none
  refine ⟨typed_carryMetadata, t, t', ht, ht', fun heq => ?_⟩
  have hlate : late.hasPlainYear = true := hsame.1 heq _ (List.mem_cons_of_mem _ List.mem_cons_self)
  exact absurd hlate (by decide +kernel)

end ObjectList

end ResourceTable
