import ResourceTable.Object.ObjectList
import ResourceTable.Metadata.ObjectMeta
import ResourceTable.Proofs.Table.Wire
import ResourceTable.Proofs.Time.Relaxed
import ResourceTable.Request.Info
import ResourceTable.Status
import ResourceTable.Table.Options

namespace ResourceTable

open Codec Traversal

namespace Codec

theorem instant_decode_encode (t : Time.Instant) :
    instant.decode (instant.encode t) = .ok t.regular := by
  simp only [instant, scalar, Time.Relaxed.instant_text]
  rfl

theorem isRegular_of_instant_decode {v : Json} {t : Time.Instant} (h : instant.decode v = .ok t) :
    t.IsRegular := by
  cases v with
  | str s => exact Time.Relaxed.isRegular_of_instant (mapError_eq_ok.1 h)
  | _ => cases h

theorem optional_instant_decode_encode (created : Option Time.Instant) :
    (option instant).decode ((option instant).encode created) =
      .ok (created.map Time.Instant.regular) := by
  cases created with
  | none => rfl
  | some t =>
    rw [option_decode_some (instant_decode_encode t), if_neg]
    · rfl
    · rw [instant, scalar]
      exact Json.noConfusion

end Codec

theorem Dict.eq_empty_of_isEmpty {α : Type} {d : Dict α} (h : d.isEmpty = true) : d = .empty := by
  obtain ⟨entries, ascending⟩ := d
  rw [isEmpty, List.isEmpty_iff] at h
  subst h
  rfl

theorem Field.keeps_texts (key : String) (d : Dict String) :
    (Field.compact key (.dict .string) .empty Dict.isEmpty).Keeps d d :=
  keeps_compact (fun _ => string_lawful.dict d) fun h => (Dict.eq_empty_of_isEmpty h).symm

theorem Field.keeps_optional_compact {α : Type} {c : Codec α} (h : (Codec.option c).Lawful)
    (key : String) (x : Option α) :
    (Field.compact key (.option c) none Option.isNone).Keeps x x :=
  keeps_compact (fun _ => h x) fun hx => (Option.isNone_iff_eq_none.1 hx).symm

namespace ObjectMeta

/-- What comes back is the creation time as it is written. -/
theorem decode_encode (m : ObjectMeta) :
    codec.decode (codec.encode m) = .ok (m.withCreated (m.created.map Time.Instant.regular)) := by
  have hcreated : (Field.compact "creationTimestamp" (.option .instant) none Option.isNone).Keeps
      m.created (m.created.map Time.Instant.regular) :=
    Field.keeps_compact (fun _ => optional_instant_decode_encode m.created) fun h => by
      rw [Option.isNone_iff_eq_none.1 h]
      rfl
  unfold codec
  exact Fields.decode_encode (r := (m.name, m.namespaceName, m.uid, m.resourceVersion, m.selfLink,
      m.created.map Time.Instant.regular, m.labels, m.annotations, ())) (by decide)
    ⟨Field.keeps_text _ m.name, Field.keeps_text _ m.namespaceName, Field.keeps_text _ m.uid,
      Field.keeps_text _ m.resourceVersion, Field.keeps_text _ m.selfLink, hcreated,
      Field.keeps_texts _ m.labels, Field.keeps_texts _ m.annotations, trivial⟩

def IsRegular (m : ObjectMeta) : Prop := ∀ t ∈ m.created, t.IsRegular

theorem codec_lawfulOn : codec.LawfulOn IsRegular := by
  intro m hm
  have hcreated : m.created.map Time.Instant.regular = m.created := by
    cases h : m.created with
    | none => rfl
    | some t => rw [Option.map_some, Time.Instant.regular_of_isRegular (hm t h)]
  rw [m.decode_encode, hcreated]
  rfl

theorem isRegular_of_decode {v : Json} {m : ObjectMeta} (h : codec.decode v = .ok m) :
    m.IsRegular := by
  unfold codec at h
  obtain ⟨look, ⟨_, _, _, _, _, created, _⟩, ⟨-, -, -, -, -, hcreated, -⟩, rfl⟩ :=
    Fields.exists_reads_of_decode (by decide) h
  refine hcreated.imp (p := fun created => ∀ t ∈ created, t.IsRegular) ?_ ?_
  · rintro v created hv t ⟨⟩
    obtain ⟨-, ⟨⟩⟩ | ⟨-, t, ht, ⟨⟩⟩ := option_decode_eq_ok_iff.1 hv
    exact isRegular_of_instant_decode ht
  · rintro created ⟨⟩ t ⟨⟩

/-- The metadata that some value is decoded as. -/
theorem isRegular_iff_exists_decode (m : ObjectMeta) :
    m.IsRegular ↔ ∃ v, codec.decode v = .ok m :=
  ⟨fun h => ⟨_, codec_lawfulOn m h⟩, fun ⟨_, h⟩ => isRegular_of_decode h⟩

end ObjectMeta

theorem ListMeta.codec_lawful : ListMeta.codec.Lawful := by
  intro x
  unfold ListMeta.codec
  exact Fields.decode_encode_self (by decide) rfl
    ⟨Field.keeps_text _ x.selfLink, Field.keeps_text _ x.resourceVersion,
      Field.keeps_text _ x.continueToken,
      Field.keeps_optional_compact optional_int64_lawful _ x.remaining, trivial⟩

theorem GroupResource.codec_lawful : GroupResource.codec.Lawful := by
  intro x
  unfold GroupResource.codec
  exact Fields.decode_encode_self (by decide) rfl
    ⟨Field.keeps_optional (string_lawful x.group), Field.keeps_required (string_lawful x.resource),
      trivial⟩

theorem RequestInfo.codec_lawful : RequestInfo.codec.Lawful := by
  intro x
  unfold RequestInfo.codec
  exact Fields.decode_encode_self (by decide) rfl
    ⟨Field.keeps_optional (string_lawful x.verb), Field.keeps_optional (string_lawful x.apiGroup),
      Field.keeps_optional (string_lawful x.apiVersion),
      Field.keeps_optional (string_lawful x.namespaceName),
      Field.keeps_optional (string_lawful x.resource),
      Field.keeps_optional (string_lawful x.subresource),
      Field.keeps_optional (string_lawful x.name), trivial⟩

theorem TableOptions.codec_lawful : TableOptions.codec.Lawful := by
  intro x
  unfold TableOptions.codec
  exact Fields.decode_encode_self (by decide) rfl
    ⟨Field.keeps_optional (bool_lawful x.noHeaders), trivial⟩

theorem Status.codec_lawful : Status.codec.Lawful := by
  intro x
  unfold Status.codec
  exact Fields.decode_encode_self (by decide) rfl
    ⟨Field.keeps_required (string_lawful x.kind), Field.keeps_required (string_lawful x.apiVersion),
      Field.keeps_required (string_lawful x.status), Field.keeps_required (string_lawful x.message),
      Field.keeps_required (string_lawful x.reason), Field.keeps_required (uint16_lawful x.code),
      trivial⟩

theorem ObjectList.codec_lawfulOn {α : Type} {c : Codec α} {p : α → Prop} (h : c.LawfulOn p) :
    (ObjectList.codec c).LawfulOn fun l => ∀ x ∈ l.items, p x := by
  intro l hl
  unfold ObjectList.codec
  exact Fields.decode_encode_self (by simp [Fields.keys, Field.optional]) rfl
    ⟨Field.keeps_optional (ListMeta.codec_lawful l.metadata),
      Field.keeps_optional (h.list l.items hl), trivial⟩

/-- Every record comes back from its own JSON, metadata with each creation time that some value is
decoded as, and shares that JSON with no other; so does a collection whose items do. -/
theorem records_lawful :
    ObjectMeta.codec.LawfulOn ObjectMeta.IsRegular ∧
      (∀ m : ObjectMeta, m.IsRegular ↔ ∃ v, ObjectMeta.codec.decode v = .ok m) ∧
      ListMeta.codec.Lawful ∧ GroupResource.codec.Lawful ∧ RequestInfo.codec.Lawful ∧
      Column.codec.Lawful ∧ Condition.codec.Lawful ∧ TableOptions.codec.Lawful ∧
      Status.codec.Lawful ∧
      (∀ (α : Type) (c : Codec α), c.Lawful → (ObjectList.codec c).Lawful) ∧
      (∀ (α : Type) (c : Codec α), c.Lawful → Function.Injective c.encode) ∧
      (∀ (α : Type) (c : Codec α) (p : α → Prop), c.LawfulOn p →
        (ObjectList.codec c).LawfulOn fun l => ∀ x ∈ l.items, p x) ∧
      ∀ (α : Type) (c : Codec α) (p : α → Prop), c.LawfulOn p →
        ∀ x y, p x → p y → c.encode x = c.encode y → x = y :=
  ⟨ObjectMeta.codec_lawfulOn, ObjectMeta.isRegular_iff_exists_decode, ListMeta.codec_lawful,
    GroupResource.codec_lawful, RequestInfo.codec_lawful, Column.codec_lawful,
    Condition.codec_lawful, TableOptions.codec_lawful, Status.codec_lawful,
    fun _ _ h l => ObjectList.codec_lawfulOn (h.lawfulOn fun _ => True) l fun _ _ => trivial,
    fun _ _ h => h.encode_injective, fun _ _ _ h => ObjectList.codec_lawfulOn h,
    fun _ _ _ h _ _ => h.encode_inj⟩

theorem records_lawful_leapSecond :
    let created : Time.Instant :=
      ⟨-62167219201, true, 5, by decide, by decide, by decide⟩
    let l : ObjectList ObjectMeta := ⟨⟨"", "7", "", some (-1)⟩,
      [((ObjectMeta.named "a").withCreated (some created)).withLabel "app" "web", .empty]⟩
    let c := ObjectList.codec ObjectMeta.codec
    created.text = "-0001-12-31T23:59:60.000000005Z" ∧ c.decode (c.encode l) = .ok l := by
  intro created l c
  obtain ⟨hmeta, -, -, -, -, -, -, -, -, -, -, hlist, -⟩ := records_lawful
  refine ⟨by decide +kernel, hlist ObjectMeta ObjectMeta.codec _ hmeta l ?_⟩
  show ∀ x ∈ [_, ObjectMeta.empty], ObjectMeta.IsRegular x
  rw [List.forall_mem_cons, List.forall_mem_singleton]
  refine ⟨?_, fun t ht => absurd ht (Option.not_mem_none t)⟩
  intro t ht
  obtain rfl : created = t := Option.some.inj ht
  exact fun _ => rfl

end ResourceTable
