import ResourceTable.Object.Typed
import ResourceTable.Proofs.Object.Dynamic
import ResourceTable.Proofs.Table.Conversion
import ResourceTable.Proofs.Time.Stamp
import ResourceTable.Proofs.Wire.Records

namespace ResourceTable

namespace Time.Instant

/-- The nanoseconds since 1970-01-01T00:00:00Z; a leap second counts as the second before it. -/
def nanoseconds (t : Instant) : Int := t.second * 1000000000 + t.nano

theorem nanoseconds_truncate (t : Instant) :
    t.truncate.nanoseconds = t.nanoseconds / 1000000000 * 1000000000 := by
  have hnano := t.nano_lt
  have hfloor : t.nanoseconds / 1000000000 = t.second := by
    unfold nanoseconds
    omega
  rw [hfloor]
  exact Int.add_zero _

theorem toCivil_truncate (t : Instant) : t.truncate.toCivil = { t.toCivil with nano := 0 } := rfl

end Time.Instant

namespace ObjectMeta

theorem member?_created (m : ObjectMeta) (t : Time.Instant) :
    (codec.encode (m.withCreated (some t))).member? "creationTimestamp" = some (.str t.text) := by
  rw [member?_encode]
  simp [withCreated, Codec.option, Codec.instant, Codec.scalar]

theorem decode_created {t : Time.Instant} (h : t.IsRegular) :
    codec.decode (.obj [("creationTimestamp", .str t.text)]) =
      .ok (empty.withCreated (some t)) := by
  refine codec_lawfulOn (empty.withCreated (some t)) ?_
  rintro _ ⟨⟩
  exact h

end ObjectMeta

namespace Convertor

variable {ι : Type} [DecidableEq ι] [Hashable ι] {β : ι → Type}

/-- The metadata decodes the cell of a creation time as that time without its fraction, which all
metadata encodes as that cell. -/
theorem truncated_cells {m : ObjectMeta} {created : Time.Instant} (h : m.created = some created)
    {v : Json} (hread : Codec.instant.decode v = .ok created) (c : Convertor) (ctx : Context β)
    (options : Option TableOptions) :
    (∀ x : Object, x.objectInfo? = some m.info → x.items? = none →
      ∃ t, c.convert ctx x options = .ok t ∧
        t.rows.map Row.cells = [[.str m.name, .str created.wholeSeconds]]) ∧
      (∀ o t, c.convert ctx o options = .ok t →
        List.Forall₂ (fun e r => e.objectInfo? = some m.info →
          r.cells = [.str m.name, .str created.wholeSeconds]) o.elements t.rows) ∧
      ObjectMeta.codec.decode (.obj [("creationTimestamp", .str created.wholeSeconds)]) =
        .ok (ObjectMeta.empty.withCreated (some created.truncate)) ∧
      created.truncate.nanoseconds = created.nanoseconds / 1000000000 * 1000000000 ∧
      created.truncate.toCivil = { created.toCivil with nano := 0 } ∧
      ∀ m' : ObjectMeta,
        (ObjectMeta.codec.encode (m'.withCreated (some created.truncate))).member?
            "creationTimestamp" = some (.str created.wholeSeconds) ∧
          ObjectMeta.codec.decode (ObjectMeta.codec.encode
            (m'.withCreated (some created.truncate))) =
              .ok (m'.withCreated (some created.truncate)) := by
  have hregular := (Codec.isRegular_of_instant_decode hread).truncate
  have hcells : [Json.str m.info.name, .str (createdCell m.info.created)] =
      [.str m.name, .str created.wholeSeconds] := by
    show [Json.str m.name, .str (createdCell m.created)] = _
    rw [h]
    rfl
  refine ⟨fun x hx hitems => ?_, fun o t ht => ?_, ?_, created.nanoseconds_truncate,
    created.toCivil_truncate, fun m' => ⟨?_, ObjectMeta.codec_lawfulOn _ ?_⟩⟩
  · exact ⟨_, convert_single c ctx options hx hitems, congrArg (fun cells => [cells]) hcells⟩
  · refine (convert_eq_ok_iff.1 ht).1.imp ?_
    rintro e r ⟨info, hinfo, rfl⟩ hshows
    rw [hshows] at hinfo
    rw [← Option.some.inj hinfo, hcells]
  · rw [← created.text_truncate]
    exact ObjectMeta.decode_created hregular
  · rw [← created.text_truncate]
    exact m'.member?_created created.truncate
  · rintro _ ⟨⟩
    exact hregular

theorem truncated_cells_leapSecond :
    let created : Time.Instant :=
      ⟨-62167219201, true, 999999999, by decide, by decide, by decide⟩
    let whole : Time.Instant := ⟨-62167219201, true, 0, by decide, by decide, by decide⟩
    let x : TypedObject := ⟨(ObjectMeta.named "a").withCreated (some created), .null⟩
    let conv : Convertor := ⟨⟨"", "pods"⟩⟩
    let ctx : Context fun _ : Unit => String := .empty
    x.metadata.created = some created ∧
      Codec.instant.decode (.str "-0001-12-31T23:59:60.999999999Z") = .ok created ∧
      (∃ t, conv.convert ctx x.toObject none = .ok t ∧
        t.rows.map Row.cells = [[.str "a", .str "-0001-12-31T23:59:60Z"]]) ∧
      ObjectMeta.codec.decode (.obj [("creationTimestamp", .str "-0001-12-31T23:59:60Z")]) =
        .ok (ObjectMeta.empty.withCreated (some whole)) ∧
      (ObjectMeta.codec.encode (x.metadata.withCreated (some whole))).member?
        "creationTimestamp" = some (.str "-0001-12-31T23:59:60Z") := by
  intro created whole x conv ctx
  have htext : created.wholeSeconds = "-0001-12-31T23:59:60Z" := by decide +kernel
  have hcreated : x.metadata.created = some created := rfl
  have hread : Codec.instant.decode (.str "-0001-12-31T23:59:60.999999999Z") = .ok created := by
    decide +kernel
  obtain ⟨hshown, -, hdecode, -, -, hencode⟩ := truncated_cells hcreated hread conv ctx none
  obtain ⟨hmember, -⟩ := hencode x.metadata
  have hrow := hshown x.toObject rfl rfl
  rw [htext] at hrow hdecode hmember
  exact ⟨hcreated, hread, hrow, hdecode, hmember⟩

end Convertor

end ResourceTable
