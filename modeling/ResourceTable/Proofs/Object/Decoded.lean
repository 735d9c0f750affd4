import ResourceTable.Metadata.ListMeta
import ResourceTable.Metadata.ObjectMeta
import ResourceTable.Proofs.Object.Document
import ResourceTable.Proofs.Time.Relaxed
import ResourceTable.Proofs.Wire.Lawful

namespace ResourceTable

open Traversal

theorem Json.string?_eq_some_iff {v : Json} {s : String} : v.string? = some s ↔ v = .str s := by
  cases v <;> simp [string?]

namespace Codec

variable {v : Json}

theorem string_decode_eq_ok_iff {s : String} : string.decode v = .ok s ↔ v.string? = some s := by
  cases v <;> simp [string, scalar, wrongType, Json.string?]

theorem int64_decode_eq_ok_iff {n : Int64} : int64.decode v = .ok n ↔ v.int64? = some n := by
  cases v with
  | int k =>
    simp only [int64, integer, scalar, Json.int64?]
    split <;> simp
  | _ => simp [int64, integer, scalar, wrongType, Json.int64?]

theorem instant_decode_eq_ok_iff {t : Time.Instant} :
    instant.decode v = .ok t ↔ ∃ s, v.string? = some s ∧ Time.Relaxed.instant s = .ok t := by
  cases v with
  | str s =>
    simp only [instant, scalar, Json.string?, Option.some.injEq, exists_eq_left']
    cases Time.Relaxed.instant s <;> simp [Except.mapError]
  | _ => simp [instant, scalar, wrongType, Json.string?]

end Codec

namespace Dynamic

open Codec

variable {members : Entries Json} {key : String}

theorem text_of_takes {s : String}
    (h : (Field.compact key .string "" String.isEmpty).Takes (members.lookup key) s) :
    text (some (.obj members)) key = s := by
  rw [text, Option.bind_some, Json.member?]
  cases hv : members.lookup key with
  | none =>
    rw [hv] at h
    exact Option.some.inj h
  | some v =>
    rw [hv] at h
    rw [Option.bind_some, string_decode_eq_ok_iff.1 h]
    rfl

theorem remaining_of_takes {n : Option Int64}
    (h : (Field.compact "remainingItemCount" (.option .int64) none Option.isNone).Takes
      (members.lookup "remainingItemCount") n) :
    remaining (some (.obj members)) = n := by
  rw [remaining, Option.bind_some, Json.member?]
  cases hv : members.lookup "remainingItemCount" with
  | none =>
    rw [hv] at h
    exact Option.some.inj h
  | some v =>
    rw [hv] at h
    rw [Option.bind_some]
    rcases option_decode_eq_ok_iff.1 h with ⟨rfl, rfl⟩ | ⟨-, y, hy, rfl⟩
    · rfl
    · exact int64_decode_eq_ok_iff.1 hy

theorem created_cases {x : Option Time.Instant}
    (h : (Field.compact "creationTimestamp" (.option .instant) none Option.isNone).Takes
      (members.lookup "creationTimestamp") x) :
    (x = none ∧ created (some (.obj members)) = none ∧
        ∀ s, members.lookup "creationTimestamp" ≠ some (.str s)) ∨
      ∃ s t, members.lookup "creationTimestamp" = some (.str s) ∧ Time.Relaxed.instant s = .ok t ∧
        x = some t ∧ created (some (.obj members)) = Time.Strict.instant? s := by
  rw [created, Option.bind_eq_bind, Option.bind_some, Json.member?]
  cases hv : members.lookup "creationTimestamp" with
  | none =>
    rw [hv] at h
    refine .inl ⟨(Option.some.inj h).symm, rfl, ?_⟩
    rintro s ⟨⟩
  | some v =>
    rw [hv] at h
    rcases option_decode_eq_ok_iff.1 h with ⟨rfl, rfl⟩ | ⟨-, t, ht, rfl⟩
    · refine .inl ⟨rfl, rfl, ?_⟩
      rintro s ⟨⟩
    · obtain ⟨s, hs, hrelaxed⟩ := instant_decode_eq_ok_iff.1 ht
      rw [Json.string?_eq_some_iff] at hs
      subst hs
      exact .inr ⟨s, t, rfl, hrelaxed, rfl, rfl⟩

/-- Each time that is seen by key is the one that was decoded.  None is seen where none was decoded,
and where the text of the one that was decoded is not in strict form. -/
theorem created_of_takes {x : Option Time.Instant}
    (h : (Field.compact "creationTimestamp" (.option .instant) none Option.isNone).Takes
      (members.lookup "creationTimestamp") x) :
    (∀ t, created (some (.obj members)) = some t → x = some t) ∧
      (x = none → created (some (.obj members)) = none) ∧
      (created (some (.obj members)) ≠ x ↔
        ∃ s t, (Json.obj members).member? "creationTimestamp" = some (.str s) ∧
          Time.Relaxed.instant s = .ok t ∧ Time.Strict.instant? s = none) := by
  rcases created_cases h with ⟨rfl, hcreated, hno⟩ | ⟨s, t, hs, hrelaxed, rfl, hcreated⟩
  · refine ⟨fun t ht => hcreated.symm.trans ht, fun _ => hcreated, ?_⟩
    refine iff_of_false (fun hne => hne hcreated) ?_
    rintro ⟨s, t, hs, -⟩
    exact hno s hs
  · have hsome (t : Time.Instant) : some t ≠ none := Option.some_ne_none t
    rw [hcreated]
    cases hstrict : Time.Strict.instant? s with
    | none =>
      exact ⟨fun t' heq => absurd heq.symm (hsome t'), fun heq => absurd heq (hsome t),
        iff_of_true (hsome t).symm ⟨s, t, hs, hrelaxed, hstrict⟩⟩
    | some t' =>
      obtain rfl : t' = t :=
        Except.ok.inj ((Time.Relaxed.instant_of_instant? hstrict).symm.trans hrelaxed)
      refine ⟨fun _ heq => heq, fun heq => absurd heq (hsome t'),
        iff_of_false (fun hne => hne rfl) ?_⟩
      rintro ⟨s', t, hs', -, hnone⟩
      cases hs.symm.trans hs'
      rw [hstrict] at hnone
      cases hnone

theorem listInfo_of_decode {m : Json} {x : ListMeta} (hm : m.WellFormed)
    (hobject : m.isObject = true) (h : ListMeta.codec.decode m = .ok x) :
    listInfo (some m) = x.info := by
  cases hm with
  | obj ascending each =>
    rw [ListMeta.codec, Fields.decode_obj_eq_ok_iff (by decide) ascending.nodup_keys] at h
    obtain ⟨⟨selfLink, resourceVersion, continueToken, count, ⟨⟩⟩,
      ⟨hselfLink, hresourceVersion, hcontinueToken, hcount, -⟩, rfl⟩ := h
    simp only [listInfo, commonInfo, ListMeta.info, text_of_takes hselfLink,
      text_of_takes hresourceVersion, text_of_takes hcontinueToken, remaining_of_takes hcount]
  | _ => cases hobject

end Dynamic

/-- What decodes as metadata reads the same by key, but for a creation time in relaxed form alone:
that one is decoded and is not seen by key. -/
theorem ObjectMeta.readers_agree {m : Json} {x : ObjectMeta} (hm : m.WellFormed)
    (hobject : m.isObject = true) (h : codec.decode m = .ok x) :
    ∃ info, (Document.toObject ⟨.obj [("metadata", m)]⟩).objectInfo? = some info ∧
      info.name = x.name ∧ info.namespaceName = x.namespaceName ∧
      info.resourceVersion = x.resourceVersion ∧ info.selfLink = x.selfLink ∧
      (∀ t, info.created = some t → x.created = some t) ∧
      (x.created = none → info.created = none) ∧
      (info.created ≠ x.created ↔
        ∃ s t, m.member? "creationTimestamp" = some (.str s) ∧ Time.Relaxed.instant s = .ok t ∧
          Time.Strict.instant? s = none) := by
  have hsingle : (Json.obj [("metadata", m)]).IsSingle := ⟨rfl, nofun⟩
  refine ⟨Dynamic.objectInfo (some m), ?_, ?_⟩
  · rw [Document.toObject, Json.toObject_of_isSingle hsingle]
    rfl
  · cases hm with
    | obj ascending each =>
      rw [codec, Fields.decode_obj_eq_ok_iff (by decide) ascending.nodup_keys] at h
      obtain ⟨⟨name, namespaceName, uid, resourceVersion, selfLink, created, labels, annotations,
        ⟨⟩⟩, ⟨hname, hnamespace, -, hresourceVersion, hselfLink, hcreated, -⟩, rfl⟩ := h
      exact ⟨Dynamic.text_of_takes hname, Dynamic.text_of_takes hnamespace,
        Dynamic.text_of_takes hresourceVersion, Dynamic.text_of_takes hselfLink,
        Dynamic.created_of_takes hcreated⟩
    | _ => cases hobject

theorem ObjectMeta.readers_agree_relaxed :
    let m : Json := .obj [("creationTimestamp", .str "2024-3-2 15:04:05 UTC"), ("name", .str "a")]
    let t : Time.Instant := ⟨1709391845, false, 0, by decide, by decide, by decide⟩
    m.WellFormed ∧ m.isObject = true ∧
      codec.decode m = .ok ((named "a").withCreated (some t)) ∧
      ∃ info, (Document.toObject ⟨.obj [("metadata", m)]⟩).objectInfo? = some info ∧
        info.name = "a" ∧ info.created ≠ some t := by
  intro m t
  have hm : m.WellFormed :=
    .obj (Entries.ascending_of_keys ["creationTimestamp", "name"] rfl (by decide))
      (by simp [Json.WellFormed.str])
  have hdecode : codec.decode m = .ok ((named "a").withCreated (some t)) := by decide +kernel
  obtain ⟨info, hinfo, hname, -, -, -, -, -, hdiffer⟩ := readers_agree hm rfl hdecode
  refine ⟨hm, rfl, hdecode, info, hinfo, hname, hdiffer.2 ⟨_, t, rfl, ?_, ?_⟩⟩
  · decide +kernel
  · decide +kernel

end ResourceTable
