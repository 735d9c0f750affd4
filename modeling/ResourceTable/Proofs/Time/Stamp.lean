import ResourceTable.Proofs.Time.Strict

namespace ResourceTable.Time

open Decimal

def numberAt (s : String) (n width : Nat) : Nat :=
  Nat.ofDigitChars 10 ((s.toList.drop n).take width) 0

/-- `YYYY-MM-DDTHH:MM:SSZ`, with a date that the calendar has and a time of day; the second is 60 in
a leap second. -/
structure IsStamp (s : String) : Prop where
  shape : (s.toList.map fun c => if c.isDigit then '0' else c) = "0000-00-00T00:00:00Z".toList
  date : (Date.mk (numberAt s 0 4) (numberAt s 5 2) (numberAt s 8 2)).isValid = true
  hour : numberAt s 11 2 < 24
  minute : numberAt s 14 2 < 60
  second : numberAt s 17 2 ≤ 60

instance (s : String) : Decidable (IsStamp s) :=
  decidable_of_iff
    ((s.toList.map fun c => if c.isDigit then '0' else c) = "0000-00-00T00:00:00Z".toList ∧
      (Date.mk (numberAt s 0 4) (numberAt s 5 2) (numberAt s 8 2)).isValid = true ∧
      numberAt s 11 2 < 24 ∧ numberAt s 14 2 < 60 ∧ numberAt s 17 2 ≤ 60)
    ⟨fun ⟨shape, date, hour, minute, second⟩ => ⟨shape, date, hour, minute, second⟩,
      fun h => ⟨h.shape, h.date, h.hour, h.minute, h.second⟩⟩

theorem shape_fixed (width n : Nat) :
    ((fixed width n).map fun c => if c.isDigit then '0' else c) = List.replicate width '0' := by
  rw [List.eq_replicate_iff, List.length_map, length_fixed]
  refine ⟨rfl, fun d hd => ?_⟩
  obtain ⟨c, hc, rfl⟩ := List.mem_map.1 hd
  exact if_pos (isDigit_of_mem_fixed hc)

theorem numberAt_ofList {s : List Char} {n width m : Nat} (hm : m < 10 ^ width)
    (hcut : (s.drop n).take width = fixed width m) : numberAt (String.ofList s) n width = m := by
  rw [numberAt, String.toList_ofList, hcut, ofDigitChars_fixed, Nat.mod_eq_of_lt hm]

theorem isStamp_text {c : Civil} (hyear : 0 ≤ c.date.year ∧ c.date.year ≤ 9999)
    (hdate : c.date.isValid = true) (hhour : c.hour < 24) (hminute : c.minute < 60)
    (hsecond : c.second ≤ 60) : IsStamp (String.ofList (c.text ++ ['Z'])) := by
  obtain ⟨-, hmonth, -, -⟩ := Date.isValid_iff.1 hdate
  have hday := Date.day_le hdate
  have hy : (c.date.year.toNat : Int) = c.date.year := Int.toNat_of_nonneg hyear.1
  rw [Civil.text_eq, yearText, if_pos hyear]
  -- the parts have fixed widths, so each of them stands at its place
  have hcut := @numberAt_ofList (fixed 4 c.date.year.toNat ++ c.afterYear ++ ['Z'])
  have hyearAt := @hcut 0 4 c.date.year.toNat (by omega) rfl
  have hmonthAt := @hcut 5 2 c.date.month (by omega) rfl
  have hdayAt := @hcut 8 2 c.date.day (by omega) rfl
  have hhourAt := @hcut 11 2 c.hour (by omega) rfl
  have hminuteAt := @hcut 14 2 c.minute (by omega) rfl
  have hsecondAt := @hcut 17 2 c.second (by omega) rfl
  constructor
  case shape =>
    rw [String.toList_ofList, Civil.afterYear]
    simp only [List.map_append, List.map_cons, shape_fixed]
    rfl
  case date =>
    rw [hyearAt, hmonthAt, hdayAt, hy]
    exact hdate
  case hour => rwa [hhourAt]
  case minute => rwa [hminuteAt]
  case second => rwa [hsecondAt]

theorem not_isStamp_of_sign {c : Char} (hc : c.isDigit = false) (h0 : c ≠ '0') (s : List Char) :
    ¬ IsStamp (String.ofList (c :: s)) := by
  intro h
  have hshape := h.shape
  rw [String.toList_ofList, List.map_cons, hc] at hshape
  exact h0 (List.cons.inj hshape).1

namespace Instant

theorem isStamp_wholeSeconds (t : Instant) :
    IsStamp t.wholeSeconds ↔ 0 ≤ t.year ∧ t.year ≤ 9999 := by
  obtain ⟨hhour, hminute, hsecond⟩ := t.toCivil_bounds
  constructor
  · intro h
    by_contra hyear
    have hyear' : ¬ (0 ≤ t.toCivil.date.year ∧ t.toCivil.date.year ≤ 9999) := hyear
    rw [wholeSeconds, Civil.text, yearText, if_neg hyear'] at h
    simp only [List.cons_append] at h
    exact not_isStamp_of_sign (by split <;> rfl) (by split <;> decide) _ h
  · exact fun hyear => isStamp_text hyear t.isValid_toCivil hhour hminute hsecond

example : IsStamp "2024-02-29T23:59:60Z" ∧ ¬ IsStamp "2023-02-29T23:59:60Z" ∧
    ¬ IsStamp "2024-02-29T24:00:00Z" ∧ ¬ IsStamp "2024-02-29T23:59:59.5Z" := by decide +kernel

theorem text_truncate (t : Instant) : t.truncate.text = t.wholeSeconds := by
  rw [text, wholeSeconds]
  show String.ofList (t.toCivil.text ++ [] ++ ['Z']) = _
  rw [List.append_nil]

theorem wholeSeconds_truncate (t : Instant) : t.truncate.wholeSeconds = t.wholeSeconds := rfl

theorem wholeSeconds_regular (t : Instant) : t.regular.wholeSeconds = t.wholeSeconds := by
  rw [wholeSeconds, toCivil_regular]
  rfl

/-- What the strict reading gives of an instant written in whole seconds. -/
theorem strict_wholeSeconds (t : Instant) :
    Strict.instant? t.wholeSeconds =
      if 0 ≤ t.year ∧ t.year ≤ 9999 then some t.truncate.regular else none := by
  rw [← text_truncate, Strict.instant?_text]
  rfl

end Instant

end ResourceTable.Time
