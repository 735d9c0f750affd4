import Mathlib.Data.Bool.Basic
import Mathlib.Data.List.Basic
import ResourceTable.Time.Instant

namespace ResourceTable.Time

theorem daysIn_monthLengths (y : Int) :
    daysBeforeYear (y + 1) = daysBeforeYear y + daysIn (monthLengths (isLeapYear y)) := by
  have hsum : (daysIn (monthLengths (isLeapYear y)) : Int) = if isLeapYear y then 366 else 365 := by
    cases isLeapYear y <;> rfl
  have hleap : isLeapYear y = true ↔ y % 4 = 0 ∧ (y % 100 ≠ 0 ∨ y % 400 = 0) := by
    simp [isLeapYear]
  rw [hsum]
  unfold daysBeforeYear
  split
  · next h =>
    have := hleap.1 h
    omega
  · next h =>
    have := mt hleap.2 h
    omega

theorem daysBeforeYear_mono {y z : Int} (h : y ≤ z) : daysBeforeYear y ≤ daysBeforeYear z := by
  unfold daysBeforeYear
  omega

theorem daysBeforeYear_yearOf (n : Int) :
    daysBeforeYear (yearOf n) ≤ n ∧ n < daysBeforeYear (yearOf n + 1) := by
  have hlow : daysBeforeYear (n * 400 / 146097 - 1) ≤ n := by
    unfold daysBeforeYear
    omega
  have hhigh : n < daysBeforeYear (n * 400 / 146097 + 1 + 1) := by
    unfold daysBeforeYear
    omega
  simp only [yearOf]
  -- each test of the guess rules out one of its two neighbours
  split
  · next h => exact ⟨hlow, by rwa [Int.sub_add_cancel]⟩
  · next h =>
    split
    · next h' => exact ⟨h', hhigh⟩
    · next h' => exact ⟨Int.not_lt.1 h, Int.not_le.1 h'⟩

/-- A day of months with given lengths: the months before it and the days of its own month. -/
theorem monthOf_spec (lengths : List Nat) (m n : Nat) (h : n < daysIn lengths) :
    ∃ k, k < lengths.length ∧ (monthOf lengths m n).1 = m + k ∧
      1 ≤ (monthOf lengths m n).2 ∧ (monthOf lengths m n).2 ≤ lengths.getD k 0 ∧
      n + 1 = daysIn (lengths.take k) + (monthOf lengths m n).2 := by
  -- each month that is passed adds its length to the sum and one to the index
  induction lengths generalizing m n with
  | nil => cases h
  | cons length rest ih =>
    rw [monthOf]
    split
    · next hlt => exact ⟨0, by simp, rfl, by simp, hlt, by simp [daysIn]⟩
    · next hge =>
      rw [daysIn] at h
      obtain ⟨k, hk, hmonth, hlow, hhigh, hsum⟩ := ih (m + 1) (n - length) (by omega)
      refine ⟨k + 1, by simpa using hk, by omega, hlow, by simpa using hhigh, ?_⟩
      rw [List.take_succ_cons, daysIn]
      omega

namespace Date

def monthLength (d : Date) : Nat := (monthLengths (isLeapYear d.year)).getD (d.month - 1) 0

theorem isValid_iff {d : Date} :
    d.isValid = true ↔ 1 ≤ d.month ∧ d.month ≤ 12 ∧ 1 ≤ d.day ∧ d.day ≤ d.monthLength := by
  simp only [isValid, monthLength, Bool.and_eq_true, decide_eq_true_eq, and_assoc]

end Date

theorem monthOf_date {d : Date} {y : Int} {r : Nat} (hyear : d.year = y)
    (hr : r < daysIn (monthLengths (isLeapYear y)))
    (hdate : (d.month, d.day) = monthOf (monthLengths (isLeapYear y)) 1 r) :
    d.isValid = true ∧ d.toDays = daysBeforeYear y - daysBeforeYear 1970 + r := by
  have hlength : (monthLengths (isLeapYear y)).length = 12 := by
    cases isLeapYear y <;> rfl
  obtain ⟨k, hk, hmonth, hday, hmost, hsum⟩ := monthOf_spec (monthLengths (isLeapYear y)) 1 r hr
  rw [← hdate] at hmonth hday hmost hsum
  dsimp only at hmonth hday hmost hsum
  have hprev : d.month - 1 = k := by omega
  simp only [Date.isValid_iff, Date.monthLength, Date.toDays, hyear, hprev]
  exact ⟨⟨by omega, by omega, hday, hmost⟩, by omega⟩

theorem ofDays_spec (n : Int) : (Date.ofDays n).isValid = true ∧ (Date.ofDays n).toDays = n := by
  obtain ⟨hlow, hhigh⟩ := daysBeforeYear_yearOf (n + daysBeforeYear 1970)
  rw [daysIn_monthLengths] at hhigh
  obtain ⟨hvalid, hdays⟩ := monthOf_date (d := Date.ofDays n)
    (y := yearOf (n + daysBeforeYear 1970))
    (r := (n + daysBeforeYear 1970 - daysBeforeYear (yearOf (n + daysBeforeYear 1970))).toNat)
    rfl (by omega) rfl
  exact ⟨hvalid, by omega⟩

theorem isValid_ofDays (n : Int) : (Date.ofDays n).isValid = true := (ofDays_spec n).1

theorem toDays_ofDays (n : Int) : (Date.ofDays n).toDays = n := (ofDays_spec n).2

theorem Date.day_le {d : Date} (h : d.isValid = true) : d.day ≤ 31 := by
  obtain ⟨-, -, -, hlast⟩ := isValid_iff.1 h
  have hmost : ∀ length ∈ monthLengths (isLeapYear d.year), length ≤ 31 := by
    cases isLeapYear d.year <;> decide
  refine Nat.le_trans hlast ?_
  rw [monthLength, List.getD_eq_getElem?_getD]
  cases hk : (monthLengths (isLeapYear d.year))[d.month - 1]? with
  | none => simp
  | some length => exact hmost length (List.mem_of_getElem? hk)

namespace Instant

def year (t : Instant) : Int := t.toCivil.date.year

theorem year_range (t : Instant) : minYear ≤ t.year ∧ t.year ≤ maxYear := by
  obtain ⟨hlow, hhigh⟩ := daysBeforeYear_yearOf (t.second / 86400 + daysBeforeYear 1970)
  have hmin := t.min_le
  have hmax := t.le_max
  have hyear : t.year = yearOf (t.second / 86400 + daysBeforeYear 1970) := rfl
  rw [← hyear] at hlow hhigh
  have hminDays : minSecond = (daysBeforeYear minYear - daysBeforeYear 1970) * 86400 := by decide
  have hmaxDays :
      maxSecond = (daysBeforeYear (maxYear + 1) - daysBeforeYear 1970) * 86400 - 1 := by decide
  constructor
  · by_contra h
    have := daysBeforeYear_mono (y := t.year + 1) (z := minYear) (by omega)
    omega
  · by_contra h
    have := daysBeforeYear_mono (y := maxYear + 1) (z := t.year) (by omega)
    omega

theorem isValid_toCivil (t : Instant) : t.toCivil.date.isValid = true := isValid_ofDays _

theorem toCivil_bounds (t : Instant) :
    t.toCivil.hour < 24 ∧ t.toCivil.minute < 60 ∧ t.toCivil.second ≤ 60 := by
  have hmark := t.leap.toNat_le
  simp only [toCivil]
  omega

/-- A leap second comes only at the end of a minute. -/
def IsRegular (t : Instant) : Prop := t.leap = true → t.second % 60 = 59

instance (t : Instant) : Decidable t.IsRegular :=
  inferInstanceAs (Decidable (t.leap = true → t.second % 60 = 59))

theorem isRegular_iff {t : Instant} :
    t.IsRegular ↔ t.leap = false ∨ t.leap = true ∧ t.second % 60 = 59 := by
  unfold IsRegular
  cases t.leap <;> simp

theorem second_lt_of_not_isRegular {t : Instant} (h : ¬ t.IsRegular) : t.second < maxSecond := by
  have hlast : maxSecond % 60 = 59 := by decide
  have hle := t.le_max
  unfold IsRegular at h
  omega

/-- What the written form says: a leap second inside a minute is the second after it. -/
def regular (t : Instant) : Instant :=
  if h : t.IsRegular then t
  else ⟨t.second + 1, false, t.nano, t.nano_lt, Int.le_trans t.min_le (by omega),
    second_lt_of_not_isRegular h⟩

theorem regular_of_isRegular {t : Instant} (h : t.IsRegular) : t.regular = t := dif_pos h

theorem IsRegular.truncate {t : Instant} (h : t.IsRegular) : t.truncate.IsRegular := h

theorem isRegular_regular (t : Instant) : t.regular.IsRegular := by
  unfold regular
  split
  · next h => exact h
  · exact nofun

theorem toCivil_regular (t : Instant) : t.regular.toCivil = t.toCivil := by
  unfold regular
  split
  · rfl
  · next h =>
    have hleap : t.leap = true := by_contra fun hleap => h fun h' => absurd h' hleap
    have hinside : t.second % 60 ≠ 59 := fun hlast => h fun _ => hlast
    -- one second more stays in the minute, and so on the day
    have hday : (t.second + 1) / 86400 = t.second / 86400 := by omega
    simp only [toCivil, hday, hleap, Civil.mk.injEq, Bool.toNat_false, Bool.toNat_true, true_and,
      and_true]
    omega

/-- The second of the instant by its day and its time of day. -/
theorem second_eq {t : Instant} (h : t.IsRegular) : t.second = t.toCivil.date.toDays * 86400 +
    t.toCivil.hour * 3600 + t.toCivil.minute * 60 + (min t.toCivil.second 59 : Nat) := by
  have hdays : t.toCivil.date.toDays = t.second / 86400 := toDays_ofDays _
  rw [hdays]
  rcases isRegular_iff.1 h with hleap | ⟨hleap, hlast⟩
  · simp only [toCivil, hleap, Bool.toNat_false]
    omega
  · simp only [toCivil, hleap, Bool.toNat_true]
    omega

theorem leap_iff {t : Instant} (h : t.IsRegular) : t.leap = true ↔ t.toCivil.second = 60 := by
  rcases isRegular_iff.1 h with hleap | ⟨hleap, hlast⟩
  · simp only [toCivil, hleap, Bool.toNat_false, Bool.false_eq_true, false_iff]
    omega
  · simp only [toCivil, hleap, Bool.toNat_true, true_iff]
    omega

theorem toInstant?_toCivil (t : Instant) : t.toCivil.toInstant? 0 = some t.regular := by
  have hregular := t.isRegular_regular
  rw [← t.toCivil_regular]
  generalize t.regular = r at hregular
  have hsecond : r.toCivil.date.toDays * 86400 + r.toCivil.hour * 3600 +
      (r.toCivil.minute - 0) * 60 + (min r.toCivil.second 59 : Nat) = r.second := by
    rw [Int.sub_zero]
    exact (second_eq hregular).symm
  have hleap : (r.toCivil.second == 60) = r.leap := by
    rw [Bool.eq_iff_iff, beq_iff_eq]
    exact (leap_iff hregular).symm
  simp only [Civil.toInstant?, hsecond, hleap]
  exact dif_pos ⟨r.nano_lt, r.min_le, r.le_max⟩

/-- Offsets are whole minutes, so civil times name no leap second inside a minute. -/
theorem isRegular_of_toInstant? {c : Civil} {offset : Int} {t : Instant}
    (h : c.toInstant? offset = some t) : t.IsRegular := by
  simp only [Civil.toInstant?] at h
  split at h
  · cases h
    intro hleap
    rw [beq_iff_eq] at hleap
    dsimp only
    omega
  · cases h

end Instant

end ResourceTable.Time
