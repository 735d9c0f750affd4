import Mathlib.Data.Bool.Basic
import Mathlib.Data.Int.Order.Basic
import Mathlib.Data.Prod.Lex
import ResourceTable.Proofs.Decimal.Order
import ResourceTable.Proofs.Time.Days
import ResourceTable.Proofs.Time.Stamp

namespace ResourceTable.Time

open Decimal Text

theorem daysIn_take_mono (lengths : List Nat) {k k' : Nat} (h : k ≤ k') :
    daysIn (lengths.take k) ≤ daysIn (lengths.take k') := by
  have hle := daysIn_take_le (lengths.take k') k
  rwa [List.take_take, Nat.min_eq_left h] at hle

namespace Date

variable {d d' : Date}

theorem toDays_lt_of_year (h : d.isValid = true) (h' : d'.isValid = true)
    (hyear : d.year < d'.year) : d.toDays < d'.toDays := by
  obtain ⟨-, hlast⟩ := toDays_bounds h
  obtain ⟨hfirst, -⟩ := toDays_bounds h'
  have hyears := daysBeforeYear_mono (show d.year + 1 ≤ d'.year by omega)
  omega

theorem toDays_lt_of_month (h : d.isValid = true) (h' : d'.isValid = true)
    (hyear : d.year = d'.year) (hmonth : d.month < d'.month) : d.toDays < d'.toDays := by
  obtain ⟨-, -, hday, hlast⟩ := isValid_iff.1 h
  obtain ⟨-, -, hday', -⟩ := isValid_iff.1 h'
  have htake := daysIn_take_month h
  have hmonths := daysIn_take_mono (monthLengths (isLeapYear d.year))
    (show d.month ≤ d'.month - 1 by omega)
  rw [toDays, toDays, ← hyear]
  omega

theorem compare_toDays (h : d.isValid = true) (h' : d'.isValid = true) :
    compare d.toDays d'.toDays = (compare d.year d'.year).then
      ((compare d.month d'.month).then (compare d.day d'.day)) := by
  refine compare_eq_then (toDays_lt_of_year h h') (toDays_lt_of_year h' h) fun hyear =>
    compare_eq_then (toDays_lt_of_month h h' hyear) (toDays_lt_of_month h' h hyear.symm)
      fun hmonth => ?_
  have hbefore : d.toDays - d.day = d'.toDays - d'.day := by
    rw [toDays, toDays, hyear, hmonth]
    omega
  exact compare_eq_compare (by omega) (by omega) (by omega)

end Date

namespace Instant

def key (t : Instant) : Int ×ₗ Bool ×ₗ Nat := toLex (t.second, toLex (t.leap, t.nano))

theorem key_injective : Function.Injective key := by
  rintro ⟨second, leap, nano⟩ ⟨second', leap', nano'⟩ h
  cases h
  rfl

/-- The order of time.  A leap second comes after the second that it is kept as, and before the next
minute. -/
instance : LinearOrder Instant := LinearOrder.lift' key key_injective

variable {t t' : Instant}

theorem lt_iff : t < t' ↔ t.second < t'.second ∨
    t.second = t'.second ∧ (t.leap < t'.leap ∨ t.leap = t'.leap ∧ t.nano < t'.nano) := by
  show t.key < t'.key ↔ _
  simp only [key, Prod.Lex.toLex_lt_toLex]

theorem truncate_lt_iff : t.truncate < t'.truncate ↔
    t.second < t'.second ∨ t.second = t'.second ∧ ¬ t.leap = true ∧ t'.leap = true := by
  rw [lt_iff]
  simp [truncate, Bool.lt_iff]

theorem truncate_eq_iff : t.truncate = t'.truncate ↔
    t.second = t'.second ∧ (t.leap = true ↔ t'.leap = true) := by
  simp [truncate]

theorem truncate_lt_of_leap (h : t.leap = true) (h' : t'.leap = false) :
    if t'.second ≤ t.second then t'.truncate < t.truncate else t.truncate < t'.truncate := by
  have hplain : ¬ t'.leap = true := Bool.not_eq_true _ ▸ h'
  split
  · next hle =>
    exact truncate_lt_iff.2 ((Int.lt_or_eq_of_le hle).imp id fun heq => ⟨heq, hplain, h⟩)
  · next hlater => exact truncate_lt_iff.2 (.inl (Int.not_le.1 hlater))

/-- Instants in whole seconds are in the order of their days, hours, minutes and seconds. -/
theorem compare_truncate (h : t.IsRegular) (h' : t'.IsRegular) : compare t.truncate t'.truncate =
    (compare t.toCivil.date.toDays t'.toCivil.date.toDays).then
      ((compare t.toCivil.hour t'.toCivil.hour).then
        ((compare t.toCivil.minute t'.toCivil.minute).then
          (compare t.toCivil.second t'.toCivil.second))) := by
  obtain ⟨hhour, hminute, hsecond⟩ := t.toCivil_bounds
  obtain ⟨hhour', hminute', hsecond'⟩ := t'.toCivil_bounds
  have hcount := second_eq h
  have hcount' := second_eq h'
  -- the first part that differs decides: each part counts for more than all parts behind it
  refine compare_eq_then ?_ ?_ fun hday => compare_eq_then ?_ ?_ fun hhours =>
    compare_eq_then ?_ ?_ fun hminutes => compare_eq_compare ?_ ?_ ?_
  all_goals
    simp only [truncate_lt_iff, truncate_eq_iff, leap_iff h, leap_iff h']
    omega

end Instant

structure Civil.Fits (c : Civil) : Prop where
  year : 0 ≤ c.date.year ∧ c.date.year ≤ 9999
  month : c.date.month < 10 ^ 2
  day : c.date.day < 10 ^ 2
  hour : c.hour < 10 ^ 2
  minute : c.minute < 10 ^ 2
  second : c.second < 10 ^ 2

/-- Civil times are written in the order of their parts. -/
theorem Civil.compare_text {c c' : Civil} (h : c.Fits) (h' : c'.Fits) (s : List Char) :
    compare (utf8 (c.text ++ s)) (utf8 (c'.text ++ s)) =
      (compare c.date.year c'.date.year).then ((compare c.date.month c'.date.month).then
        ((compare c.date.day c'.date.day).then ((compare c.hour c'.hour).then
          ((compare c.minute c'.minute).then (compare c.second c'.second))))) := by
  obtain ⟨hlow, hhigh⟩ := h.year
  obtain ⟨hlow', hhigh'⟩ := h'.year
  have hyear : compare c.date.year.toNat c'.date.year.toNat =
      compare c.date.year c'.date.year :=
    compare_eq_compare (by omega) (by omega) (by omega)
  have hrest : compare (utf8 s) (utf8 s) = .eq := Std.ReflCmp.compare_self
  rw [text, text, yearText, yearText, if_pos h.year, if_pos h'.year]
  simp only [List.append_assoc, List.cons_append]
  rw [compare_fixed (by omega) (by omega), compare_utf8_cons, compare_fixed h.month h'.month,
    compare_utf8_cons, compare_fixed h.day h'.day, compare_utf8_cons, compare_fixed h.hour h'.hour,
    compare_utf8_cons, compare_fixed h.minute h'.minute, compare_utf8_cons,
    compare_fixed h.second h'.second, hrest, hyear, Ordering.then_eq]

namespace Instant

theorem fits_toCivil {t : Instant} (h : 0 ≤ t.year ∧ t.year ≤ 9999) : t.toCivil.Fits := by
  obtain ⟨-, hmonth, -, -⟩ := Date.isValid_iff.1 t.isValid_toCivil
  have hday := Date.day_le t.isValid_toCivil
  obtain ⟨hhour, hminute, hsecond⟩ := t.toCivil_bounds
  exact ⟨h, by omega, by omega, by omega, by omega, by omega⟩

/-- In years of four digits, whole seconds as bytes are in the order of time. -/
theorem compare_wholeSeconds {t t' : Instant} (hregular : t.IsRegular) (hregular' : t'.IsRegular)
    (h : 0 ≤ t.year ∧ t.year ≤ 9999) (h' : 0 ≤ t'.year ∧ t'.year ≤ 9999) :
    compare (bytes t.wholeSeconds) (bytes t'.wholeSeconds) = compare t.truncate t'.truncate := by
  rw [wholeSeconds, wholeSeconds, bytes_ofList, bytes_ofList,
    Civil.compare_text (fits_toCivil h) (fits_toCivil h'),
    compare_truncate hregular hregular', Date.compare_toDays t.isValid_toCivil t'.isValid_toCivil,
    Ordering.then_assoc, Ordering.then_assoc]

theorem wholeSeconds_eq_iff {t t' : Instant} (hregular : t.IsRegular) (hregular' : t'.IsRegular)
    (h : 0 ≤ t.year ∧ t.year ≤ 9999) :
    t.wholeSeconds = t'.wholeSeconds ↔ t.truncate = t'.truncate := by
  constructor
  · intro heq
    have hread := t.strict_wholeSeconds
    rw [heq, t'.strict_wholeSeconds, if_pos h] at hread
    split at hread
    · rw [regular_of_isRegular hregular.truncate, regular_of_isRegular hregular'.truncate] at hread
      exact (Option.some.inj hread).symm
    · cases hread
  · intro heq
    rw [← wholeSeconds_truncate t, heq, wholeSeconds_truncate]

end Instant

end ResourceTable.Time
