import Mathlib.Algebra.Group.Nat.Defs
import ResourceTable.Decimal.Digits
import ResourceTable.Proofs.Time.Calendar
import ResourceTable.Time.Format
import ResourceTable.Time.Strict

namespace ResourceTable

namespace Decimal

theorem isDigit_of_mem_fixed {width n : Nat} {c : Char} (h : c ∈ fixed width n) :
    c.isDigit = true := by
  induction width generalizing n with
  | zero => cases h
  | succ w ih =>
    rw [fixed, List.mem_append, List.mem_singleton] at h
    rcases h with h | rfl
    · exact ih h
    · rw [Nat.isDigit_digitChar]
      exact decide_eq_true (Nat.mod_lt n (by decide))

theorem ofDigitChars_fixed (width n : Nat) :
    Nat.ofDigitChars 10 (fixed width n) 0 = n % 10 ^ width := by
  induction width generalizing n with
  | zero => simp [fixed, Nat.mod_one]
  | succ w ih =>
    rw [fixed, Nat.ofDigitChars_append, ih,
      Nat.ofDigitChars_cons_digitChar_of_lt_ten (Nat.mod_lt n (by decide)),
      Nat.ofDigitChars_nil, Nat.pow_succ, Nat.mul_comm (10 ^ w) 10, Nat.mod_mul]
    omega

theorem ofDigitChars_lt {ds : List Char} (h : ∀ c ∈ ds, c.isDigit = true) :
    Nat.ofDigitChars 10 ds 0 < 10 ^ ds.length := by
  suffices ∀ n, Nat.ofDigitChars 10 ds n < (n + 1) * 10 ^ ds.length by simpa using this 0
  induction ds with
  | nil => simp
  | cons c ds ih =>
    intro n
    have hc := Char.isDigit_iff_toNat.1 (h c List.mem_cons_self)
    have hrest := ih (fun d hd => h d (List.mem_cons_of_mem _ hd)) (10 * n + (c.toNat - '0'.toNat))
    rw [Nat.ofDigitChars_cons, List.length_cons, Nat.pow_succ, Nat.mul_comm _ 10, ← Nat.mul_assoc]
    refine Nat.lt_of_lt_of_le hrest (Nat.mul_le_mul_right _ ?_)
    have h0 : '0'.toNat = 48 := rfl
    have h9 : '9'.toNat = 57 := rfl
    omega

end Decimal

namespace Time

open Decimal

theorem nanosOf_fixed {width n : Nat} (hw : width ≤ 9) (hn : n < 10 ^ width) :
    nanosOf (fixed width n) = n * 10 ^ (9 - width) := by
  rw [nanosOf, List.take_of_length_le (by simpa using hw), List.rightpad, Nat.ofDigitChars_append,
    Nat.ofDigitChars_replicate_zero, ofDigitChars_fixed, length_fixed, Nat.mod_eq_of_lt hn,
    Nat.mul_comm]

theorem nanosOf_lt {ds : List Char} (h : ∀ c ∈ ds, c.isDigit = true) :
    nanosOf ds < 1000000000 := by
  have hdigits : ∀ c ∈ (ds.take 9).rightpad 9 '0', c.isDigit = true := by
    intro c hc
    rcases List.mem_append.1 hc with hc | hc
    · exact h c (List.mem_of_mem_take hc)
    · rw [List.eq_of_mem_replicate hc]
      rfl
  have hlength : ((ds.take 9).rightpad 9 '0').length = 9 := by
    rw [List.rightpad, List.length_append, List.length_take, List.length_replicate]
    omega
  have hlt := ofDigitChars_lt hdigits
  rwa [hlength] at hlt

/-- Month, day and time of day, each behind its separator. -/
def Civil.afterYear (c : Civil) : List Char :=
  '-' :: fixed 2 c.date.month ++ '-' :: fixed 2 c.date.day ++
    'T' :: fixed 2 c.hour ++ ':' :: fixed 2 c.minute ++ ':' :: fixed 2 c.second

theorem Civil.text_eq (c : Civil) : c.text = yearText c.date.year ++ c.afterYear := by
  simp only [text, afterYear, List.append_assoc]

namespace Strict

theorem number?_eq_some_iff {width n : Nat} {s r : List Char} :
    number? width s = some (n, r) ↔ ∃ ds : List Char, ds.length = width ∧
      (∀ c ∈ ds, c.isDigit = true) ∧ Nat.ofDigitChars 10 ds 0 = n ∧ s = ds ++ r := by
  rw [number?]
  constructor
  · intro h
    split at h
    · next hds =>
      cases h
      exact ⟨s.take width, hds.1, List.all_eq_true.1 hds.2, rfl, (List.take_append_drop _ _).symm⟩
    · cases h
  · rintro ⟨ds, rfl, hdigits, rfl, rfl⟩
    rw [List.take_left, List.drop_left, if_pos ⟨rfl, List.all_eq_true.2 hdigits⟩]

theorem skip?_eq_some_iff {p : Char → Bool} {s r : List Char} :
    skip? p s = some r ↔ ∃ c, p c = true ∧ s = c :: r := by
  cases s with
  | nil => simp [skip?]
  | cons c s =>
    simp only [skip?, Option.ite_none_right_eq_some, Option.some.injEq, List.cons.injEq]
    constructor
    · rintro ⟨hc, rfl⟩
      exact ⟨c, hc, rfl, rfl⟩
    · rintro ⟨_, hc, rfl, rfl⟩
      exact ⟨hc, rfl⟩

theorem number?_fixed {width n : Nat} (hn : n < 10 ^ width) (s : List Char) :
    number? width (fixed width n ++ s) = some (n, s) := by
  have hdigits : (fixed width n).all Char.isDigit = true :=
    List.all_eq_true.2 fun c hc => isDigit_of_mem_fixed hc
  simp only [number?, List.take_left' (length_fixed width n),
    List.drop_left' (length_fixed width n), length_fixed, ofDigitChars_fixed, Nat.mod_eq_of_lt hn,
    hdigits]
  rfl

theorem number?_of_not_isDigit {width : Nat} {c : Char} (s : List Char)
    (hc : c.isDigit = false) : number? (width + 1) (c :: s) = none := by
  simp [number?, hc]

theorem fraction?_digits {ds r : List Char} (hne : ds ≠ []) (hds : ∀ c ∈ ds, c.isDigit = true)
    (hr : ∀ c ∈ r.head?, c.isDigit = false) :
    fraction? ('.' :: ds ++ r) = some (nanosOf ds, r) := by
  have hstop : r.takeWhile Char.isDigit = [] ∧ r.dropWhile Char.isDigit = r := by
    cases r with
    | nil => exact ⟨rfl, rfl⟩
    | cons c r => simp [hr c rfl]
  have htake : (ds ++ r).takeWhile Char.isDigit = ds := by
    rw [List.takeWhile_append_of_pos hds, hstop.1, List.append_nil]
  have hdrop : (ds ++ r).dropWhile Char.isDigit = r := by
    rw [List.dropWhile_append_of_pos hds, hstop.2]
  rw [List.cons_append, fraction?]
  simp only [htake, hdrop, List.isEmpty_eq_false_iff.2 hne]
  rfl

theorem fraction?_of_no_point {r : List Char} (hr : '.' ∉ r.head?) :
    fraction? r = some (0, r) := by
  rw [fraction?.eq_def]
  split
  · exact absurd rfl hr
  · rfl

theorem fraction?_fixed {width n : Nat} (h0 : 0 < width) (hw : width ≤ 9) (hn : n < 10 ^ width)
    (s : List Char) :
    fraction? ('.' :: fixed width n ++ 'Z' :: s) = some (n * 10 ^ (9 - width), 'Z' :: s) := by
  have hne : fixed width n ≠ [] := by
    rw [← List.length_pos_iff, length_fixed]
    exact h0
  rw [fraction?_digits hne (fun c hc => isDigit_of_mem_fixed hc) (by simp), nanosOf_fixed hw hn]

theorem fraction?_fractionText {nano : Nat} (h : nano < 1000000000) (s : List Char) :
    fraction? (fractionText nano ++ 'Z' :: s) = some (nano, 'Z' :: s) := by
  rw [fractionText]
  split
  · next h0 => rw [h0]; rfl
  · split
    · next h6 =>
      rw [fraction?_fixed (by decide) (by decide) (by omega)]
      congr 2
      omega
    · split
      · next h3 =>
        rw [fraction?_fixed (by decide) (by decide) (by omega)]
        congr 2
        omega
      · rw [fraction?_fixed (by decide) (by decide) h]
        congr 2
        omega

/-- The civil time that follows its year. -/
def civilFrom? (year : Int) (s : List Char) : Option (Civil × List Char) := do
  let s ← skip? (· == '-') s
  let (month, s) ← number? 2 s
  let s ← skip? (· == '-') s
  let (day, s) ← number? 2 s
  let s ← skip? isSeparator s
  let (hour, s) ← number? 2 s
  let s ← skip? (· == ':') s
  let (minute, s) ← number? 2 s
  let s ← skip? (· == ':') s
  let (second, s) ← number? 2 s
  let (nano, s) ← fraction? s
  let date : Date := ⟨year, month, day⟩
  if date.isValid ∧ hour < 24 ∧ minute < 60 ∧ second ≤ 60 then
    return (⟨date, hour, minute, second, nano⟩, s)
  else none

theorem civil?_eq (s : List Char) :
    civil? s = (number? 4 s).bind fun (year, s) => civilFrom? year s := rfl

/-- A civil time of any year, with any separator and any fraction. -/
theorem civilFrom?_append {c : Civil} {separator : Char} {s r : List Char}
    (hdate : c.date.isValid = true) (hseparator : isSeparator separator = true)
    (hhour : c.hour < 24) (hminute : c.minute < 60) (hsecond : c.second ≤ 60)
    (hfraction : fraction? s = some (c.nano, r)) :
    civilFrom? c.date.year ('-' :: fixed 2 c.date.month ++ '-' :: fixed 2 c.date.day ++
      separator :: fixed 2 c.hour ++ ':' :: fixed 2 c.minute ++ ':' :: fixed 2 c.second ++ s) =
        some (c, r) := by
  obtain ⟨-, hmonth, -, -⟩ := Date.isValid_iff.1 hdate
  have hday := Date.day_le hdate
  simp only [civilFrom?, List.append_assoc, List.cons_append]
  simp only [Option.bind_eq_bind, Option.bind_some, skip?, beq_self_eq_true, if_true]
  rw [number?_fixed (by omega)]
  simp only [Option.bind_some, beq_self_eq_true, if_true]
  rw [number?_fixed (by omega)]
  simp only [Option.bind_some, hseparator, if_true]
  rw [number?_fixed (by omega)]
  simp only [Option.bind_some, beq_self_eq_true, if_true]
  rw [number?_fixed (by omega)]
  simp only [Option.bind_some, beq_self_eq_true, if_true]
  rw [number?_fixed (by omega), Option.bind_some, hfraction, Option.bind_some]
  exact if_pos ⟨hdate, hhour, hminute, hsecond⟩

theorem civilFrom?_afterYear {c : Civil} (hdate : c.date.isValid = true) (hhour : c.hour < 24)
    (hminute : c.minute < 60) (hsecond : c.second ≤ 60) (hnano : c.nano < 1000000000)
    (s : List Char) :
    civilFrom? c.date.year (c.afterYear ++ fractionText c.nano ++ 'Z' :: s) =
      some (c, 'Z' :: s) := by
  rw [Civil.afterYear, List.append_assoc]
  exact civilFrom?_append hdate rfl hhour hminute hsecond (fraction?_fractionText hnano s)

theorem civil?_text {c : Civil} (hyear : 0 ≤ c.date.year ∧ c.date.year ≤ 9999)
    (hdate : c.date.isValid = true) (hhour : c.hour < 24) (hminute : c.minute < 60)
    (hsecond : c.second ≤ 60) (hnano : c.nano < 1000000000) (s : List Char) :
    civil? (c.text ++ fractionText c.nano ++ 'Z' :: s) = some (c, 'Z' :: s) := by
  have hfrom := civilFrom?_afterYear hdate hhour hminute hsecond hnano s
  have hy : (c.date.year.toNat : Int) = c.date.year := Int.toNat_of_nonneg hyear.1
  rw [civil?_eq, Civil.text_eq, yearText, if_pos hyear, List.append_assoc, List.append_assoc,
    number?_fixed (by omega), Option.bind_some]
  show civilFrom? (c.date.year.toNat : Int) _ = _
  rwa [hy, ← List.append_assoc]

theorem civil?_eq_none {c : Char} (s : List Char) (hc : c.isDigit = false) :
    civil? (c :: s) = none := by
  rw [civil?, number?_of_not_isDigit s hc]
  rfl

theorem isRegular_of_instant? {s : String} {t : Instant} (h : instant? s = some t) :
    t.IsRegular := by
  obtain ⟨⟨c, r⟩, -, h⟩ := Option.bind_eq_some_iff.1 h
  obtain ⟨⟨offset, r'⟩, -, h⟩ := Option.bind_eq_some_iff.1 h
  dsimp only at h
  split at h
  · exact Instant.isRegular_of_toInstant? h
  · cases h

/-- What the strict reading gives of a written instant. -/
theorem instant?_text (t : Instant) :
    instant? t.text = if 0 ≤ t.year ∧ t.year ≤ 9999 then some t.regular else none := by
  rw [instant?, Instant.text, String.toList_ofList]
  split
  · next hyear =>
    obtain ⟨hhour, hminute, hsecond⟩ := t.toCivil_bounds
    have hcivil := civil?_text hyear t.isValid_toCivil hhour hminute hsecond t.nano_lt []
    rw [show t.toCivil.text ++ fractionText t.nano ++ ['Z'] =
      t.toCivil.text ++ fractionText t.toCivil.nano ++ ['Z'] from rfl, hcivil]
    exact t.toInstant?_toCivil
  · next hyear =>
    have hyear' : ¬ (0 ≤ t.toCivil.date.year ∧ t.toCivil.date.year ≤ 9999) := hyear
    rw [Civil.text, yearText, if_neg hyear']
    simp only [List.cons_append]
    rw [civil?_eq_none _ (by split <;> rfl)]
    rfl

end Strict

end Time

end ResourceTable
