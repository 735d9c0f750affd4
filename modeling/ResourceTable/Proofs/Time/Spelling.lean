import ResourceTable.Proofs.Time.Days
import ResourceTable.Proofs.Time.Stamp

namespace ResourceTable.Time

open Decimal

inductive Zone where
  | universal (mark : Char) (mark_eq : mark = 'Z' ∨ mark = 'z')
  | shifted (sign : Char) (hours minutes : Nat)
      (sign_eq : sign = '+' ∨ sign = '-' ∨ sign = '\u2212')
      (hours_lt : hours < 24) (minutes_lt : minutes < 60)

namespace Zone

def text : Zone → List Char
  | universal mark _ => [mark]
  | shifted sign hours minutes .. => sign :: fixed 2 hours ++ ':' :: fixed 2 minutes

def offset : Zone → Int
  | universal .. => 0
  | shifted sign hours minutes .. =>
    if sign = '+' then (hours * 60 + minutes : Nat) else -((hours * 60 + minutes : Nat) : Int)

theorem offset_bounds (z : Zone) : -1440 < z.offset ∧ z.offset < 1440 := by
  cases z with
  | universal =>
    rw [offset]
    decide
  | shifted sign hours minutes =>
    rw [offset]
    split <;> omega

theorem head_text (z : Zone) : ∀ c ∈ z.text.head?, c.isDigit = false ∧ c ≠ '.' := by
  cases z with
  | universal mark mark_eq =>
    rintro _ ⟨⟩
    rcases mark_eq with rfl | rfl <;> decide
  | shifted sign hours minutes sign_eq =>
    rintro _ ⟨⟩
    rcases sign_eq with rfl | rfl | rfl <;> decide

theorem offset?_text (z : Zone) : Strict.offset? z.text = some (z.offset, []) := by
  cases z with
  | universal mark mark_eq => rcases mark_eq with rfl | rfl <;> rfl
  | shifted sign hours minutes sign_eq hours_lt minutes_lt =>
    have hhours : Strict.number? 2 (fixed 2 hours ++ ':' :: fixed 2 minutes) =
        some (hours, ':' :: fixed 2 minutes) := Strict.number?_fixed (by omega) _
    have hminutes : Strict.number? 2 (fixed 2 minutes ++ []) = some (minutes, []) :=
      Strict.number?_fixed (by omega) []
    rw [List.append_nil] at hminutes
    have hrange : hours < 24 ∧ minutes < 60 := ⟨hours_lt, minutes_lt⟩
    rcases sign_eq with rfl | rfl | rfl
    all_goals
      simp [text, offset, Strict.offset?, offsetSign?, Strict.skip?, hhours, hminutes, hrange]

end Zone

/-- A time as people spell it, in a year of four digits.  The second may be 60. -/
structure Spelling where
  date : Date
  separator : Char
  hour : Nat
  minute : Nat
  second : Nat
  fraction : List Char
  zone : Zone
  year_range : 0 ≤ date.year ∧ date.year ≤ 9999
  date_isValid : date.isValid = true
  separator_eq : separator = 'T' ∨ separator = 't' ∨ separator = ' '
  hour_lt : hour < 24
  minute_lt : minute < 60
  second_le : second ≤ 60
  fraction_digits : ∀ c ∈ fraction, c.isDigit = true

namespace Spelling

def pointText (s : Spelling) : List Char := if s.fraction = [] then [] else '.' :: s.fraction

def text (s : Spelling) : String :=
  String.ofList (fixed 4 s.date.year.toNat ++ '-' :: fixed 2 s.date.month ++
    '-' :: fixed 2 s.date.day ++ s.separator :: fixed 2 s.hour ++ ':' :: fixed 2 s.minute ++
    ':' :: fixed 2 s.second ++ s.pointText ++ s.zone.text)

/-- The minutes in universal time since midnight of the local date: negative on the day before,
1440 and more on the day after. -/
def sinceMidnight (s : Spelling) : Int := s.hour * 60 + s.minute - s.zone.offset

def universalDate (s : Spelling) : Date :=
  if s.sinceMidnight < 0 then s.date.prev
  else if s.sinceMidnight < 1440 then s.date
  else s.date.next

/-- The same time in universal time, without the fraction. -/
def universal (s : Spelling) (h : 0 ≤ s.universalDate.year ∧ s.universalDate.year ≤ 9999) :
    Spelling where
  date := s.universalDate
  separator := 'T'
  hour := (s.sinceMidnight % 1440 / 60).toNat
  minute := (s.sinceMidnight % 60).toNat
  second := s.second
  fraction := []
  zone := .universal 'Z' (.inl rfl)
  year_range := h
  date_isValid := by
    have hvalid := s.date_isValid
    unfold universalDate
    split
    · exact (Date.next_prev hvalid).1
    · split
      · exact hvalid
      · exact Date.isValid_next hvalid
  separator_eq := .inl rfl
  hour_lt := by omega
  minute_lt := by omega
  second_le := s.second_le
  fraction_digits := nofun

def minutes (s : Spelling) : Int := s.date.toDays * 1440 + s.sinceMidnight

theorem sinceMidnight_bounds (s : Spelling) : -1440 < s.sinceMidnight ∧ s.sinceMidnight < 2880 := by
  have hoffset := s.zone.offset_bounds
  have hhour := s.hour_lt
  have hminute := s.minute_lt
  unfold sinceMidnight
  omega

/-- Borrowing and carrying keep the count of minutes. -/
theorem minutes_eq (s : Spelling) :
    s.minutes = s.universalDate.toDays * 1440 + s.sinceMidnight % 1440 := by
  have hbounds := s.sinceMidnight_bounds
  have hvalid := s.date_isValid
  unfold minutes universalDate
  split
  · rw [Date.toDays_prev hvalid]
    omega
  · split
    · omega
    · rw [Date.toDays_next hvalid]
      omega

theorem minutes_universal (s : Spelling)
    (h : 0 ≤ s.universalDate.year ∧ s.universalDate.year ≤ 9999) :
    (s.universal h).minutes = s.minutes := by
  rw [s.minutes_eq, minutes, sinceMidnight]
  simp only [universal, Zone.offset]
  omega

theorem fraction?_pointText (s : Spelling) :
    ∃ nano < 1000000000,
      Strict.fraction? (s.pointText ++ s.zone.text) = some (nano, s.zone.text) := by
  have hhead := s.zone.head_text
  rw [pointText]
  split
  · exact ⟨0, by decide, Strict.fraction?_of_no_point fun h => (hhead '.' h).2 rfl⟩
  · next hne =>
    exact ⟨nanosOf s.fraction, nanosOf_lt s.fraction_digits,
      Strict.fraction?_digits hne s.fraction_digits fun c hc => (hhead c hc).1⟩

theorem civil?_text (s : Spelling) : ∃ nano < 1000000000, Strict.civil? s.text.toList =
    some (⟨s.date, s.hour, s.minute, s.second, nano⟩, s.zone.text) := by
  obtain ⟨nano, hnano, hfraction⟩ := s.fraction?_pointText
  obtain ⟨hlow, hhigh⟩ := s.year_range
  have hseparator : isSeparator s.separator = true := by
    rcases s.separator_eq with h | h | h <;> rw [h] <;> rfl
  have hfrom := Strict.civilFrom?_append (c := ⟨s.date, s.hour, s.minute, s.second, nano⟩)
    s.date_isValid hseparator s.hour_lt s.minute_lt s.second_le hfraction
  have hyear : (s.date.year.toNat : Int) = s.date.year := Int.toNat_of_nonneg hlow
  refine ⟨nano, hnano, ?_⟩
  rw [Strict.civil?_eq, text, String.toList_ofList]
  simp only [List.append_assoc] at hfrom ⊢
  rw [Strict.number?_fixed (by omega), Option.bind_some]
  show Strict.civilFrom? (s.date.year.toNat : Int) _ = _
  rwa [hyear]

theorem second_range (s : Spelling) :
    minSecond ≤ s.minutes * 60 ∧ s.minutes * 60 + 59 ≤ maxSecond := by
  have hmin : minSecond ≤ (daysBeforeYear 0 - daysBeforeYear 1970 - 1) * 86400 := by decide
  have hmax : (daysBeforeYear 10000 - daysBeforeYear 1970 + 2) * 86400 ≤ maxSecond := by decide
  obtain ⟨hlow, hhigh⟩ := s.year_range
  obtain ⟨hfirst, hlast⟩ := Date.toDays_bounds s.date_isValid
  have hyears := And.intro (daysBeforeYear_mono hlow)
    (daysBeforeYear_mono (show s.date.year + 1 ≤ 10000 by omega))
  have hbounds := s.sinceMidnight_bounds
  unfold minutes
  omega

/-- The instant lies in the second that is spelled. -/
structure Names (s : Spelling) (t : Instant) : Prop where
  second_eq : t.second = s.minutes * 60 + (min s.second 59 : Nat)
  leap_eq : t.leap = (s.second == 60)

theorem Names.congr {s s' : Spelling} {t : Instant} (h : s'.Names t)
    (hminutes : s'.minutes = s.minutes) (hsecond : s'.second = s.second) : s.Names t := by
  obtain ⟨hcount, hleap⟩ := h
  rw [hminutes, hsecond] at hcount
  rw [hsecond] at hleap
  exact ⟨hcount, hleap⟩

theorem exists_instant (s : Spelling) :
    ∃ t, Strict.instant? s.text = some t ∧ s.Names t := by
  obtain ⟨nano, hnano, hcivil⟩ := s.civil?_text
  obtain ⟨hlow, hhigh⟩ := s.second_range
  have hsecond : s.date.toDays * 86400 + s.hour * 3600 + (s.minute - s.zone.offset) * 60 +
      (min s.second 59 : Nat) = s.minutes * 60 + (min s.second 59 : Nat) := by
    unfold minutes sinceMidnight
    omega
  refine ⟨⟨s.minutes * 60 + (min s.second 59 : Nat), s.second == 60, nano, hnano, by omega,
    by omega⟩, ?_, ⟨rfl, rfl⟩⟩
  rw [Strict.instant?, hcivil]
  show (Strict.offset? s.zone.text).bind _ = _
  rw [s.zone.offset?_text]
  show Civil.toInstant? _ s.zone.offset = _
  simp only [Civil.toInstant?, hsecond]
  exact dif_pos ⟨hnano, by omega, by omega⟩

theorem toCivil_eq (s : Spelling) (h : 0 ≤ s.universalDate.year ∧ s.universalDate.year ≤ 9999)
    {t : Instant} (ht : s.Names t) : t.toCivil =
      ⟨s.universalDate, (s.universal h).hour, (s.universal h).minute, s.second, t.nano⟩ := by
  obtain ⟨hsecond, hleap⟩ := ht
  have hle := s.second_le
  have hminutes := s.minutes_eq
  have hday : t.second / 86400 = s.universalDate.toDays := by omega
  have hrest : (t.second % 86400).toNat =
      (s.sinceMidnight % 1440).toNat * 60 + min s.second 59 := by omega
  have hdate : Date.ofDays (t.second / 86400) = s.universalDate := by
    rw [hday]
    exact Date.ofDays_toDays (s.universal h).date_isValid
  have hmark : min s.second 59 + t.leap.toNat = s.second := by
    rw [hleap]
    rcases Nat.lt_or_eq_of_le hle with hlt | heq
    · rw [beq_false_of_ne (by omega), Bool.toNat_false]
      omega
    · rw [heq]
      rfl
  simp only [Instant.toCivil, hdate, hrest, universal, Civil.mk.injEq, true_and, and_true]
  omega

/-- In whole seconds the instant is written as the time spelled in universal time. -/
theorem wholeSeconds_eq (s : Spelling) (h : 0 ≤ s.universalDate.year ∧ s.universalDate.year ≤ 9999)
    {t : Instant} (ht : s.Names t) : t.wholeSeconds = (s.universal h).text := by
  rw [Instant.wholeSeconds, s.toCivil_eq h ht, Civil.text, yearText, if_pos h]
  show _ = String.ofList (_ ++ [] ++ ['Z'])
  rw [List.append_nil]
  rfl

end Spelling

end ResourceTable.Time
