import Mathlib.Data.List.Infix
import Mathlib.Data.List.TakeWhile
import ResourceTable.Proofs.Time.Strict
import ResourceTable.Proofs.Traversal
import ResourceTable.Time.Relaxed

namespace ResourceTable.Time

open Decimal Text Traversal

theorem not_isBlank_of_isDigit {c : Char} (h : c.isDigit = true) : isBlank c = false := by
  obtain ⟨hlow, hhigh⟩ := Char.isDigit_iff_toNat.1 h
  have h0 : '0'.toNat = 48 := rfl
  have h9 : '9'.toNat = 57 := rfl
  simp only [isBlank, Bool.or_eq_false_iff, Bool.and_eq_false_iff, decide_eq_false_iff_not,
    beq_eq_false_iff_ne]
  omega

theorem skipBlank_cons {c : Char} (h : isBlank c = false) (s : List Char) :
    skipBlank (c :: s) = c :: s := by
  rw [skipBlank, List.dropWhile_cons, h]
  rfl

namespace Relaxed

variable {s r : List Char}

theorem digits_append {most : Nat} {ds : List Char} (hne : ds ≠ [])
    (hds : ∀ c ∈ ds, c.isDigit = true) (hmost : ds.length ≤ most)
    (hend : ds.length = most ∨ ∀ c ∈ r.head?, c.isDigit = false) :
    digits most (ds ++ r) = .ok (ds, r) := by
  have htake : ((ds ++ r).take most).takeWhile Char.isDigit = ds := by
    rw [List.take_append, List.take_of_length_le hmost, List.takeWhile_append_of_pos hds]
    rcases hend with hlength | hhead
    · simp [hlength]
    · cases r with
      | nil => simp
      | cons c r =>
        have hc := hhead c rfl
        cases most - ds.length <;> simp [hc]
  obtain ⟨c, ds, rfl⟩ := List.exists_cons_of_ne_nil hne
  rw [List.cons_append] at htake ⊢
  simp only [digits, hds c List.mem_cons_self, if_true, htake]
  rw [← List.cons_append, List.drop_left]

theorem skipBlank_digits {ds : List Char} (hne : ds ≠ []) (hds : ∀ c ∈ ds, c.isDigit = true) :
    skipBlank (ds ++ r) = ds ++ r := by
  obtain ⟨c, ds, rfl⟩ := List.exists_cons_of_ne_nil hne
  exact skipBlank_cons (not_isBlank_of_isDigit (hds c List.mem_cons_self)) _

theorem number_of_number? {low high n : Nat} (h : Strict.number? 2 s = some (n, r))
    (hlow : low ≤ n) (hhigh : n ≤ high) : number low high s = .ok (n, r) := by
  obtain ⟨ds, hlength, hds, rfl, rfl⟩ := Strict.number?_eq_some_iff.1 h
  have hne : ds ≠ [] := List.ne_nil_of_length_pos (by omega)
  rw [number, skipBlank_digits hne hds,
    digits_append hne hds (Nat.le_of_eq hlength) (.inl hlength)]
  exact if_pos ⟨hlow, hhigh⟩

/-- A year by its digits, behind the sign if it has one. -/
def yearDigits (negative : Bool) (most : Nat) (s : List Char) : Except Fault (Int × List Char) := do
  let (ds, s) ← digits most s
  let n : Int := Nat.ofDigitChars 10 ds 0
  let y := if negative then -n else n
  if -0x80000000 ≤ y ∧ y < 0x80000000 then return (y, s) else throw .outOfRange

theorem year_minus (s : List Char) : year ('-' :: s) = yearDigits true s.length s := rfl

theorem year_plus (s : List Char) : year ('+' :: s) = yearDigits false s.length s := rfl

theorem year_unsigned {c : Char} (hs : skipBlank s = c :: r) (hminus : c ≠ '-') (hplus : c ≠ '+') :
    year s = yearDigits false 4 (c :: r) := by
  rw [year, hs]
  split
  next heq =>
    split at heq
    · next hcons => exact absurd (List.cons.inj hcons).1 hminus
    · next hcons => exact absurd (List.cons.inj hcons).1 hplus
    · cases heq
      rfl

theorem yearDigits_append {negative : Bool} {most : Nat} {ds : List Char} {y : Int} (hne : ds ≠ [])
    (hds : ∀ c ∈ ds, c.isDigit = true) (hmost : ds.length ≤ most)
    (hend : ds.length = most ∨ ∀ c ∈ r.head?, c.isDigit = false)
    (hy : (if negative then -(Nat.ofDigitChars 10 ds 0 : Int) else Nat.ofDigitChars 10 ds 0) = y)
    (hrange : -0x80000000 ≤ y ∧ y < 0x80000000) :
    yearDigits negative most (ds ++ r) = .ok (y, r) := by
  subst hy
  rw [yearDigits, digits_append hne hds hmost hend]
  exact if_pos hrange

theorem year_of_number? {n : Nat} (h : Strict.number? 4 s = some (n, r)) :
    year s = .ok ((n : Int), r) ∧ n < 10000 := by
  obtain ⟨ds, hlength, hds, rfl, rfl⟩ := Strict.number?_eq_some_iff.1 h
  have hne : ds ≠ [] := List.ne_nil_of_length_pos (by omega)
  have hlt := hlength ▸ Decimal.ofDigitChars_lt hds
  have hdigits : yearDigits false 4 (ds ++ r) = .ok ((Nat.ofDigitChars 10 ds 0 : Int), r) :=
    yearDigits_append hne hds (Nat.le_of_eq hlength) (.inl hlength) rfl (by omega)
  refine ⟨?_, hlt⟩
  rw [← hdigits]
  have hskip := skipBlank_digits (r := r) hne hds
  obtain ⟨c, ds, rfl⟩ := List.exists_cons_of_ne_nil hne
  have hc := hds c List.mem_cons_self
  refine year_unsigned hskip ?_ ?_
  · rintro rfl
    cases hc
  · rintro rfl
    cases hc

theorem skip_of_skip? {p : Char → Bool} (h : Strict.skip? p s = some r) : skip p s = .ok r := by
  obtain ⟨c, hc, rfl⟩ := Strict.skip?_eq_some_iff.1 h
  exact if_pos hc

theorem mark_of_skip? {c : Char} (hc : isBlank c = false)
    (h : Strict.skip? (· == c) s = some r) : mark c s = .ok r := by
  obtain ⟨d, hd, rfl⟩ := Strict.skip?_eq_some_iff.1 h
  rw [beq_iff_eq] at hd
  rw [mark, hd, skipBlank_cons hc]
  exact if_pos (beq_self_eq_true c)

theorem dropWhile_drop_digits (most : Nat) (s : List Char) :
    (s.drop ((s.take most).takeWhile Char.isDigit).length).dropWhile Char.isDigit =
      s.dropWhile Char.isDigit := by
  have hprefix : (s.take most).takeWhile Char.isDigit <+: s :=
    (List.takeWhile_prefix _).trans (List.take_prefix _ _)
  have hdigits : ∀ c ∈ (s.take most).takeWhile Char.isDigit, c.isDigit = true :=
    fun c hc => List.mem_takeWhile_imp hc
  conv_rhs => rw [List.prefix_append_drop hprefix, List.dropWhile_append_of_pos hdigits]

theorem nanosOf_takeWhile_take (s : List Char) :
    nanosOf ((s.take 9).takeWhile Char.isDigit) = nanosOf (s.takeWhile Char.isDigit) := by
  rw [nanosOf, nanosOf, ← List.take_takeWhile, List.take_take, Nat.min_self]

theorem fraction_of_fraction? {nano : Nat} (h : Strict.fraction? s = some (nano, r)) :
    fraction s = .ok (nano, r) := by
  rw [Strict.fraction?.eq_def] at h
  split at h
  · next rest =>
    dsimp only at h
    split at h
    · cases h
    · next hne =>
      cases h
      rw [← dropWhile_drop_digits 9, ← nanosOf_takeWhile_take]
      cases rest with
      | nil => exact absurd rfl hne
      | cons c rest =>
        have hc : c.isDigit = true := by
          by_contra hc
          exact hne (by simp [hc])
        simp only [fraction, digits, hc, if_true]
        rfl
  · next hpoint =>
    cases h
    rw [fraction.eq_def]
    split
    · next rest => exact absurd rfl (hpoint rest)
    · rfl

theorem twoDigits_of_number? {n : Nat} (h : Strict.number? 2 s = some (n, r)) :
    twoDigits s = .ok (n, r) := by
  obtain ⟨ds, hlength, hds, rfl, rfl⟩ := Strict.number?_eq_some_iff.1 h
  obtain ⟨a, b, rfl⟩ := List.length_eq_two.1 hlength
  have ha := hds a List.mem_cons_self
  have hb := hds b (List.mem_cons_of_mem _ List.mem_cons_self)
  exact if_pos (by rw [ha, hb]; rfl)

/-- The sign of an offset is none of the characters that the relaxed reading looks for first. -/
theorem offsetSign?_spec {c : Char} {negative : Bool} (h : offsetSign? c = some negative) :
    isBlank c = false ∧ c.toLower ≠ 'u' ∧ ¬ (c = 'Z' ∨ c = 'z') := by
  rw [offsetSign?.eq_def] at h
  split at h
  · decide
  · decide
  · decide
  · cases h

theorem dropWhile_colon {n : Nat} {s s' : List Char} (hcolon : Strict.skip? (· == ':') s = some s')
    (hminutes : Strict.number? 2 s' = some (n, r)) :
    s.dropWhile (fun c => c == ':' || isBlank c) = s' := by
  obtain ⟨c, hc, rfl⟩ := Strict.skip?_eq_some_iff.1 hcolon
  obtain ⟨ds, hlength, hds, -, rfl⟩ := Strict.number?_eq_some_iff.1 hminutes
  obtain ⟨a, b, rfl⟩ := List.length_eq_two.1 hlength
  have ha := hds a List.mem_cons_self
  have hne : (a == ':') = false := by
    rw [beq_eq_false_iff_ne]
    rintro rfl
    cases ha
  rw [List.dropWhile_cons, hc]
  simp [hne, not_isBlank_of_isDigit ha]

theorem offset_of_offset? {o : Int} (h : Strict.offset? s = some (o, r)) :
    offset (skipBlank s) = .ok (o, r) ∧ o.natAbs < 24 * 60 := by
  cases s with
  | nil => cases h
  | cons c s =>
    rw [Strict.offset?] at h
    split at h
    · next hc =>
      cases h
      have hblank : isBlank c = false := by rcases hc with rfl | rfl <;> decide
      rw [skipBlank_cons hblank, offset, if_neg, if_pos hc]
      · exact ⟨rfl, by decide⟩
      · intro hutc
        have hu := (List.cons.inj hutc).1
        rcases hc with rfl | rfl <;> exact absurd hu (by decide)
    · next hc =>
      simp only [Option.bind_eq_bind, Option.bind_eq_some_iff, Prod.exists] at h
      obtain ⟨negative, hsign, hours, s₁, hhours, s₂, hcolon, minutes, s₃, hminutes, h⟩ := h
      split at h
      · next hbounds =>
        cases h
        obtain ⟨hblank, hu, hz⟩ := offsetSign?_spec hsign
        -- the relaxed reading skips any colons and blanks, of which there is one colon here
        have htwo := twoDigits_of_number? hminutes
        rw [← dropWhile_colon hcolon hminutes] at htwo
        rw [skipBlank_cons hblank, offset, if_neg, if_neg hz]
        · simp only [hsign, bind_eq_ok]
          refine ⟨⟨_, twoDigits_of_number? hhours, _, htwo, if_pos hbounds.2⟩, ?_⟩
          split <;> omega
        · intro hutc
          exact hu (List.cons.inj hutc).1
      · cases h

def civilFrom (year : Int) (s : List Char) : Except Fault (Civil × List Char) := do
  let s ← mark '-' s
  let (month, s) ← number 1 12 s
  let s ← mark '-' s
  let (day, s) ← number 1 31 s
  let s ← skip isSeparator s
  let (hour, s) ← number 0 23 s
  let s ← mark ':' s
  let (minute, s) ← number 0 59 s
  let s ← mark ':' s
  let (second, s) ← number 0 60 s
  let (nano, s) ← fraction s
  return (⟨⟨year, month, day⟩, hour, minute, second, nano⟩, skipBlank s)

theorem civil_eq (s : List Char) : civil s = year s >>= fun (y, s) => civilFrom y s := rfl

theorem civilFrom_of_civilFrom? {y : Int} {c : Civil} (h : Strict.civilFrom? y s = some (c, r)) :
    civilFrom y s = .ok (c, skipBlank r) ∧ c.date.isValid = true ∧ c.date.year = y := by
  simp only [Strict.civilFrom?, Option.bind_eq_bind, Option.bind_eq_some_iff, Prod.exists] at h
  obtain ⟨s₁, hdash, month, s₂, hmonth, s₃, hdash', day, s₄, hday, s₅, hseparator, hour, s₆, hhour,
    s₇, hcolon, minute, s₈, hminute, s₉, hcolon', second, s₁₀, hsecond, nano, s₁₁, hnano, h⟩ := h
  split at h
  · next hbounds =>
    cases h
    obtain ⟨hvalid, hhours, hminutes, hseconds⟩ := hbounds
    obtain ⟨hfirst, hlast, hday₁, -⟩ := Date.isValid_iff.1 hvalid
    have hdays : day ≤ 31 := Date.day_le hvalid
    refine ⟨?_, hvalid, rfl⟩
    simp only [civilFrom, bind_eq_ok]
    exact ⟨_, mark_of_skip? rfl hdash, _, number_of_number? hmonth hfirst hlast,
      _, mark_of_skip? rfl hdash', _, number_of_number? hday hday₁ hdays,
      _, skip_of_skip? hseparator,
      _, number_of_number? hhour (Nat.zero_le _) (Nat.le_of_lt_succ hhours),
      _, mark_of_skip? rfl hcolon,
      _, number_of_number? hminute (Nat.zero_le _) (Nat.le_of_lt_succ hminutes),
      _, mark_of_skip? rfl hcolon', _, number_of_number? hsecond (Nat.zero_le _) hseconds,
      _, fraction_of_fraction? hnano, rfl⟩
  · cases h

theorem instant_eq_ok {text : String} {y o : Int} {c : Civil} {t : Instant}
    (hyear : year text.toList = .ok (y, s)) (hrange : minYear ≤ y ∧ y ≤ maxYear)
    (hcivil : Strict.civilFrom? y s = some (c, r)) (hoffset : Strict.offset? r = some (o, []))
    (ht : c.toInstant? o = some t) : instant text = .ok t := by
  obtain ⟨hcivil, hvalid, rfl⟩ := civilFrom_of_civilFrom? hcivil
  obtain ⟨hoffset, ho⟩ := offset_of_offset? hoffset
  have hfrom : civil text.toList = .ok (c, skipBlank r) := by
    rw [civil_eq, hyear]
    exact hcivil
  simp only [instant, bind_eq_ok]
  refine ⟨_, hfrom, _, hoffset, ?_⟩
  rw [if_neg (by simp [skipBlank]), if_neg (by simp [hvalid, hrange]), if_neg (Nat.not_le.2 ho), ht]
  rfl

/-- The relaxed reading agrees with the strict one where that succeeds. -/
theorem instant_of_instant? {text : String} {t : Instant} (h : Strict.instant? text = some t) :
    instant text = .ok t := by
  simp only [Strict.instant?, Strict.civil?_eq, Option.bind_eq_bind, Option.bind_eq_some_iff,
    Prod.exists] at h
  obtain ⟨c, s, ⟨n, s', hyear, hcivil⟩, o, r, hoffset, h⟩ := h
  split at h
  · next hend =>
    obtain ⟨hyear, hn⟩ := year_of_number? hyear
    rw [List.isEmpty_iff] at hend
    exact instant_eq_ok hyear (by unfold minYear maxYear; omega) hcivil (hend ▸ hoffset) h
  · cases h

theorem year_yearText {y : Int} (hy : -0x80000000 ≤ y ∧ y < 0x80000000)
    (hr : ∀ c ∈ r.head?, c.isDigit = false) : year (yearText y ++ r) = .ok (y, r) := by
  rw [yearText]
  split
  · next hplain =>
    have hnumber : Strict.number? 4 (fixed 4 y.toNat ++ r) = some (y.toNat, r) :=
      Strict.number?_fixed (by omega) r
    have hyear := (year_of_number? hnumber).1
    rwa [Int.toNat_of_nonneg hplain.1] at hyear
  · next hsigned =>
    have hds : ∀ c ∈ (Nat.toDigits 10 y.natAbs).leftpad 4 '0', c.isDigit = true := by
      intro c hc
      rcases List.mem_append.1 hc with hc | hc
      · rw [(List.mem_replicate.1 hc).2]
        rfl
      · exact Nat.isDigit_of_mem_toDigits (by decide) (by decide) hc
    -- the zeros in front count for nothing
    have hvalue : Nat.ofDigitChars 10 ((Nat.toDigits 10 y.natAbs).leftpad 4 '0') 0 = y.natAbs := by
      rw [List.leftpad, Nat.ofDigitChars_append, Nat.ofDigitChars_replicate_zero, Nat.mul_zero,
        Nat.ofDigitChars_ten_toDigits]
    have hne : (Nat.toDigits 10 y.natAbs).leftpad 4 '0' ≠ [] := by
      rw [ne_eq, List.leftpad, List.append_eq_nil_iff]
      exact fun h => Nat.toDigits_ne_nil h.2
    have hlength : ((Nat.toDigits 10 y.natAbs).leftpad 4 '0').length ≤
        ((Nat.toDigits 10 y.natAbs).leftpad 4 '0' ++ r).length := by
      rw [List.length_append]
      exact Nat.le_add_right _ _
    split
    · rw [List.cons_append, year_minus, yearDigits_append hne hds hlength (.inr hr) _ hy]
      rw [hvalue, if_pos rfl]
      omega
    · rw [List.cons_append, year_plus, yearDigits_append hne hds hlength (.inr hr) _ hy]
      rw [hvalue, if_neg Bool.false_ne_true]
      omega

theorem isRegular_of_instant {s : String} {t : Instant} (h : instant s = .ok t) :
    t.IsRegular := by
  unfold instant at h
  obtain ⟨⟨c, r⟩, -, h⟩ := Traversal.bind_eq_ok.1 h
  obtain ⟨⟨offset, r'⟩, -, h⟩ := Traversal.bind_eq_ok.1 h
  dsimp only at h
  split at h
  · cases h
  split at h
  · cases h
  split at h
  · cases h
  split at h
  · next h' =>
    cases h
    exact Instant.isRegular_of_toInstant? h'
  · cases h

/-- Written instants are read back, whatever their year. -/
theorem instant_text (t : Instant) : instant t.text = .ok t.regular := by
  obtain ⟨hhour, hminute, hsecond⟩ := t.toCivil_bounds
  have hcivil := Strict.civilFrom?_afterYear t.isValid_toCivil hhour hminute hsecond t.nano_lt []
  have hrange : minYear ≤ t.toCivil.date.year ∧ t.toCivil.date.year ≤ maxYear := t.year_range
  have hyear : year t.text.toList = .ok (t.toCivil.date.year,
      t.toCivil.afterYear ++ fractionText t.nano ++ ['Z']) := by
    rw [Instant.text, String.toList_ofList, Civil.text_eq, List.append_assoc, List.append_assoc,
      List.append_assoc]
    unfold minYear maxYear at hrange
    refine year_yearText (by omega) ?_
    rintro c ⟨⟩
    rfl
  exact instant_eq_ok hyear hrange hcivil rfl t.toInstant?_toCivil

end Relaxed

end ResourceTable.Time
