import ResourceTable.Json.Numeral
import ResourceTable.Json.Printer

namespace ResourceTable

theorem Decimal.head?_toDigits {n : Nat} (hn : 0 < n) :
    (Nat.toDigits 10 n).head? ≠ some '0' := by
  induction n using Nat.strongRecOn with
  | ind n ih =>
    by_cases h : n < 10
    · rw [Nat.toDigits_of_lt_base h, List.head?_cons]
      simpa using Nat.pos_iff_ne_zero.1 hn
    · have hfirst := ih (n / 10) (by omega) (by omega)
      rw [Nat.toDigits_of_base_le (by decide) (by omega)]
      obtain ⟨c, ds, hds⟩ :=
        List.exists_cons_of_ne_nil (Nat.toDigits_ne_nil (n := n / 10) (b := 10))
      rw [hds] at hfirst ⊢
      exact hfirst

namespace Numeral

/-- What stands at the front does not belong to a number. -/
def Ends (rest : List Char) : Prop :=
  ∀ c ∈ rest.head?, c.isDigit = false ∧ c ≠ '.' ∧ c ≠ 'e' ∧ c ≠ 'E'

variable {rest : List Char}

theorem digits_append {ds : List Char} (hds : ∀ c ∈ ds, c.isDigit = true) (h : Ends rest) :
    digits (ds ++ rest) = (ds, rest) := by
  have hrest : digits rest = ([], rest) := by
    cases rest with
    | nil => rfl
    | cons c rest =>
      have hc := (h c rfl).1
      simp [digits, hc]
  rw [digits, List.takeWhile_append_of_pos hds, List.dropWhile_append_of_pos hds]
  rw [digits, Prod.mk.injEq] at hrest
  rw [hrest.1, hrest.2, List.append_nil]

theorem toDigits_eq_cons (n : Nat) :
    ∃ c ds, Nat.toDigits 10 n = c :: ds ∧ c.isDigit = true ∧ (c = '0' → ds = []) := by
  cases hn : Nat.toDigits 10 n with
  | nil => exact absurd hn Nat.toDigits_ne_nil
  | cons c ds =>
    refine ⟨c, ds, rfl, ?_, ?_⟩
    · exact Nat.isDigit_of_mem_toDigits (by decide) (by decide) (hn ▸ List.mem_cons_self)
    · rintro rfl
      by_cases h0 : n = 0
      · rw [h0, Nat.toDigits_zero] at hn
        exact (List.cons.inj hn).2.symm
      · exact absurd (congrArg List.head? hn) (Decimal.head?_toDigits (Nat.pos_of_ne_zero h0))

theorem whole?_toDigits (n : Nat) (h : Ends rest) :
    whole? (Nat.toDigits 10 n ++ rest) = some (Nat.toDigits 10 n, rest) := by
  have hall : ∀ c ∈ Nat.toDigits 10 n, c.isDigit = true :=
    fun c hc => Nat.isDigit_of_mem_toDigits (by decide) (by decide) hc
  have hdigits := digits_append hall h
  obtain ⟨c, ds, hn, -, hzero⟩ := toDigits_eq_cons n
  rw [hn, List.cons_append] at hdigits ⊢
  -- a zero stands alone, so what is left of the digits after it is nothing
  by_cases hc : c = '0'
  · have hrest : digits ([] ++ rest) = ([], rest) := digits_append nofun h
    rw [hc, hzero hc, whole?]
    rw [List.nil_append] at hrest ⊢
    rw [hrest]
    rfl
  · rw [whole?, someDigits?, hdigits]
    · rfl
    · exact fun _ h0 => absurd (List.cons.inj h0).1 hc

theorem fraction?_of_ends (h : Ends rest) : fraction? rest = some ([], rest) := by
  rw [fraction?]
  rintro rest' rfl
  exact (h _ rfl).2.1 rfl

theorem exponent?_of_ends (h : Ends rest) : exponent? rest = some (none, rest) := by
  rw [exponent?]
  · rintro rest' rfl
    exact (h _ rfl).2.2.1 rfl
  · rintro rest' rfl
    exact (h _ rfl).2.2.2 rfl

theorem intText_eq_cons (n : Int) (others : List Char)
    (h : others.all fun d => d != '-' && !d.isDigit) :
    ∃ c s, Json.intText n = c :: s ∧ c ∉ others := by
  by_cases hn : n < 0
  · exact ⟨'-', _, if_pos hn, fun hmem => absurd (List.all_eq_true.1 h _ hmem) (by decide)⟩
  · obtain ⟨c, ds, hdigits, hc, -⟩ := toDigits_eq_cons n.natAbs
    refine ⟨c, ds, (if_neg hn).trans hdigits, fun hmem => ?_⟩
    have hother := List.all_eq_true.1 h c hmem
    rw [hc, Bool.not_true, Bool.and_false] at hother
    cases hother

theorem scan?_intText (n : Int) (h : Ends rest) :
    scan? (Json.intText n ++ rest) =
      some (⟨n < 0, Nat.toDigits 10 n.natAbs, [], none⟩, rest) := by
  have hwhole := whole?_toDigits n.natAbs h
  by_cases hn : n < 0
  · rw [Json.intText, if_pos hn, List.cons_append, scan?, hwhole]
    simp only [Option.bind_eq_bind, Option.bind_some, fraction?_of_ends h, exponent?_of_ends h,
      decide_eq_true hn]
    rfl
  · obtain ⟨c, ds, hdigits, hc, -⟩ := toDigits_eq_cons n.natAbs
    rw [Json.intText, if_neg hn, scan?, hwhole]
    · simp only [Option.bind_eq_bind, Option.bind_some, fraction?_of_ends h, exponent?_of_ends h,
        decide_eq_false hn]
      rfl
    -- the first digit is no sign
    · intro s hs
      rw [hdigits, List.cons_append] at hs
      rw [(List.cons.inj hs).1] at hc
      cases hc

theorem int?_range {x : Numeral} {n : Int} (h : x.int? = some n) :
    -0x8000000000000000 ≤ n ∧ n < 0x10000000000000000 := by
  simp only [int?] at h
  split at h
  · split at h
    · split at h
      · cases h
        omega
      · cases h
    · split at h
      · cases h
        omega
      · cases h
  · cases h

/-- An integer in range is the number that its text stands for. -/
theorem int?_intText {n : Int} (lower : -0x8000000000000000 ≤ n)
    (upper : n < 0x10000000000000000) :
    int? ⟨n < 0, Nat.toDigits 10 n.natAbs, [], none⟩ = some n := by
  simp only [int?, Nat.ofDigitChars_ten_toDigits]
  by_cases hn : n < 0
  · have hrange : 0 < n.natAbs ∧ n.natAbs ≤ 0x8000000000000000 := by omega
    have habs : -(n.natAbs : Int) = n := by omega
    simp only [decide_eq_true hn, if_pos hrange, habs]
    rfl
  · have hrange : n.natAbs < 0x10000000000000000 := by omega
    have habs : (n.natAbs : Int) = n := by omega
    simp only [decide_eq_false hn, if_pos hrange, habs]
    rfl

end Numeral

end ResourceTable
