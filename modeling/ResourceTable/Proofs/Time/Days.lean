import ResourceTable.Proofs.Time.Calendar

namespace ResourceTable.Time

theorem daysIn_take_succ {lengths : List Nat} {k : Nat} (h : k < lengths.length) :
    daysIn (lengths.take (k + 1)) = daysIn (lengths.take k) + lengths.getD k 0 := by
  induction lengths generalizing k with
  | nil => cases h
  | cons length rest ih =>
    cases k with
    | zero => simp [daysIn]
    | succ k =>
      have hrest := ih (Nat.lt_of_succ_lt_succ h)
      rw [List.take_succ_cons, List.take_succ_cons, daysIn, daysIn, List.getD_cons_succ]
      omega

theorem daysIn_take_le (lengths : List Nat) (k : Nat) :
    daysIn (lengths.take k) ≤ daysIn lengths := by
  induction lengths generalizing k with
  | nil => simp [daysIn]
  | cons length rest ih =>
    cases k with
    | zero => exact Nat.zero_le _
    | succ k =>
      rw [List.take_succ_cons, daysIn, daysIn]
      exact Nat.add_le_add_left (ih k) length

/-- The months before a day and the days of its own month give the day back. -/
theorem monthOf_take {lengths : List Nat} {k n : Nat} (hk : k < lengths.length)
    (hn : n < lengths.getD k 0) (m : Nat) :
    monthOf lengths m (daysIn (lengths.take k) + n) = (m + k, n + 1) := by
  induction lengths generalizing m k with
  | nil => cases hk
  | cons length rest ih =>
    cases k with
    | zero =>
      rw [List.getD_cons_zero] at hn
      rw [List.take_zero, daysIn, Nat.zero_add, monthOf, if_pos hn]
      rfl
    | succ k =>
      have hrest := ih (Nat.lt_of_succ_lt_succ hk) hn (m + 1)
      rw [List.take_succ_cons, daysIn, monthOf, if_neg (by omega), Nat.add_assoc,
        Nat.add_sub_cancel_left, hrest]
      congr 1
      omega

theorem yearOf_eq {y n : Int} (hlow : daysBeforeYear y ≤ n) (hhigh : n < daysBeforeYear (y + 1)) :
    yearOf n = y := by
  obtain ⟨hlow', hhigh'⟩ := daysBeforeYear_yearOf n
  by_contra hne
  rcases Int.lt_or_gt_of_ne hne with hlt | hgt
  · have := daysBeforeYear_mono (y := yearOf n + 1) (z := y) (by omega)
    omega
  · have := daysBeforeYear_mono (y := y + 1) (z := yearOf n) (by omega)
    omega

theorem length_monthLengths (leap : Bool) : (monthLengths leap).length = 12 := by
  cases leap <;> rfl

theorem monthLengths_pos (leap : Bool) {k : Nat} (h : k < 12) :
    1 ≤ (monthLengths leap).getD k 0 := by
  have hall : ∀ k < 12, 1 ≤ (monthLengths leap).getD k 0 := by cases leap <;> decide
  exact hall k h

namespace Date

theorem daysIn_take_month {d : Date} (h : d.isValid = true) :
    daysIn ((monthLengths (isLeapYear d.year)).take d.month) =
      daysIn ((monthLengths (isLeapYear d.year)).take (d.month - 1)) + d.monthLength := by
  obtain ⟨hmonth, hmost, -⟩ := isValid_iff.1 h
  have hlength := length_monthLengths (isLeapYear d.year)
  have htake : daysIn ((monthLengths (isLeapYear d.year)).take (d.month - 1 + 1)) =
      daysIn ((monthLengths (isLeapYear d.year)).take (d.month - 1)) + d.monthLength :=
    daysIn_take_succ (by omega)
  rwa [Nat.sub_add_cancel hmonth] at htake

theorem toDays_bounds {d : Date} (h : d.isValid = true) :
    daysBeforeYear d.year ≤ d.toDays + daysBeforeYear 1970 ∧
      d.toDays + daysBeforeYear 1970 < daysBeforeYear (d.year + 1) := by
  obtain ⟨hmonth, hmost, hday, hlast⟩ := isValid_iff.1 h
  have htake := daysIn_take_month h
  have hyear := daysIn_take_le (monthLengths (isLeapYear d.year)) d.month
  rw [daysIn_monthLengths, toDays]
  omega

theorem ofDays_toDays {d : Date} (h : d.isValid = true) : ofDays d.toDays = d := by
  obtain ⟨hlow, hhigh⟩ := toDays_bounds h
  obtain ⟨hmonth, hmost, hday, hlast⟩ := isValid_iff.1 h
  have hlength := length_monthLengths (isLeapYear d.year)
  have hrest : (d.toDays + daysBeforeYear 1970 - daysBeforeYear d.year).toNat =
      daysIn ((monthLengths (isLeapYear d.year)).take (d.month - 1)) + (d.day - 1) := by
    rw [toDays]
    omega
  have hinside : d.day - 1 < d.monthLength := by omega
  have hmonthOf := monthOf_take (show d.month - 1 < _ by omega) hinside 1
  simp only [ofDays, yearOf_eq hlow hhigh, hrest, hmonthOf]
  rw [Nat.add_sub_cancel' hmonth, Nat.sub_add_cancel hday]

/-- The next day: past the end of a month, the first of the next one. -/
def next (d : Date) : Date :=
  if d.day < d.monthLength then ⟨d.year, d.month, d.day + 1⟩
  else if d.month < 12 then ⟨d.year, d.month + 1, 1⟩
  else ⟨d.year + 1, 1, 1⟩

def lastOf (year : Int) (month : Nat) : Date := ⟨year, month, monthLength ⟨year, month, 1⟩⟩

def prev (d : Date) : Date :=
  if 1 < d.day then ⟨d.year, d.month, d.day - 1⟩
  else if 1 < d.month then lastOf d.year (d.month - 1)
  else lastOf (d.year - 1) 12

theorem isValid_next {d : Date} (h : d.isValid = true) : d.next.isValid = true := by
  obtain ⟨hmonth, hmost, hday, hlast⟩ := isValid_iff.1 h
  rw [next]
  split
  · next hlt => exact isValid_iff.2 ⟨hmonth, hmost, Nat.le_add_left 1 _, hlt⟩
  · split
    · next hlt =>
      exact isValid_iff.2 ⟨Nat.le_add_left 1 _, hlt, Nat.le_refl 1, monthLengths_pos _ hlt⟩
    · have hjanuary : 1 ≤ (monthLengths (isLeapYear (d.year + 1))).getD 0 0 :=
        monthLengths_pos _ (by decide)
      exact isValid_iff.2 ⟨Nat.le_refl 1, Nat.le_add_left 1 11, Nat.le_refl 1, hjanuary⟩

theorem toDays_next {d : Date} (h : d.isValid = true) : d.next.toDays = d.toDays + 1 := by
  obtain ⟨hmonth, hmost, hday, hlast⟩ := isValid_iff.1 h
  have htake := daysIn_take_month h
  rw [next]
  split
  · simp only [toDays]
    omega
  · split
    · simp only [toDays, Nat.add_sub_cancel]
      omega
    · have hlength := length_monthLengths (isLeapYear d.year)
      rw [List.take_of_length_le (by omega)] at htake
      simp only [toDays, daysIn_monthLengths, Nat.sub_self, List.take_zero, daysIn]
      omega

theorem isValid_lastOf (year : Int) {month : Nat} (hmonth : 1 ≤ month) (hmost : month ≤ 12) :
    (lastOf year month).isValid = true :=
  isValid_iff.2 ⟨hmonth, hmost, monthLengths_pos _ (show month - 1 < 12 by omega), Nat.le_refl _⟩

theorem next_lastOf (year : Int) (month : Nat) :
    (lastOf year month).next = if month < 12 then ⟨year, month + 1, 1⟩ else ⟨year + 1, 1, 1⟩ :=
  if_neg (Nat.lt_irrefl (monthLength ⟨year, month, 1⟩))

/-- The previous day is the one whose next day it is. -/
theorem next_prev {d : Date} (h : d.isValid = true) :
    d.prev.isValid = true ∧ d.prev.next = d := by
  obtain ⟨hmonth, hmost, hday, hlast⟩ := isValid_iff.1 h
  obtain ⟨year, month, day⟩ := d
  simp only [prev] at hmonth hmost hday hlast ⊢
  split
  · next hinside =>
    have hbefore : day - 1 < monthLength ⟨year, month, day - 1⟩ :=
      Nat.lt_of_lt_of_le (Nat.sub_one_lt_of_lt hinside) hlast
    rw [next, if_pos hbefore]
    refine ⟨isValid_iff.2 ⟨hmonth, hmost, Nat.le_sub_one_of_lt hinside, Nat.le_of_lt hbefore⟩, ?_⟩
    exact congrArg (Date.mk year month) (Nat.sub_add_cancel hday)
  · next hfirst =>
    obtain rfl : day = 1 := by omega
    split
    · next hlater =>
      refine ⟨isValid_lastOf _ (Nat.le_sub_one_of_lt hlater) (by omega), ?_⟩
      rw [next_lastOf, if_pos (by omega)]
      exact congrArg (fun m => Date.mk year m 1) (Nat.sub_add_cancel hmonth)
    · next hjanuary =>
      obtain rfl : month = 1 := by omega
      refine ⟨isValid_lastOf _ (by decide) (by decide), ?_⟩
      rw [next_lastOf, if_neg (by decide)]
      exact congrArg (fun y => Date.mk y 1 1) (Int.sub_add_cancel year 1)

theorem toDays_prev {d : Date} (h : d.isValid = true) : d.prev.toDays = d.toDays - 1 := by
  obtain ⟨hvalid, hnext⟩ := next_prev h
  have hcount := toDays_next hvalid
  rw [hnext] at hcount
  omega

end Date

end ResourceTable.Time
