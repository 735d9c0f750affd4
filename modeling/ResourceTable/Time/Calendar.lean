namespace ResourceTable.Time

structure Date where
  year : Int
  month : Nat
  day : Nat
  deriving DecidableEq

def isLeapYear (y : Int) : Bool := y % 4 == 0 && (y % 100 != 0 || y % 400 == 0)

def monthLengths (leap : Bool) : List Nat :=
  [31, if leap then 29 else 28, 31, 30, 31, 30, 31, 31, 30, 31, 30, 31]

def daysIn : List Nat → Nat
  | [] => 0
  | length :: rest => length + daysIn rest

/-- The days from the first day of year 0 to the first day of year `y`. -/
def daysBeforeYear (y : Int) : Int := 365 * y + (y + 3) / 4 - (y + 99) / 100 + (y + 399) / 400

/-- The year of the day that comes `n` days after the first day of year 0.  Years of mean length
give a guess that is off by one at most. -/
def yearOf (n : Int) : Int :=
  let guess := n * 400 / 146097
  if n < daysBeforeYear guess then guess - 1
  else if daysBeforeYear (guess + 1) ≤ n then guess + 1
  else guess

/-- The month and its day after `n` days of months with the given lengths, from month `m` on. -/
def monthOf : (lengths : List Nat) → (m n : Nat) → Nat × Nat
  | [], m, n => (m, n + 1)
  | length :: rest, m, n => if n < length then (m, n + 1) else monthOf rest (m + 1) (n - length)

namespace Date

def isValid (d : Date) : Bool :=
  1 ≤ d.month && d.month ≤ 12 && 1 ≤ d.day &&
    d.day ≤ (monthLengths (isLeapYear d.year)).getD (d.month - 1) 0

/-- The days since 1970-01-01. -/
def toDays (d : Date) : Int :=
  daysBeforeYear d.year - daysBeforeYear 1970 +
    daysIn ((monthLengths (isLeapYear d.year)).take (d.month - 1)) + (d.day - 1)

def ofDays (n : Int) : Date :=
  let n := n + daysBeforeYear 1970
  let year := yearOf n
  let (month, day) := monthOf (monthLengths (isLeapYear year)) 1 (n - daysBeforeYear year).toNat
  ⟨year, month, day⟩

end Date

end ResourceTable.Time
