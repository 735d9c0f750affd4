import ResourceTable.Time.Calendar

namespace ResourceTable.Time

def minYear : Int := -262143

def maxYear : Int := 262142

def minSecond : Int := Date.toDays ⟨minYear, 1, 1⟩ * 86400

def maxSecond : Int := Date.toDays ⟨maxYear, 12, 31⟩ * 86400 + 86399

/-- A point in time: the seconds since 1970-01-01T00:00:00Z and the nanoseconds past them.  A leap
second is the second before it with a mark, which any second may have. -/
structure Instant where
  second : Int
  leap : Bool
  nano : Nat
  nano_lt : nano < 1000000000
  min_le : minSecond ≤ second
  le_max : second ≤ maxSecond
  deriving DecidableEq

/-- A date and a time of day as written; the second is 60 in the leap second of a minute. -/
structure Civil where
  date : Date
  hour : Nat
  minute : Nat
  second : Nat
  nano : Nat
  deriving DecidableEq

/-- The instant of a civil time that is `offset` minutes ahead of universal time, if it lies in
the years of instants. -/
def Civil.toInstant? (c : Civil) (offset : Int) : Option Instant :=
  let second := c.date.toDays * 86400 + c.hour * 3600 + (c.minute - offset) * 60 +
    (min c.second 59 : Nat)
  if h : c.nano < 1000000000 ∧ minSecond ≤ second ∧ second ≤ maxSecond then
    some ⟨second, c.second == 60, c.nano, h.1, h.2.1, h.2.2⟩
  else none

namespace Instant

/-- The civil time in universal time, where a mark counts as one second more. -/
def toCivil (t : Instant) : Civil :=
  let rest := (t.second % 86400).toNat
  ⟨.ofDays (t.second / 86400), rest / 3600, rest / 60 % 60, rest % 60 + t.leap.toNat, t.nano⟩

def truncate (t : Instant) : Instant := { t with nano := 0, nano_lt := by decide }

end Instant

end ResourceTable.Time
