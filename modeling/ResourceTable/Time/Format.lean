import ResourceTable.Decimal.Digits
import ResourceTable.Time.Instant

namespace ResourceTable.Time

open Decimal

/-- Four digits; outside 0 to 9999 a sign and at least four digits. -/
def yearText (y : Int) : List Char :=
  if 0 ≤ y ∧ y ≤ 9999 then fixed 4 y.toNat
  else (if y < 0 then '-' else '+') :: (Nat.toDigits 10 y.natAbs).leftpad 4 '0'

def Civil.text (c : Civil) : List Char :=
  yearText c.date.year ++ '-' :: fixed 2 c.date.month ++ '-' :: fixed 2 c.date.day ++
    'T' :: fixed 2 c.hour ++ ':' :: fixed 2 c.minute ++ ':' :: fixed 2 c.second

/-- The fraction of a second in the fewest of 0, 3, 6 and 9 digits that lose nothing. -/
def fractionText (nano : Nat) : List Char :=
  if nano = 0 then []
  else if nano % 1000000 = 0 then '.' :: fixed 3 (nano / 1000000)
  else if nano % 1000 = 0 then '.' :: fixed 6 (nano / 1000)
  else '.' :: fixed 9 nano

namespace Instant

/-- The timestamp, exact to the nanosecond. -/
def text (t : Instant) : String :=
  String.ofList (t.toCivil.text ++ fractionText t.nano ++ ['Z'])

def wholeSeconds (t : Instant) : String := String.ofList (t.toCivil.text ++ ['Z'])

end Instant

end ResourceTable.Time
