import ResourceTable.Decimal.Double

namespace ResourceTable.Decimal

/-- The decimal `0.d₁d₂… * 10 ^ point`. -/
structure Scientific where
  digits : List Char
  point : Int
  deriving DecidableEq

namespace Shortest

/-- How far above or below `m * 2 ^ q` the reals reach that round to it, in quarters of `2 ^ q`.
Below a power of two the codes lie twice as close. -/
def reach (m : Nat) (q : Int) : Nat × Nat :=
  (if m = 0x10000000000000 ∧ q ≠ -1074 then 1 else 2, 2)

/-- Four times `m * 2 ^ q` and the candidate `c * 10 ^ k`, with the quarter of `2 ^ q`, over one
common denominator. -/
def scaled (m : Nat) (q : Int) (c : Nat) (k : Int) : Nat × Nat × Nat :=
  let quarter := Nat.pow 10 (-k).toNat <<< q.toNat
  (4 * m * quarter, (4 * c * Nat.pow 10 k.toNat) <<< (-q).toNat, quarter)

def rounds (m : Nat) (q : Int) (c : Nat) (k : Int) : Bool :=
  let (v, x, quarter) := scaled m q c k
  let (below, above) := reach m q
  if m % 2 = 0 then v ≤ x + below * quarter && x ≤ v + above * quarter
  else v < x + below * quarter && x < v + above * quarter

def distance (m : Nat) (q : Int) (c : Nat) (k : Int) : Nat :=
  let (v, x, _) := scaled m q c k
  (v - x) + (x - v)

/-- The number of digits before the decimal point of `m * 2 ^ q`, negative for leading zeros. -/
def magnitude (m : Nat) (q : Int) : Int :=
  (Nat.toDigits 10 (m <<< q.toNat * Nat.pow 10 400 / 1 <<< (-q).toNat)).length - 400

def withDigits? (m : Nat) (q : Int) (count : Nat) : Option (Nat × Int) :=
  let k := magnitude m q - count
  let low := (m * Nat.pow 10 (-k).toNat) <<< q.toNat / Nat.pow 10 k.toNat <<< (-q).toNat
  let high := low + 1
  match rounds m q low k, rounds m q high k with
  | true, true =>
    let dl := distance m q low k
    let dh := distance m q high k
    some (if dl < dh ∨ dl = dh ∧ low % 2 = 0 then low else high, k)
  | true, false => some (low, k)
  | false, true => some (high, k)
  | false, false => none

end Shortest

/-- The shortest decimal that rounds to `m * 2 ^ q`, for `0 < m < 2 ^ 53`: at the first count of
digits with a hit the nearer one, of two as near the even one. -/
def shortest (m : Nat) (q : Int) : Scientific :=
  let (c, k) := ((List.range 17).findSome? fun n => Shortest.withDigits? m q (n + 1)).getD (m, 0)
  let digits := Nat.toDigits 10 c
  ⟨(digits.reverse.dropWhile (· == '0')).reverse, digits.length + k⟩

end ResourceTable.Decimal
