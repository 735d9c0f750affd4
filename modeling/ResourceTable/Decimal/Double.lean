namespace ResourceTable

/-- A finite double: its sign and the place of its magnitude among all magnitudes.  From one power
of two to the next there are `2 ^ 52` codes. -/
structure Double where
  negative : Bool
  code : Nat
  finite : code < 0x7ff0000000000000
  deriving DecidableEq

namespace Double

def zero (negative : Bool) : Double := ⟨negative, 0, by decide⟩

def neg (d : Double) : Double := { d with negative := !d.negative }

/-- The magnitude is `mantissa * 2 ^ exponent`. -/
def mantissa (d : Double) : Nat :=
  if d.code < 0x10000000000000 then d.code
  else 0x10000000000000 + d.code % 0x10000000000000

def exponent (d : Double) : Int :=
  if d.code < 0x10000000000000 then -1074 else (d.code / 0x10000000000000 : Nat) - 1075

/-- Numerically equal: zeros of either sign are the same. -/
def same (a b : Double) : Bool := a == b || (a.code == 0 && b.code == 0)

/-- The integer nearest to `num / den`, a half going to the even neighbour. -/
def nearest (num den : Nat) : Nat :=
  let q := num / den
  let r := num % den
  if 2 * r < den then q else if den < 2 * r then q + 1 else q + q % 2

/-- The code nearest to `num / den`; it may lie past the last finite one. -/
def nearestCode (num den : Nat) : Nat :=
  if num = 0 then 0
  else
    let guess : Int := (Nat.log2 num : Int) - Nat.log2 den - 53
    let scaled (q : Int) : Nat × Nat := (num <<< (-q).toNat, den <<< q.toNat)
    let exact : Int :=
      if (scaled guess).1 / (scaled guess).2 < 0x20000000000000 then guess else guess + 1
    let q := max exact (-1074)
    (q + 1074).toNat * 0x10000000000000 + nearest (scaled q).1 (scaled q).2

def ofRatio? (num den : Nat) : Option Double :=
  if h : nearestCode num den < 0x7ff0000000000000 then some ⟨false, nearestCode num den, h⟩
  else none

def ratio (d : Double) : Nat × Nat :=
  (d.mantissa <<< d.exponent.toNat, 1 <<< (-d.exponent).toNat)

def mul? (a b : Double) : Option Double :=
  ofRatio? (a.ratio.1 * b.ratio.1) (a.ratio.2 * b.ratio.2)

def div? (a b : Double) : Option Double :=
  ofRatio? (a.ratio.1 * b.ratio.2) (a.ratio.2 * b.ratio.1)

end Double

end ResourceTable
