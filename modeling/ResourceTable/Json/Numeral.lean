import ResourceTable.Decimal.Layout

namespace ResourceTable

/-- A number as written: digits, the digits after a point, and an exponent with its sign. -/
structure Numeral where
  negative : Bool
  whole : List Char
  fraction : List Char
  exponent : Option (Bool × List Char)

namespace Numeral

def digits (s : List Char) : List Char × List Char :=
  (s.takeWhile Char.isDigit, s.dropWhile Char.isDigit)

def someDigits? (s : List Char) : Option (List Char × List Char) :=
  if (digits s).1.isEmpty then none else some (digits s)

/-- The digits before the point; a zero stands alone. -/
def whole? : List Char → Option (List Char × List Char)
  | '0' :: rest => if (digits rest).1.isEmpty then some (['0'], rest) else none
  | s => someDigits? s

def fraction? : List Char → Option (List Char × List Char)
  | '.' :: rest => someDigits? rest
  | s => some ([], s)

def exponentDigits? : List Char → Option ((Bool × List Char) × List Char)
  | '-' :: rest => (someDigits? rest).map fun (ds, r) => ((true, ds), r)
  | '+' :: rest => (someDigits? rest).map fun (ds, r) => ((false, ds), r)
  | s => (someDigits? s).map fun (ds, r) => ((false, ds), r)

def exponent? : List Char → Option (Option (Bool × List Char) × List Char)
  | 'e' :: rest | 'E' :: rest => (exponentDigits? rest).map fun (e, r) => (some e, r)
  | s => some (none, s)

def scan? (s : List Char) : Option (Numeral × List Char) := do
  let (negative, s) := match s with
    | '-' :: rest => (true, rest)
    | s => (false, s)
  let (whole, s) ← whole? s
  let (fraction, s) ← fraction? s
  let (exponent, s) ← exponent? s
  return (⟨negative, whole, fraction, exponent⟩, s)

/-- Appends digits to a number while it stays below `2 ^ 64`; the second part is what is left. -/
def accumulate (n : Nat) : List Char → Nat × List Char
  | [] => (n, [])
  | c :: rest =>
    let next := Nat.ofDigitChars 10 [c] n
    if next < 0x10000000000000000 then accumulate next rest else (n, c :: rest)

def powerOfTen (k : Nat) : Option Double := Double.ofRatio? (Nat.pow 10 k) 1

/-- The number times a power of ten, in steps of at most `10 ^ 308`, each of which rounds. -/
def scale (d : Double) (e : Int) : Option Double :=
  if e.natAbs ≤ 308 then do
    let p ← powerOfTen e.natAbs
    if 0 ≤ e then d.mul? p else d.div? p
  else if d.code = 0 then some d
  else if 0 ≤ e then none
  else do
    let p ← powerOfTen 308
    let smaller ← d.div? p
    scale smaller (e + 308)
termination_by e.natAbs
decreasing_by omega

/-- The double that the text stands for, if it is finite: the leading digits as an integer below
`2 ^ 64`, scaled by the power of ten that their place and the exponent give. -/
def double? (x : Numeral) : Option Double := do
  let (n, dropped) := accumulate 0 x.whole
  let (n, unused) := accumulate n x.fraction
  let place : Int := (dropped.length : Int) - (x.fraction.length - unused.length : Nat)
  let written : Int := match x.exponent with
    | none => 0
    | some (true, ds) => -(Nat.ofDigitChars 10 ds 0 : Int)
    | some (false, ds) => Nat.ofDigitChars 10 ds 0
  let d ← Double.ofRatio? n 1
  let d ← scale d (place + written)
  return if x.negative then d.neg else d

/-- The integer that the text stands for: no fraction, no exponent, from `-2 ^ 63` to
`2 ^ 64 - 1`, and not a zero with a sign. -/
def int? (x : Numeral) : Option Int :=
  let n := Nat.ofDigitChars 10 x.whole 0
  if x.fraction.isEmpty ∧ x.exponent.isNone then
    if x.negative then if 0 < n ∧ n ≤ 0x8000000000000000 then some (-n) else none
    else if n < 0x10000000000000000 then some n else none
  else none

end Numeral

end ResourceTable
