import ResourceTable.Decimal.Shortest

namespace ResourceTable.Decimal

/-- Numbers with a decimal point from `least` to `most` places after the first digit are written
positionally, the others with an exponent. -/
structure Layout where
  least : Int
  most : Int
  exponentMark : Char
  plusSign : Bool

namespace Layout

def positional (s : Scientific) : List Char :=
  if s.point ≤ 0 then '0' :: '.' :: List.replicate (-s.point).toNat '0' ++ s.digits
  else
    let whole := s.digits.take s.point.toNat
    let fraction := s.digits.drop s.point.toNat
    whole ++ List.replicate (s.point.toNat - whole.length) '0' ++
      '.' :: (if fraction.isEmpty then ['0'] else fraction)

/-- One digit, the point and the other digits if there are any, and the exponent. -/
def exponential (l : Layout) (s : Scientific) : List Char :=
  let e := s.point - 1
  let sign := if e < 0 then ['-'] else if l.plusSign then ['+'] else []
  let fraction := s.digits.drop 1
  s.digits.take 1 ++ (if fraction.isEmpty then [] else '.' :: fraction) ++
    l.exponentMark :: sign ++ Nat.toDigits 10 e.natAbs

def double (l : Layout) (d : Double) : List Char :=
  let sign := if d.negative then ['-'] else []
  if d.code = 0 then sign ++ ['0', '.', '0']
  else
    let s := shortest d.mantissa d.exponent
    sign ++ if l.least ≤ s.point ∧ s.point ≤ l.most then positional s else l.exponential s

end Layout

end ResourceTable.Decimal
