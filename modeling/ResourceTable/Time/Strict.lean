import ResourceTable.Time.Instant

namespace ResourceTable.Time

/-- Is the offset behind the sign to be taken away?  The minus may be the mathematical one. -/
def offsetSign? : Char → Option Bool
  | '+' => some false
  | '-' | '\u2212' => some true
  | _ => none

def isSeparator (c : Char) : Bool := c == 'T' || c == 't' || c == ' '

/-- The nanoseconds of the digits of a fraction; those past nine are dropped. -/
def nanosOf (digits : List Char) : Nat :=
  Nat.ofDigitChars 10 ((digits.take 9).rightpad 9 '0') 0

namespace Strict

def number? (width : Nat) (s : List Char) : Option (Nat × List Char) :=
  let ds := s.take width
  if ds.length = width ∧ ds.all Char.isDigit then some (Nat.ofDigitChars 10 ds 0, s.drop width)
  else none

def skip? (p : Char → Bool) : List Char → Option (List Char)
  | c :: rest => if p c then some rest else none
  | [] => none

def fraction? : List Char → Option (Nat × List Char)
  | '.' :: rest =>
    let ds := rest.takeWhile Char.isDigit
    if ds.isEmpty then none else some (nanosOf ds, rest.dropWhile Char.isDigit)
  | s => some (0, s)

def offset? : List Char → Option (Int × List Char)
  | [] => none
  | c :: s =>
    if c = 'Z' ∨ c = 'z' then some (0, s)
    else do
      let negative ← offsetSign? c
      let (hours, s) ← number? 2 s
      let s ← skip? (· == ':') s
      let (minutes, s) ← number? 2 s
      if hours < 24 ∧ minutes < 60 then
        let total : Int := (hours * 60 + minutes : Nat)
        return (if negative then -total else total, s)
      else none

def civil? (s : List Char) : Option (Civil × List Char) := do
  let (year, s) ← number? 4 s
  let s ← skip? (· == '-') s
  let (month, s) ← number? 2 s
  let s ← skip? (· == '-') s
  let (day, s) ← number? 2 s
  let s ← skip? isSeparator s
  let (hour, s) ← number? 2 s
  let s ← skip? (· == ':') s
  let (minute, s) ← number? 2 s
  let s ← skip? (· == ':') s
  let (second, s) ← number? 2 s
  let (nano, s) ← fraction? s
  let date : Date := ⟨year, month, day⟩
  if date.isValid ∧ hour < 24 ∧ minute < 60 ∧ second ≤ 60 then
    return (⟨date, hour, minute, second, nano⟩, s)
  else none

/-- The strict reading: numbers of fixed width, one separator between date and time, and an offset
with a colon. -/
def instant? (text : String) : Option Instant := do
  let (civil, s) ← civil? text.toList
  let (offset, s) ← offset? s
  if s.isEmpty then civil.toInstant? offset else none

end Strict

end ResourceTable.Time
