import ResourceTable.Text.Blank
import ResourceTable.Time.Strict

namespace ResourceTable.Time

/-- Why a text is no timestamp. -/
inductive Fault where
  | tooShort
  | invalid
  | outOfRange
  | trailing
  | impossible
  deriving DecidableEq

def Fault.message : Fault → String
  | .tooShort => "premature end of input"
  | .invalid => "input contains invalid characters"
  | .outOfRange => "input is out of range"
  | .trailing => "trailing input"
  | .impossible => "no possible date and time matching input"

namespace Relaxed

open Text

def digits (most : Nat) (s : List Char) : Except Fault (List Char × List Char) :=
  match s with
  | [] => .error .tooShort
  | c :: _ =>
    if c.isDigit then
      let ds := (s.take most).takeWhile Char.isDigit
      .ok (ds, s.drop ds.length)
    else .error .invalid

/-- A number of one or two digits from `low` to `high`, white space before it allowed. -/
def number (low high : Nat) (s : List Char) : Except Fault (Nat × List Char) := do
  let (ds, s) ← digits 2 (skipBlank s)
  let n := Nat.ofDigitChars 10 ds 0
  if low ≤ n ∧ n ≤ high then return (n, s) else throw .outOfRange

/-- A year: one to four digits, or a sign and any number of digits. -/
def year (s : List Char) : Except Fault (Int × List Char) := do
  let (negative, most, s) := match skipBlank s with
    | '-' :: rest => (true, rest.length, rest)
    | '+' :: rest => (false, rest.length, rest)
    | s => (false, 4, s)
  let (ds, s) ← digits most s
  let n : Int := Nat.ofDigitChars 10 ds 0
  let y := if negative then -n else n
  if -0x80000000 ≤ y ∧ y < 0x80000000 then return (y, s) else throw .outOfRange

def skip (p : Char → Bool) : List Char → Except Fault (List Char)
  | [] => .error .tooShort
  | c :: rest => if p c then .ok rest else .error .invalid

def mark (c : Char) (s : List Char) : Except Fault (List Char) := skip (· == c) (skipBlank s)

def fraction : List Char → Except Fault (Nat × List Char)
  | '.' :: rest => do
    let (ds, s) ← digits 9 rest
    return (nanosOf ds, s.dropWhile Char.isDigit)
  | s => .ok (0, s)

/-- Two digits of an offset; the second may be missing only behind a character of several
bytes. -/
def twoDigits (s : List Char) : Except Fault (Nat × List Char) :=
  match s with
  | [] => .error .tooShort
  | [c] => .error (if c.utf8Size < 2 then .tooShort else .invalid)
  | a :: b :: rest =>
    if a.isDigit && b.isDigit then .ok (Nat.ofDigitChars 10 [a, b] 0, rest) else .error .invalid

def offset (s : List Char) : Except Fault (Int × List Char) :=
  match s with
  | [] => .error .tooShort
  | c :: rest =>
    if (s.take 3).map Char.toLower = ['u', 't', 'c'] then .ok (0, s.drop 3)
    else if c = 'Z' ∨ c = 'z' then .ok (0, rest)
    else
      match offsetSign? c with
      | none => .error .invalid
      | some negative => do
        let (hours, s) ← twoDigits rest
        let (minutes, s) ← twoDigits (s.dropWhile fun c => c == ':' || isBlank c)
        if minutes < 60 then
          let total : Int := (hours * 60 + minutes : Nat)
          return (if negative then -total else total, s)
        else throw .outOfRange

/-- A civil time as written, whether or not there is such a day, and what follows it. -/
def civil (s : List Char) : Except Fault (Civil × List Char) := do
  let (year, s) ← year s
  let s ← mark '-' s
  let (month, s) ← number 1 12 s
  let s ← mark '-' s
  let (day, s) ← number 1 31 s
  let s ← skip isSeparator s
  let (hour, s) ← number 0 23 s
  let s ← mark ':' s
  let (minute, s) ← number 0 59 s
  let s ← mark ':' s
  let (second, s) ← number 0 60 s
  let (nano, s) ← fraction s
  return (⟨⟨year, month, day⟩, hour, minute, second, nano⟩, skipBlank s)

/-- The relaxed reading: white space between the parts, numbers of fewer digits, years of any length
with a sign, `UTC`, and offsets with or without a colon. -/
def instant (text : String) : Except Fault Instant := do
  let (civil, s) ← civil text.toList
  let (offset, s) ← offset s
  if !(skipBlank s).isEmpty then throw .trailing
  else if !civil.date.isValid || civil.date.year < minYear || maxYear < civil.date.year then
    throw .outOfRange
  else if 24 * 60 ≤ offset.natAbs then throw .outOfRange
  else
    match civil.toInstant? offset with
    | some t => return t
    | none => throw .impossible

end Relaxed

end ResourceTable.Time
