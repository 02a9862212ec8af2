import Tourney.Text.Blank

/-!
# Timestamps

Moments in universal time, to the nanosecond. `Timestamp.text` writes a moment in the RFC 3339
form; `Timestamp.read?` takes any offset and the looser spellings in use: a blank, `t` or `T`
before the time, single digits, and white space around the parts.
-/

namespace Tourney

/-- A moment as seconds since the start of 1970 and nanoseconds into the second. A leap second
counts as the second before it with a thousand million nanoseconds more. -/
structure Timestamp where
  seconds : Int
  nanos : Nat
  deriving DecidableEq, Repr, Inhabited

namespace Timestamp

def epoch : Timestamp := ⟨0, 0⟩

def ofUnix (seconds : Int) : Timestamp := ⟨seconds, 0⟩

/-- The order of time. -/
def le (a b : Timestamp) : Bool :=
  a.seconds < b.seconds || (a.seconds == b.seconds && a.nanos ≤ b.nanos)

/-! ## Dates -/

/-- A day of the Gregorian calendar, carried back past its beginning and through a year zero. -/
structure Date where
  year : Int
  month : Nat
  day : Nat
  deriving DecidableEq, Repr

def isLeapYear (y : Int) : Bool := y % 4 = 0 && (y % 100 ≠ 0 || y % 400 = 0)

def daysInMonth (y : Int) : Nat → Nat
  | 2 => if isLeapYear y then 29 else 28
  | 4 | 6 | 9 | 11 => 30
  | _ => 31

def firstYear : Int := -262143
def lastYear : Int := 262142

/-- Whether the date is one of the calendar, and its year one that can be kept. -/
def Date.exists (d : Date) : Bool :=
  firstYear ≤ d.year && d.year ≤ lastYear && 1 ≤ d.month && d.month ≤ 12 &&
    1 ≤ d.day && d.day ≤ daysInMonth d.year d.month

/-- Days from the first of January 1970. Years are counted from March, so that a leap day ends
its year, and in cycles of four centuries. -/
def Date.toDays (d : Date) : Int :=
  let y := if d.month ≤ 2 then d.year - 1 else d.year
  let cycle := y / 400
  let inCycle := y % 400
  let month : Int := (d.month + 9) % 12
  let inYear := (153 * month + 2) / 5 + d.day - 1
  cycle * 146097 + (inCycle * 365 + inCycle / 4 - inCycle / 100 + inYear) - 719468

def Date.ofDays (days : Int) : Date :=
  let z := days + 719468
  let cycle := z / 146097
  let inCycle := z % 146097
  let yearOfCycle := (inCycle - inCycle / 1460 + inCycle / 36524 - inCycle / 146096) / 365
  let inYear := inCycle - (365 * yearOfCycle + yearOfCycle / 4 - yearOfCycle / 100)
  let month := (5 * inYear + 2) / 153
  let day := inYear - (153 * month + 2) / 5 + 1
  let monthOfYear := if month < 10 then month + 3 else month - 9
  { year := yearOfCycle + cycle * 400 + (if monthOfYear ≤ 2 then 1 else 0)
    month := monthOfYear.toNat
    day := day.toNat }

/-! ## Writing -/

def padded (width n : Nat) : List Char :=
  let ds := Nat.toDigits 10 n
  List.replicate (width - ds.length) '0' ++ ds

/-- A year in four digits; one outside `0 … 9999` has its sign. -/
def yearText (y : Int) : List Char :=
  if 0 ≤ y ∧ y ≤ 9999 then padded 4 y.toNat
  else (if y < 0 then '-' else '+') :: padded 4 y.natAbs

/-- A fraction of a second in no, three, six or nine digits, whichever first says it all. -/
def fractionText (nanos : Nat) : List Char :=
  if nanos = 0 then []
  else if nanos % 1000000 = 0 then '.' :: padded 3 (nanos / 1000000)
  else if nanos % 1000 = 0 then '.' :: padded 6 (nanos / 1000)
  else '.' :: padded 9 nanos

def text (t : Timestamp) : List Char :=
  let date := Date.ofDays (t.seconds / 86400)
  let inDay := (t.seconds % 86400).toNat
  let leap := t.nanos / 1000000000
  yearText date.year ++ ['-'] ++ padded 2 date.month ++ ['-'] ++ padded 2 date.day ++ ['T'] ++
    padded 2 (inDay / 3600) ++ [':'] ++ padded 2 (inDay / 60 % 60) ++ [':'] ++
    padded 2 (inDay % 60 + leap) ++ fractionText (t.nanos % 1000000000) ++ ['Z']

/-! ## Reading -/

/-- What a part of a timestamp reads from the front of a text: its value and the rest. -/
abbrev Part (α : Type) := List Char → Option (α × List Char)

/-- At least one digit, and no more than `width`. -/
def digits (width : Nat) : Part Nat := fun cs =>
  let ds := (cs.take width).takeWhile Char.isDigit
  if ds = [] then none else some (Nat.ofDigitChars 10 ds 0, cs.drop ds.length)

/-- A number of one or two digits within bounds, after any white space. -/
def field (least most : Nat) : Part Nat := fun cs => do
  let (n, rest) ← digits 2 (trimStart cs)
  if least ≤ n ∧ n ≤ most then some (n, rest) else none

/-- A year: up to four digits, or any number of them after a sign. -/
def year : Part Int := fun cs =>
  match trimStart cs with
  | '-' :: cs => (digits cs.length cs).map fun (n, rest) => (-(n : Int), rest)
  | '+' :: cs => (digits cs.length cs).map fun (n, rest) => ((n : Int), rest)
  | cs => (digits 4 cs).map fun (n, rest) => ((n : Int), rest)

/-- A separator, after any white space. -/
def separator (c : Char) : Part Unit := fun cs =>
  match trimStart cs with
  | d :: rest => if d = c then some ((), rest) else none
  | [] => none

def date : Part Date := fun cs => do
  let (y, cs) ← year cs
  let ((), cs) ← separator '-' cs
  let (m, cs) ← field 1 12 cs
  let ((), cs) ← separator '-' cs
  let (d, cs) ← field 1 31 cs
  let date : Date := ⟨y, m, d⟩
  if date.exists then some (date, cs) else none

/-- A fraction of a second, if a point stands here. Digits past the ninth are dropped. -/
def fraction : Part Nat
  | '.' :: cs => do
    let ds := cs.takeWhile Char.isDigit
    if ds = [] then none
    else some (Nat.ofDigitChars 10 (ds.take 9 ++ List.replicate (9 - ds.length) '0') 0,
      cs.drop ds.length)
  | cs => some (0, cs)

/-- Seconds and nanoseconds into a day. The second numbered sixty is a leap second. -/
def time : Part (Nat × Nat) := fun cs => do
  let (h, cs) ← field 0 23 cs
  let ((), cs) ← separator ':' cs
  let (m, cs) ← field 0 59 cs
  let ((), cs) ← separator ':' cs
  let (s, cs) ← field 0 60 cs
  let (nanos, cs) ← fraction cs
  let seconds := 3600 * h + 60 * m
  if s = 60 then some ((seconds + 59, nanos + 1000000000), cs)
  else some ((seconds + s, nanos), cs)

/-- Two digits of hours, an optional colon or white space, and two digits of minutes. -/
def offsetSize : Part Nat
  | h₁ :: h₂ :: cs => do
    let (h, _) ← digits 2 [h₁, h₂]
    match cs.dropWhile fun c => c = ':' || isBlankChar c with
    | m₁ :: m₂ :: rest =>
      let (m, _) ← digits 2 [m₁, m₂]
      if h₁.isDigit ∧ h₂.isDigit ∧ m₁.isDigit ∧ m₂.isDigit ∧ h ≤ 23 ∧ m ≤ 59 then
        some (3600 * h + 60 * m, rest)
      else none
    | _ => none
  | _ => none

/-- Seconds east of universal time: `Z` or `UTC` in either case, or a sign and a size. -/
def offset : Part Int := fun cs =>
  match cs with
  | u :: t :: c :: rest =>
    if u.toUpper = 'U' ∧ t.toUpper = 'T' ∧ c.toUpper = 'C' then some (0, rest)
    else signed cs
  | cs => signed cs
where
  signed : Part Int
    | 'Z' :: rest | 'z' :: rest => some (0, rest)
    | '+' :: rest => (offsetSize rest).map fun (n, rest) => ((n : Int), rest)
    | '-' :: rest | '−' :: rest => (offsetSize rest).map fun (n, rest) => (-(n : Int), rest)
    | _ => none

/-- Reads a moment and takes it to universal time. -/
def read? (s : String) : Option Timestamp := do
  let (d, cs) ← date s.toList
  let cs ← match cs with
    | 'T' :: cs | 't' :: cs | ' ' :: cs => some cs
    | _ => none
  let ((inDay, nanos), cs) ← time cs
  let (east, cs) ← offset (trimStart cs)
  let seconds := d.toDays * 86400 + inDay - east
  let year := (Date.ofDays (seconds / 86400)).year
  if cs.all isBlankChar ∧ firstYear ≤ year ∧ year ≤ lastYear then some ⟨seconds, nanos⟩ else none

end Timestamp

end Tourney
