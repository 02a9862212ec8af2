import Tourney.Number.Double

/-!
# Numerals

Reading numbers from text: unsigned whole numbers within a width, and decimals as doubles. A
decimal is read digit by digit into a whole number and a power of ten, and rounded once.
-/

namespace Tourney.Numeral

def value (cs : List Char) : Nat := Nat.ofDigitChars 10 cs 0

/-- Why a text is not an unsigned whole number. -/
inductive WholeFault where
  | empty
  | badDigit
  | tooLarge
  deriving DecidableEq

def WholeFault.message : WholeFault → String
  | .empty => "cannot parse integer from empty string"
  | .badDigit => "invalid digit found in string"
  | .tooLarge => "number too large to fit in target type"

/-- Adds digits to `n` from the left; the first bad digit or overflow ends the reading. -/
def accumulate (limit n : Nat) : List Char → Except WholeFault Nat
  | [] => .ok n
  | c :: cs =>
    if c.isDigit then
      let n' := 10 * n + (c.toNat - '0'.toNat)
      if n' < limit then accumulate limit n' cs else .error .tooLarge
    else .error .badDigit

/-- Reads digits, after at most one plus sign, as a number below `limit`. -/
def whole (limit : Nat) (s : String) : Except WholeFault Nat :=
  match s.toList with
  | [] => .error .empty
  | ['+'] => .error .badDigit
  | '+' :: cs => accumulate limit 0 cs
  | cs => accumulate limit 0 cs

/-- The double nearest to `mantissa * 10 ^ exponent`. Exponents far outside the range of doubles
are not multiplied out. -/
def scaled (negative : Bool) (mantissa : Nat) (exponent : Int) : Double :=
  let places : Int := (Nat.toDigits 10 mantissa).length
  if mantissa = 0 ∨ exponent + places < -400 then Double.nearest negative 0 1
  else if 400 < exponent + places then
    Double.infinity negative
  else Double.nearest negative (mantissa * 10 ^ exponent.toNat) (10 ^ (-exponent).toNat)

/-- The exponent a text ends in: nothing, or a mark, an optional sign and at least one digit. -/
def exponent? : List Char → Option Int
  | [] => some 0
  | c :: cs =>
    if c = 'e' ∨ c = 'E' then
      let (negative, ds) := match cs with
        | '-' :: ds => (true, ds)
        | '+' :: ds => (false, ds)
        | ds => (false, ds)
      if ds ≠ [] ∧ ds.all Char.isDigit then
        some (if negative then -(value ds : Int) else value ds)
      else none
    else none

/-- An unsigned decimal in its parts: the digits before and after the point, and the exponent. -/
structure Decimal where
  before : List Char
  after : List Char
  exponent : Int

def decimal? (cs : List Char) : Option Decimal :=
  let before := cs.takeWhile Char.isDigit
  let rest := cs.dropWhile Char.isDigit
  let (after, tail) := match rest with
    | '.' :: more => (more.takeWhile Char.isDigit, more.dropWhile Char.isDigit)
    | _ => ([], rest)
  (exponent? tail).map fun e => ⟨before, after, e⟩

def Decimal.toDouble (negative : Bool) (d : Decimal) : Double :=
  scaled negative (value (d.before ++ d.after)) (d.exponent - d.after.length)

def lower (s : List Char) : String := String.ofList (s.map Char.toLower)

/-- Reads a double: an optional sign, then an infinity, a NaN, or a decimal with at least one
digit beside its point. -/
def double? (s : String) : Option Double :=
  let (negative, cs) := match s.toList with
    | '-' :: cs => (true, cs)
    | '+' :: cs => (false, cs)
    | cs => (false, cs)
  if lower cs ∈ ["inf", "infinity"] then some (Double.infinity negative)
  else if lower cs = "nan" then some (Double.nan negative)
  else do
    let d ← decimal? cs
    if d.before ++ d.after = [] then none else some (d.toDouble negative)

end Tourney.Numeral
