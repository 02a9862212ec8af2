import Tourney.Number.Double

/-!
# Shortest decimals

A double is written with the fewest significant digits that still read back as that double, and
among those digits the nearest. `Shortest.text` writes them positionally while the point stays
within sixteen places of the front and five of the back, and with an exponent otherwise.
-/

namespace Tourney.Shortest

/-- Decimal digits of a positive number, and the place of its point: `0.d₁d₂… * 10 ^ point`. -/
structure Digits where
  digits : List Char
  point : Int

/-- The open or closed interval of numbers that round to a double, in units of `1 / den`. -/
structure Bounds where
  den : Nat
  value : Nat
  low : Nat
  high : Nat
  closed : Bool

/-- The numbers that round to `m * 2 ^ e`: half a step up, and half a step down or a quarter
where the steps below are half as wide. -/
def bounds (m : Nat) (e : Int) : Bounds :=
  let narrow := m = 2 ^ 52 ∧ Double.minExponent < e
  let up := 2 ^ e.toNat
  { den := 4 * 2 ^ (-e).toNat
    value := 4 * m * up
    low := (4 * m - if narrow then 1 else 2) * up
    high := (4 * m + 2) * up
    closed := m % 2 = 0 }

def Bounds.holds (b : Bounds) (num den : Nat) : Bool :=
  if b.closed then b.low * den ≤ num * b.den && num * b.den ≤ b.high * den
  else b.low * den < num * b.den && num * b.den < b.high * den

/-- The number nearest to the value on the grid of multiples of `10 ^ k`, if one of the value's
two neighbours there rounds to it. A tie goes to the even neighbour. -/
def onGrid? (b : Bounds) (k : Int) : Option Nat :=
  let up := 10 ^ k.toNat
  let down := 10 ^ (-k).toNat
  let below := b.value * down / (b.den * up)
  let inside (n : Nat) : Bool := b.holds (n * up) down
  let twice := 2 * b.value * down
  let middle := (2 * below + 1) * b.den * up
  let aboveFirst := middle < twice || (middle == twice && below % 2 == 1)
  if inside below && inside (below + 1) then some (if aboveFirst then below + 1 else below)
  else if inside below then some below
  else if inside (below + 1) then some (below + 1)
  else none

/-- The coarsest grid with a number that rounds to the value, among the `fuel` grids below `k`. -/
def search (b : Bounds) : Nat → Int → Nat × Int
  | 0, k => (b.value * 10 ^ (-k).toNat / (b.den * 10 ^ k.toNat), k)
  | fuel + 1, k =>
    match onGrid? b k with
    | some n => (n, k)
    | none => search b fuel (k - 1)

/-- An upper bound on the decimal places of a quotient of whole numbers. -/
def firstPlace (b : Bounds) : Int :=
  (Nat.toDigits 10 b.value).length - (Nat.toDigits 10 b.den).length + 1

def strip (cs : List Char) : List Char := (cs.reverse.dropWhile (· = '0')).reverse

/-- The shortest digits of the size of a finite double other than zero. -/
def digits (x : Double) : Digits :=
  let (m, e) := x.parts
  let b := bounds m e
  let (n, k) := search b 20 (firstPlace b)
  let ds := Nat.toDigits 10 n
  { digits := strip ds, point := ds.length + k }

/-- The size of a double with its point in place or an exponent, always with a point or an
exponent, so that it is not taken for a whole number. -/
def place (d : Digits) : List Char :=
  let n : Int := d.digits.length
  if 0 < d.point ∧ d.point ≤ 16 then
    if n ≤ d.point then d.digits ++ List.replicate (d.point - n).toNat '0' ++ ['.', '0']
    else d.digits.take d.point.toNat ++ ['.'] ++ d.digits.drop d.point.toNat
  else if -5 < d.point ∧ d.point ≤ 0 then
    ['0', '.'] ++ List.replicate (-d.point).toNat '0' ++ d.digits
  else
    let e := d.point - 1
    let lead := match d.digits with
      | c :: c' :: cs => c :: '.' :: c' :: cs
      | cs => cs
    lead ++ ['e', if e < 0 then '-' else '+'] ++ Nat.toDigits 10 e.natAbs

/-- The shortest text of a finite double. -/
def text (x : Double) : List Char :=
  let size := if x.parts.1 = 0 then ['0', '.', '0'] else place (digits x)
  if x.isNegative then '-' :: size else size

end Tourney.Shortest
