/-!
# Doubles

A double is its 64 bits, so two of them are equal only if they are written alike. `Double.parts`
takes a finite double apart into a whole number and a power of two, and `Double.nearest` finds the
double nearest to a quotient of whole numbers, a tie going to the even significand. Nothing else
rounds, so text and arithmetic that go through these two are exact up to one rounding a step.
-/

-- powers of numbers are those of core, whichever algebra is in scope
attribute [instance (high), default_instance (high + 1)] instPowNat

namespace Tourney

structure Double where
  bits : UInt64
  deriving DecidableEq, Repr, Inhabited

namespace Double

/-- Least exponent of a double's significand, that of the subnormal numbers. -/
def minExponent : Int := -1074

def signBit : Nat := 2 ^ 63

/-- The bits of positive infinity. -/
def infinityBits : Nat := 2047 * 2 ^ 52

/-- The bits of one. -/
def oneBits : Nat := 1023 * 2 ^ 52

/-- The bits without the sign. Doubles of one sign are as large as these are. -/
def sizeBits (x : Double) : Nat := x.bits.toNat % signBit

def isNegative (x : Double) : Bool := signBit ≤ x.bits.toNat

/-- Whether a double is neither infinite nor a NaN. -/
def isFinite (x : Double) : Bool := x.sizeBits < infinityBits

def isNaN (x : Double) : Bool := infinityBits < x.sizeBits

/-- The double of a sign and the bits of its size. -/
def signed (negative : Bool) (size : Nat) : Double :=
  ⟨UInt64.ofNat ((if negative then signBit else 0) + size)⟩

def zero : Double := signed false 0

def infinity (negative : Bool) : Double := signed negative infinityBits

def nan (negative : Bool) : Double := signed negative (infinityBits + 2 ^ 51)

/-- The significand `m` and exponent `e` of a finite double of size `m * 2 ^ e`. -/
def parts (x : Double) : Nat × Int :=
  let field : Nat := x.sizeBits / 2 ^ 52
  let fraction : Nat := x.sizeBits % 2 ^ 52
  if field = 0 then (fraction, minExponent) else (2 ^ 52 + fraction, field - 1075)

/-- The whole number nearest to `num / den`, a tie going to the even one. -/
def roundDiv (num den : Nat) : Nat :=
  let q := num / den
  let r := num % den
  if 2 * r < den then q
  else if den < 2 * r then q + 1
  else q + q % 2

/-- The greatest `t` with `2 ^ t ≤ num / den`. -/
def magnitude (num den : Nat) : Int :=
  let t : Int := (num.log2 : Int) - (den.log2 : Int)
  let fits := if 0 ≤ t then den * 2 ^ t.toNat ≤ num else den ≤ num * 2 ^ (-t).toNat
  if fits then t else t - 1

/-- The bits of the double nearest to `num / den`; past the greatest finite double, infinity. -/
def nearestBits (num den : Nat) : Nat :=
  if num = 0 then 0 else
    let e := max (magnitude num den - 52) minExponent
    let m := if 0 ≤ e then roundDiv num (den * 2 ^ e.toNat) else roundDiv (num * 2 ^ (-e).toNat) den
    min (m + (e - minExponent).toNat * 2 ^ 52) infinityBits

def nearest (negative : Bool) (num den : Nat) : Double := signed negative (nearestBits num den)

/-- The size of a finite double as a quotient of whole numbers. -/
def quotient (x : Double) : Nat × Nat :=
  let (m, e) := x.parts
  (m * 2 ^ e.toNat, 2 ^ (-e).toNat)

/-- The sum of two finite doubles, neither of them negative. -/
def plus (x y : Double) : Double :=
  let (a, b) := x.quotient
  let (c, d) := y.quotient
  nearest false (a * d + c * b) (b * d)

/-- The product of two finite doubles, neither of them negative. -/
def times (x y : Double) : Double :=
  let (a, b) := x.quotient
  let (c, d) := y.quotient
  nearest false (a * c) (b * d)

/-- Whether a double is at least zero, of either sign, and below one. -/
def isRate (x : Double) : Bool := x.sizeBits < oneBits && (!x.isNegative || x.sizeBits == 0)

/-- A key that puts doubles in the IEEE total order: negative NaNs first, then the numbers from
negative to positive infinity with the negative zero before the positive, positive NaNs last. -/
def orderKey (x : Double) : Int :=
  if x.isNegative then -(x.sizeBits : Int) - 1 else x.sizeBits

end Double

end Tourney
