import Tourney.Number.Double

/-!
# Fixed places

A double written with a given number of places after the point. The digits are those of its exact
binary value, and a value halfway between two of them goes to the even one.
-/

namespace Tourney.Fixed

/-- A whole number of units of `10 ^ -places`. -/
def units (x : Double) (places : Nat) : Nat :=
  let (m, e) := x.parts
  Double.roundDiv (m * 2 ^ e.toNat * 10 ^ places) (2 ^ (-e).toNat)

def pad (width : Nat) (cs : List Char) : List Char :=
  List.replicate (width - cs.length) '0' ++ cs

/-- The text of a double with `places` digits after the point. -/
def text (x : Double) (places : Nat) : List Char :=
  if x.isNaN then "NaN".toList else
    let size := if x.isFinite then
        let ds := pad (places + 1) (Nat.toDigits 10 (units x places))
        ds.take (ds.length - places) ++ ['.'] ++ ds.drop (ds.length - places)
      else "inf".toList
    if x.isNegative then '-' :: size else size

end Tourney.Fixed
