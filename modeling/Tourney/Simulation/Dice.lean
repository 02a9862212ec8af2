import Tourney.Draw
import Tourney.Number.Double

/-!
# Dice

An endless sequence of 64-bit numbers, thrown one after another, from which a simulation takes its
chances. Anything shown of all dice holds for every run of luck.
-/

namespace Tourney

abbrev Dice := Nat → UInt64

namespace Dice

def coin (d : UInt64) : Bool := d % 2 = 0

/-- A number below `n`. -/
def below (n : Nat) (d : UInt64) : Nat := d.toNat % n

/-- The share of all 64-bit numbers that a rate below one stands for. -/
def threshold (rate : Double) : Nat :=
  let (m, e) := rate.parts
  m * 2 ^ (e + 64).toNat / 2 ^ (-(e + 64)).toNat

/-- Whether a chance of the given rate comes true; none if it is not a rate from zero to one. -/
def chance? (rate : Double) (d : UInt64) : Option Bool :=
  if rate.isRate then some (d.toNat < threshold rate)
  else if rate = .nearest false 1 1 then some true
  else none

/-- Dice that are settled by a seed. -/
def ofSeed (seed : Nat) : Dice := fun i =>
  let z := UInt64.ofNat seed + UInt64.ofNat (i + 1) * 0x9e3779b97f4a7c15
  let z := (z ^^^ (z >>> 30)) * 0xbf58476d1ce4e5b9
  let z := (z ^^^ (z >>> 27)) * 0x94d049bb133111eb
  z ^^^ (z >>> 31)

/-- The draw that takes its numbers from dice. -/
def draw (dice : Dice) : Draw where
  order players := Draw.shuffle ((List.range players.length).map fun i => (dice i).toNat) players
  perm _ := Draw.shuffle_perm _ _

end Dice

end Tourney
