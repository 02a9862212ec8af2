import Tourney.Fault

/-!
# Seeding

Where the seeds of a knockout start. The brackets of `2 ^ k` slots are built from one another by
doubling: each seed keeps its block of slots, and the seeds of the second half follow in reverse
order, so that the best meet last. Slots `2 * k` and `2 * k + 1` are the `k`-th match of round one.
-/

-- powers of numbers are those of core, whichever algebra is in scope
attribute [instance (high), default_instance (high + 1)] instPowNat

namespace Tourney.Seeding

/-- The rounds it takes to bring `n` players down to one; at least one. -/
def rounds (n : Nat) : Nat := (max n 2 - 1).log2 + 1

/-- The slots of a bracket for `n` players: the least power of two, from two up, that fits them. -/
def bracketSize (n : Nat) : Nat := 2 ^ rounds n

/-- The bracket size of a field counted in 64 bits, if the size can be counted in them too. -/
def bracketSize? (n : Nat) : Except Fault Nat :=
  if bracketSize n < 2 ^ 64 then .ok (bracketSize n) else .error .outOfRange

/-- The rounds of a field whose bracket size can be counted in 64 bits. -/
def rounds? (n : Nat) : Except Fault Nat := (bracketSize? n).map fun _ => rounds n

/-- The slot of each seed in a bracket of `2 ^ k`, the top seed first. -/
def slots : Nat → List Nat
  | 0 => [0]
  | k + 1 => (slots k).map (2 * ·) ++ (slots k).reverse.map (2 * · + 1)

/-- The slot of each seed in a bracket of any size that has one. -/
def order (size : Nat) : Except Fault (List Nat) :=
  if 2 ≤ size ∧ 2 ^ size.log2 = size then .ok (slots size.log2)
  else .error (.invalidBracketSize size)

/-- Puts each player into its seed's slot. The slots left over are byes. -/
def seat (players : List Player) (size : Nat) (order : List Nat) : List (Option Player) :=
  (players.zip order).foldl (fun slots (p, i) => slots.set i (some p)) (List.replicate size none)

/-- Puts each player into its seed's slot, if the order names slots of the bracket only. -/
def seat? (players : List Player) (size : Nat) (order : List Nat) :
    Except Fault (List (Option Player)) :=
  if (order.take players.length).all (· < size) then .ok (seat players size order)
  else .error .outOfRange

end Tourney.Seeding
