import Tourney.Draw
import Tourney.Roster

/-!
# Round robins

Everyone meets everyone once, by the circle method: the players sit around a table, each faces the
one across, and after every round all but the first move on one seat. An odd field has one empty
chair, and whoever faces it sits the round out.
-/

namespace Tourney.RoundRobin

/-- The chairs of a table for `n` players. -/
def chairs (n : Nat) : Nat := n + n % 2

/-- Who sits on a chair in round `t`: the first player stays, the others move on a chair a round. -/
def sitter (n t chair : Nat) : Nat :=
  if chair = 0 then 0
  else (chair - 1 + (chairs n - 1 - t)) % (chairs n - 1) + 1

/-- The pairs of round `t`, counted from zero, without the pair of the empty chair. -/
def roundPairs (n t : Nat) : List (Nat × Nat) :=
  ((List.range (chairs n / 2)).map fun i => (sitter n t i, sitter n t (chairs n - 1 - i))).filter
    fun (a, b) => a < n && b < n

/-- The pairs of every round of a field of `n` players. -/
def pairings (n : Nat) : List (List (Nat × Nat)) :=
  if n < 2 then [] else (List.range (chairs n - 1)).map (roundPairs n)

/-- The matches of a field with their rounds and positions, round by round. -/
def fixtures (n : Nat) : List ((Nat × Nat) × Nat × Nat) :=
  (pairings n).zipIdx.flatMap fun (pairs, t) =>
    pairs.zipIdx.map fun (pair, position) => (pair, t + 1, position)

/-- All matches of a round robin of a roster. -/
def generate (players : List Player) (draw : Draw) (first : MatchId) (stage : Stage) :
    Except Fault (List Match) := do
  Roster.check players 2
  let entrants := draw.order players
  let all := fixtures players.length
  let _ ← first.plus? all.length
  .ok (all.zipIdx.map fun (((a, b), round, position), k) =>
    .seated (first.plus k) (UInt32.ofNat round) (UInt32.ofNat position) stage
      entrants[a]? entrants[b]?)

end Tourney.RoundRobin
