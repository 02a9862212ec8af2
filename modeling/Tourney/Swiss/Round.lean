import Tourney.Arena.Propagation
import Tourney.Draw
import Tourney.Elimination.Seeding
import Tourney.Roster
import Tourney.Swiss.Pairing

/-!
# Swiss rounds

The first round pairs neighbours of the draw; later rounds come from the standings. A player
without an opponent has a bye, which is won at once.
-/

namespace Tourney.Swiss

/-- The rounds an event of `n` players runs, enough to leave one unbeaten. -/
def roundCount (n : Nat) : Nat := Seeding.rounds n

/-- The matches of a round, in the order of its boards. -/
def boards (pairs : List (Player × Option Player)) (round : UInt32) (first : MatchId)
    (stage : Stage) : List Match :=
  pairs.zipIdx.map fun ((a, b), k) =>
    .seated (first.plus k) round (UInt32.ofNat k) stage (some a) b

/-- The matches of a round with its bye resolved. -/
def buildRound (pairs : List (Player × Option Player)) (round : UInt32) (first : MatchId)
    (stage : Stage) : Except Fault (List Match) := do
  let _ ← first.plus? pairs.length
  let ms := boards pairs round first stage
  (Arena.resolveByes ms (ms.map (·.id))).toExcept

/-- Pairs each player at an even place with the one after. -/
def neighbours : List Player → List (Player × Option Player)
  | [] => []
  | [a] => [(a, none)]
  | a :: b :: rest => (a, some b) :: neighbours rest

/-- Round one of a roster. -/
def firstRound (players : List Player) (draw : Draw) (first : MatchId) (stage : Stage) :
    Except Fault (List Match) := do
  Roster.check players 2
  buildRound (neighbours (draw.order players)) 1 first stage

/-- The boards of a pairing, the bye last. -/
def Pairing.boards (p : Pairing) : List (Player × Option Player) :=
  p.pairs.map (fun (a, b) => (a, some b)) ++ p.bye.toList.map fun a => (a, none)

/-- A later round, paired from the standings. -/
def nextRound (ss : List Standing) (round : UInt32) (first : MatchId) (stage : Stage) :
    Except Fault (List Match) :=
  buildRound (pairNextRound ss).boards round first stage

end Tourney.Swiss
