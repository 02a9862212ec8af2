import Tourney.Fault

/-!
# Round-robin tables

Wins, losses and points of every player, folded from the results one at a time. A table is ranked
by wins, then by the difference of points, then by points scored; rows that tie keep their order.
-/

namespace Tourney.RoundRobin

structure Row where
  player : Player
  wins : UInt32 := 0
  losses : UInt32 := 0
  pointsFor : UInt32 := 0
  pointsAgainst : UInt32 := 0
  deriving DecidableEq, Repr

namespace Row

def differential (r : Row) : Int := (r.pointsFor.toNat : Int) - r.pointsAgainst.toNat

/-- The better row is the lesser. -/
def compare (a b : Row) : Ordering :=
  (Ord.compare b.wins a.wins).then <|
    (Ord.compare b.differential a.differential).then (Ord.compare b.pointsFor a.pointsFor)

/-- Adds a match in which the row's player scored and conceded points. -/
def credit (r : Row) (scored conceded : UInt32) (won : Bool) : Except Fault Row := do
  let pointsFor ← Counter.add r.pointsFor scored
  let pointsAgainst ← Counter.add r.pointsAgainst conceded
  if won then
    let wins ← Counter.increment r.wins
    .ok { r with pointsFor, pointsAgainst, wins }
  else
    let losses ← Counter.increment r.losses
    .ok { r with pointsFor, pointsAgainst, losses }

/-- A row after a match between two players. -/
def afterMatch (m : Match) (p1 p2 : Player) (r : Row) : Except Fault Row :=
  let firstWon : Bool := m.winner == some p1
  if r.player = p1 then r.credit m.figures.score1 m.figures.score2 firstWon
  else if r.player = p2 then r.credit m.figures.score2 m.figures.score1 (!firstWon)
  else .ok r

end Row

/-- A table in which nobody has played. -/
def freshTable (players : List Player) : List Row := players.map fun player => { player }

/-- Folds a complete match between two players into the table. -/
def record (table : List Row) (m : Match) : Except Fault (List Row) :=
  match m.status, m.player1, m.player2 with
  | .complete, some p1, some p2 => table.mapM (Row.afterMatch m p1 p2)
  | _, _, _ => .ok table

/-- The table best first. -/
def rank (table : List Row) : List Row := table.mergeSort fun a b => (a.compare b).isLE

/-- Folds a match in and ranks the table anew. -/
def recordAndRank (table : List Row) (m : Match) : Except Fault (List Row) :=
  (record table m).map rank

end Tourney.RoundRobin
