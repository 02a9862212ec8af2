import Tourney.Elimination.Double
import Tourney.RoundRobin.Schedule
import Tourney.RoundRobin.Table

/-!
# Group stages

The roster is cut in two, each half plays a round robin, and the best of both go on to a knockout.
Qualifiers are seeded in turn from the two tables, so that the groups meet crosswise in round one.
-/

namespace Tourney

inductive FinalsFormat where
  | singleElimination
  | doubleElimination
  deriving DecidableEq, Repr, Inhabited

def FinalsFormat.text : FinalsFormat → String
  | .singleElimination => "single elimination"
  | .doubleElimination => "double elimination"

/-- How many players go on to the finals, half of them from each group, and what they play. -/
structure StagePlan where
  finalsSize : UInt64 := 4
  finalsFormat : FinalsFormat := .singleElimination
  deriving DecidableEq, Repr, Inhabited

/-- The finals take an even number of players, at least two, and no more from a group than the
smaller group has. -/
def StagePlan.check (plan : StagePlan) (playerCount : Nat) : Except Fault Unit :=
  let size := plan.finalsSize.toNat
  if playerCount < 4 then .error (.notEnoughPlayers 4 playerCount)
  else if size < 2 ∨ size % 2 ≠ 0 ∨ playerCount / 2 < size / 2 then
    .error (.invalidFinalsSize size playerCount)
  else .ok ()

namespace Groups

/-- Cuts a roster in two, the first half taking the odd player. -/
def split (players : List Player) : List Player × List Player :=
  players.splitAt ((players.length + 1) / 2)

structure GroupDraw where
  groupA : List Player
  groupB : List Player
  fixtures : List Match
  deriving DecidableEq, Repr

/-- Draws both groups and schedules them one after the other. -/
def drawGroups (players : List Player) (plan : StagePlan) (draw : Draw) (first : MatchId) :
    Except Fault GroupDraw := do
  Roster.check players 4
  plan.check players.length
  let (groupA, groupB) := split (draw.order players)
  let matchesA ← RoundRobin.generate groupA .seeded first .groupA
  let next ← first.plus? matchesA.length
  let matchesB ← RoundRobin.generate groupB .seeded next .groupB
  .ok ⟨groupA, groupB, matchesA ++ matchesB⟩

/-- The qualifiers in seed order, taken in turn from the two tables. -/
def finalsSeeding (tableA tableB : List RoundRobin.Row) (finalsSize : Nat) : List Player :=
  ((tableA.zip tableB).take (finalsSize / 2)).flatMap fun (a, b) => [a.player, b.player]

/-- The finals of two ranked tables. -/
def finals (tableA tableB : List RoundRobin.Row) (plan : StagePlan) (first : MatchId) :
    Except Fault (List Match) :=
  let seeds := finalsSeeding tableA tableB plan.finalsSize.toNat
  if seeds.length ≠ plan.finalsSize.toNat then
    .error (.invalidFinalsSize plan.finalsSize.toNat (tableA.length + tableB.length))
  else
    match plan.finalsFormat with
    | .singleElimination => Elimination.single seeds .seeded first .finals
    | .doubleElimination => Elimination.double seeds .seeded first .finals

end Groups

end Tourney
