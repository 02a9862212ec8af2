import Tourney.Arena.Propagation
import Tourney.Draw
import Tourney.Elimination.Seeding
import Tourney.Roster

/-!
# Single elimination

A tree of matches, round by round, each match feeding the one at half its position in the round
after. The matches take consecutive ids, so a match is found from its round and position alone
(`treeIndex`).
-/

namespace Tourney.Elimination

/-- The matches of a round, in a bracket of `size` slots. -/
def roundLength (size round : Nat) : Nat := size / 2 ^ round

/-- The place of a match among all matches of the tree. -/
def treeIndex (size round position : Nat) : Nat :=
  size - size / 2 ^ (round - 1) + position

/-- The match of a round of the tree, its first-round seats settled from the bracket's slots. -/
def treeMatch (slots : List (Option Player)) (rounds : Nat) (first : MatchId) (stage : Stage)
    (round position : Nat) : Match :=
  let id := first.plus (treeIndex (2 ^ rounds) round position)
  let r := UInt32.ofNat round
  let p := UInt32.ofNat position
  let next : Option SeatRef :=
    if round < rounds then
      some ⟨first.plus (treeIndex (2 ^ rounds) (round + 1) (position / 2)),
        .ofPosition position⟩
    else none
  if round = 1 then
    { Match.seated id r p stage (slots[2 * position]?.join) (slots[2 * position + 1]?.join) with
      next }
  else { id, round := r, position := p, stage, next }

/-- All matches of the tree, round by round. -/
def tree (slots : List (Option Player)) (rounds : Nat) (first : MatchId) (stage : Stage) :
    List Match :=
  (List.range rounds).flatMap fun r =>
    (List.range (roundLength (2 ^ rounds) (r + 1))).map (treeMatch slots rounds first stage (r + 1))

/-- The ids of round one, where the byes are. -/
def openingIds (rounds : Nat) (first : MatchId) : List MatchId :=
  (List.range (roundLength (2 ^ rounds) 1)).map first.plus

/-- The slots of a bracket for players in seed order. -/
def bracketSlots (entrants : List Player) : List (Option Player) :=
  let k := Seeding.rounds entrants.length
  Seeding.seat entrants (2 ^ k) (Seeding.slots k)

/-- A knockout of a roster, its byes resolved. -/
def single (players : List Player) (draw : Draw) (first : MatchId) (stage : Stage) :
    Except Fault (List Match) := do
  Roster.check players 2
  let rounds := Seeding.rounds players.length
  let _ ← first.plus? (2 ^ rounds - 1)
  let all := tree (bracketSlots (draw.order players)) rounds first stage
  (Arena.resolveByes all (openingIds rounds first)).toExcept

end Tourney.Elimination
