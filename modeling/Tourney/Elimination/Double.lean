import Tourney.Elimination.Single

/-!
# Double elimination

The winners bracket is the single-elimination tree. Its losers drop into a losers bracket whose
rounds come in pairs: in a minor round survivors play each other, and in the major round after it
each survivor meets a player who has just dropped. The winners champion takes the first seat of
the grand final, the losers champion the second; if the second seat wins, the reset is played.

Ids run through the winners rounds, the losers rounds, the grand final and the reset.
-/

namespace Tourney.Elimination

/-- The matches of the `i`-th minor round, and of the major round after it. -/
def pairLength (size i : Nat) : Nat := size / 2 ^ (i + 1)

/-- The place of a match of the `i`-th minor round. -/
def minorIndex (size i position : Nat) : Nat := 2 * size - 1 - size / 2 ^ (i - 1) + position

/-- The place of a match of the `i`-th major round. -/
def majorIndex (size i position : Nat) : Nat := minorIndex size i (pairLength size i + position)

def grandFinalIndex (size : Nat) : Nat := 2 * size - 3

def resetIndex (size : Nat) : Nat := 2 * size - 2

/-- Where the loser of a winners match drops. Round-one losers meet in pairs; later ones meet
survivors; with two players the one loser is in the grand final again. -/
def dropRef (rounds : Nat) (first : MatchId) (round position : Nat) : SeatRef :=
  let size := 2 ^ rounds
  if rounds = 1 then ⟨first.plus (grandFinalIndex size), .second⟩
  else if round = 1 then
    ⟨first.plus (minorIndex size 1 (position / 2)), .ofPosition position⟩
  else ⟨first.plus (majorIndex size (round - 1) position), .second⟩

def winnersMatch (slots : List (Option Player)) (rounds : Nat) (first : MatchId) (stage : Stage)
    (round position : Nat) : Match :=
  let m := treeMatch slots rounds first stage round position
  let next : Option SeatRef :=
    if round < rounds then m.next
    else some ⟨first.plus (grandFinalIndex (2 ^ rounds)), .first⟩
  { m with bracket := some .winners, next, loserNext := some (dropRef rounds first round position) }

def winners (slots : List (Option Player)) (rounds : Nat) (first : MatchId) (stage : Stage) :
    List Match :=
  (List.range rounds).flatMap fun r =>
    (List.range (roundLength (2 ^ rounds) (r + 1))).map
      (winnersMatch slots rounds first stage (r + 1))

def minorMatch (rounds : Nat) (first : MatchId) (stage : Stage) (i position : Nat) : Match :=
  let size := 2 ^ rounds
  { id := first.plus (minorIndex size i position)
    round := UInt32.ofNat (2 * i - 1)
    position := UInt32.ofNat position
    stage
    bracket := some .losers
    next := some ⟨first.plus (majorIndex size i position), .first⟩ }

def majorMatch (rounds : Nat) (first : MatchId) (stage : Stage) (i position : Nat) : Match :=
  let size := 2 ^ rounds
  let next : SeatRef :=
    if i + 1 < rounds then
      ⟨first.plus (minorIndex size (i + 1) (position / 2)), .ofPosition position⟩
    else ⟨first.plus (grandFinalIndex size), .second⟩
  { id := first.plus (majorIndex size i position)
    round := UInt32.ofNat (2 * i)
    position := UInt32.ofNat position
    stage
    bracket := some .losers
    next := some next }

/-- The losers rounds in pairs, a minor and a major round for each winners round but the first. -/
def losers (rounds : Nat) (first : MatchId) (stage : Stage) : List Match :=
  (List.range (rounds - 1)).flatMap fun j =>
    let positions := List.range (pairLength (2 ^ rounds) (j + 1))
    positions.map (minorMatch rounds first stage (j + 1)) ++
      positions.map (majorMatch rounds first stage (j + 1))

def grandFinal (rounds : Nat) (first : MatchId) (stage : Stage) : Match :=
  let size := 2 ^ rounds
  { id := first.plus (grandFinalIndex size)
    round := UInt32.ofNat (rounds + 1)
    position := 0
    stage
    bracket := some .grandFinal
    isGrandFinal := true
    next := some ⟨first.plus (resetIndex size), .first⟩
    loserNext := some ⟨first.plus (resetIndex size), .second⟩ }

def grandFinalReset (rounds : Nat) (first : MatchId) (stage : Stage) : Match :=
  { id := first.plus (resetIndex (2 ^ rounds))
    round := UInt32.ofNat (rounds + 2)
    position := 0
    stage
    bracket := some .grandFinal
    isGrandFinalReset := true }

/-- Every match of a double elimination, no bye resolved yet. -/
def doubleTree (slots : List (Option Player)) (rounds : Nat) (first : MatchId) (stage : Stage) :
    List Match :=
  winners slots rounds first stage ++ losers rounds first stage ++
    [grandFinal rounds first stage, grandFinalReset rounds first stage]

/-- A double elimination of a roster, its byes resolved. -/
def double (players : List Player) (draw : Draw) (first : MatchId) (stage : Stage) :
    Except Fault (List Match) := do
  Roster.check players 2
  let rounds := Seeding.rounds players.length
  let _ ← first.plus? (resetIndex (2 ^ rounds))
  let all := doubleTree (bracketSlots (draw.order players)) rounds first stage
  (Arena.resolveByes all (openingIds rounds first)).toExcept

end Tourney.Elimination
