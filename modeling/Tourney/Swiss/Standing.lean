import Tourney.Fault
import Tourney.Number.Double

/-!
# Swiss standings

What every player has won, lost and faced, folded from the results one at a time. Players are
ranked by points and then by Buchholz score: the points of the opponents faced, and half the
field's average for every bye. Points are counted in halves, so that they are whole numbers.
-/

namespace Tourney.Swiss

structure Standing where
  player : Player
  wins : UInt32 := 0
  losses : UInt32 := 0
  draws : UInt32 := 0
  opponents : List Player := []
  byes : UInt32 := 0
  buchholz : Double := .zero
  deriving DecidableEq, Repr

namespace Standing

/-- Two for a win and one for a draw. -/
def halfPoints (s : Standing) : Nat := 2 * s.wins.toNat + s.draws.toNat

def points (s : Standing) : Double := .nearest false s.halfPoints 2

def hasPlayed (s : Standing) (opponent : Player) : Bool := s.opponents.contains opponent

/-- The better standing is the lesser. -/
def compare (a b : Standing) : Ordering :=
  (Ord.compare b.halfPoints a.halfPoints).then
    (Ord.compare b.buchholz.orderKey a.buchholz.orderKey)

/-- Adds a match won. -/
def creditWin (s : Standing) (opponent : Player) : Except Fault Standing := do
  let wins ← Counter.increment s.wins
  .ok { s with wins, opponents := s.opponents ++ [opponent] }

/-- Adds a match lost. -/
def creditLoss (s : Standing) (opponent : Player) : Except Fault Standing := do
  let losses ← Counter.increment s.losses
  .ok { s with losses, opponents := s.opponents ++ [opponent] }

/-- Adds a bye, which counts as a win. -/
def creditBye (s : Standing) : Except Fault Standing := do
  let wins ← Counter.increment s.wins
  let byes ← Counter.increment s.byes
  .ok { s with wins, byes }

/-- A standing after `winner` beat `loser`. -/
def afterMatch (winner loser : Player) (s : Standing) : Except Fault Standing :=
  if s.player = winner then s.creditWin loser
  else if s.player = loser then s.creditLoss winner
  else .ok s

end Standing

/-- Standings before the first round, in entry order. -/
def freshStandings (players : List Player) : List Standing := players.map fun player => { player }

/-- The half points of a player; the last standing of a name speaks for it. -/
def halfPointsOf? (ss : List Standing) (name : Player) : Option Nat :=
  (ss.reverse.find? (·.player = name)).map Standing.halfPoints

/-- The half points of the field, every name counted once. -/
def totalHalfPoints : List Standing → Nat
  | [] => 0
  | s :: ss => totalHalfPoints ss + if ss.any (·.player = s.player) then 0 else s.halfPoints

/-- The mean points of the field. -/
def averagePoints (ss : List Standing) : Double :=
  .nearest false (totalHalfPoints ss) (2 * ss.length)

-- the zero of core, whichever algebra is in scope
attribute [local instance (high)] Zero.ofOfNat0 in
def buchholzScore (ss : List Standing) (average : Double) (s : Standing) : Double :=
  let faced := (s.opponents.filterMap (halfPointsOf? ss)).sum
  (Double.nearest false faced 2).plus ((Double.nearest false s.byes.toNat 2).times average)

/-- Computes every Buchholz score anew. -/
def refresh (ss : List Standing) : List Standing :=
  let average := averagePoints ss
  ss.map fun s => { s with buchholz := buchholzScore ss average s }

/-- Gives a bye to the first standing of a name. -/
def recordBye (winner : Player) : List Standing → Except Fault (List Standing)
  | [] => .ok []
  | s :: ss =>
    if s.player = winner then (s.creditBye).map (· :: ss) else (recordBye winner ss).map (s :: ·)

/-- Folds a match into the standings, if it is complete and has a winner: a result when the winner
has beaten someone, and a bye otherwise. -/
def record (ss : List Standing) (m : Match) : Except Fault (List Standing) :=
  match m.status, m.winner, m.loser with
  | .complete, some winner, some loser => (ss.mapM (Standing.afterMatch winner loser)).map refresh
  | .complete, some winner, none => (recordBye winner ss).map refresh
  | _, _, _ => .ok ss

/-- The places of the standings, the best first; ties keep their order. -/
def ranking (ss : List Standing) : List Nat :=
  (ss.zipIdx.mergeSort fun a b => (a.1.compare b.1).isLE).map (·.2)

/-- The standings best first. -/
def ranked (ss : List Standing) : List Standing := ss.mergeSort fun a b => (a.compare b).isLE

end Tourney.Swiss
