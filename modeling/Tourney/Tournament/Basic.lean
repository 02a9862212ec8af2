import Tourney.Swiss.Standing
import Tourney.Tournament.Config
import Tourney.Uuid

/-!
# Tournaments

The state of a tournament: its configuration, every match generated so far, and what its format
keeps beside them. Below it stand the questions one can ask of that state.
-/

namespace Tourney

inductive TournamentStatus where
  | notStarted
  | inProgress
  | complete
  deriving DecidableEq, Repr, Inhabited

def TournamentStatus.text : TournamentStatus → String
  | .notStarted => "not started"
  | .inProgress => "in progress"
  | .complete => "complete"

/-- A Swiss event under way: its standings in entry order, and its rounds. -/
structure SwissEvent where
  standings : List Swiss.Standing
  currentRound : UInt32
  totalRounds : UInt32
  deriving DecidableEq, Repr

/-- A group stage under way: both rosters and both ranked tables. -/
structure GroupStage where
  groupA : List Player
  groupB : List Player
  tableA : List RoundRobin.Row
  tableB : List RoundRobin.Row
  finalsGenerated : Bool
  deriving DecidableEq, Repr

structure Tournament where
  id : Uuid
  name : String
  roomCode : String
  format : Format
  scoring : Scoring
  players : List Player
  arena : List Match
  status : TournamentStatus
  createdAt : Timestamp
  nextMatchId : MatchId
  shuffle : Bool
  swiss : Option SwissEvent
  table : List RoundRobin.Row
  groups : Option GroupStage
  deriving DecidableEq, Repr

namespace Tournament

def match? (t : Tournament) (id : MatchId) : Option Match := Arena.find? t.arena id

/-- Pending matches with both seats taken. -/
def readyMatches (t : Tournament) : List Match :=
  t.arena.filter fun m => m.status = .pending ∧ m.isReady

def isComplete (t : Tournament) : Bool := t.status = .complete

/-- The stage being played; both groups answer for the first. -/
def activeStage (t : Tournament) : Stage :=
  match t.groups with
  | some g => if g.finalsGenerated then .finals else .groupA
  | none => .main

/-- The matches of the stage being played. -/
def activeMatches (t : Tournament) : List Match :=
  t.arena.filter (·.stage.together = t.activeStage)

/-- The earliest round of the active stage with an unresolved match; the last once there is none,
and zero before any match. A Swiss event counts its rounds itself. -/
def currentRound (t : Tournament) : UInt32 :=
  match t.swiss with
  | some e => e.currentRound
  | none =>
    let rounds := t.activeMatches.map (·.round)
    let unresolved := (t.activeMatches.filter fun m => !m.status.isResolved).map (·.round)
    match unresolved with
    | r :: rs => rs.foldl min r
    | [] => rounds.foldl max 0

/-- How many matches are resolved, and how many there are. -/
def progress (t : Tournament) : Nat × Nat :=
  (t.arena.countP (·.status.isResolved), t.arena.length)

/-- Winners matches come before losers matches, and the grand final last. -/
def bracketRank : Option Bracket → Nat
  | none => 0
  | some .winners => 1
  | some .losers => 2
  | some .grandFinal => 3

/-- The order of the boards in a round. -/
def boardLE (a b : Match) : Bool :=
  let ra := bracketRank a.bracket
  let rb := bracketRank b.bracket
  ra < rb || (ra == rb && a.position ≤ b.position)

/-- The matches of a round in board order. -/
def matchesInRound (t : Tournament) (stage : Stage) (round : UInt32) : List Match :=
  (t.arena.filter fun m => m.stage = stage ∧ m.round = round).mergeSort boardLE

/-- The winner of the one match of a stage that feeds no other. -/
def bracketWinner (t : Tournament) (stage : Stage) : Option Player :=
  (t.arena.find? fun m => m.stage = stage ∧ m.next.isNone).bind (·.winner)

/-- The Swiss standings best first; none in other formats. -/
def swissStandings (t : Tournament) : List Swiss.Standing :=
  match t.swiss with
  | some e => Swiss.ranked e.standings
  | none => []

/-- Who won, once the tournament is complete. -/
def champion (t : Tournament) : Option Player :=
  if !t.isComplete then none
  else
    match t.format with
    | .singleElimination | .doubleElimination => t.bracketWinner .main
    | .groups _ => t.bracketWinner .finals
    | .swiss => t.swissStandings.head?.map (·.player)
    | .roundRobin => t.table.head?.map (·.player)

def roundResolved (t : Tournament) (stage : Stage) (round : UInt32) : Bool :=
  t.arena.all fun m => !(m.stage = stage ∧ m.round = round) || m.status.isResolved

def stageResolved (t : Tournament) (stage : Stage) : Bool :=
  t.arena.all fun m => m.stage ≠ stage || m.status.isResolved

/-- Everything has been generated and everything generated is resolved. -/
def allStagesDone (t : Tournament) : Bool :=
  (match t.swiss with | some e => e.totalRounds ≤ e.currentRound | none => true) &&
    (match t.groups with | some g => g.finalsGenerated | none => true) &&
    !t.arena.isEmpty && t.arena.all (·.status.isResolved)

end Tournament

end Tourney
