import Tourney.Arena.Propagation
import Tourney.Swiss.Round
import Tourney.Tournament.Basic

/-!
# Playing a tournament

A tournament is opened from a configuration, started with a draw, and driven by results. After
every result whatever it unlocks is generated: the next Swiss round, the finals behind the groups,
and in the end completion.
-/

namespace Tourney

/-- What a result sets in motion: the rounds it has generated, and whether it was the last. -/
structure Effects where
  generated : List (Stage × UInt32) := []
  completed : Bool := false
  deriving DecidableEq, Repr

/-- What a new tournament is given from outside: an identity, a time, and a room code for when
none is asked for. -/
structure Stamp where
  id : Uuid
  createdAt : Timestamp
  roomCode : String

namespace Tournament

def firstMatchId : MatchId := ⟨1⟩

/-- A tournament nobody has started yet. -/
def ofConfig (c : Config) (stamp : Stamp) : Except Fault Tournament := do
  c.check
  .ok {
    id := stamp.id
    name := c.name
    roomCode := c.roomCode.getD stamp.roomCode
    format := c.format
    scoring := c.scoring
    players := c.players
    arena := []
    status := .notStarted
    createdAt := stamp.createdAt
    nextMatchId := firstMatchId
    shuffle := c.shuffle
    swiss := none
    table := []
    groups := none }

/-- Appends matches; the next ids follow the last of them. -/
def append (t : Tournament) (ms : List Match) : Except Fault Tournament :=
  match ms.getLast? with
  | none => .ok t
  | some last => do
    let nextMatchId ← last.id.plus? 1
    .ok { t with nextMatchId, arena := t.arena ++ ms }

/-! ## What a result unlocks -/

/-- Folds the byes of a new round into the standings. -/
def recordByes (ss : List Swiss.Standing) (ms : List Match) : Except Fault (List Swiss.Standing) :=
  (ms.filter (·.status = .complete)).foldlM Swiss.record ss

/-- Pairs the next Swiss round once the current one is resolved. -/
def pairNextRound (t : Tournament) : Except Fault (Tournament × List (Stage × UInt32)) :=
  match t.swiss with
  | none => .ok (t, [])
  | some e =>
    if e.totalRounds ≤ e.currentRound ∨ !t.roundResolved .main e.currentRound then .ok (t, [])
    else do
      let round := e.currentRound + 1
      let ms ← Swiss.nextRound e.standings round t.nextMatchId .main
      let standings ← recordByes e.standings ms
      let t ← { t with swiss := some { e with standings, currentRound := round } }.append ms
      .ok (t, [(.main, round)])

/-- Generates the finals once both groups are resolved. -/
def drawFinals (t : Tournament) : Except Fault (Tournament × List (Stage × UInt32)) :=
  match t.format, t.groups with
  | .groups plan, some g =>
    if g.finalsGenerated ∨ !t.stageResolved .groupA ∨ !t.stageResolved .groupB then .ok (t, [])
    else do
      let ms ← Groups.finals g.tableA g.tableB plan t.nextMatchId
      let t ← { t with groups := some { g with finalsGenerated := true } }.append ms
      .ok (t, [(.finals, 1)])
  | _, _ => .ok (t, [])

/-- Whether a tournament under way has come to its end. -/
def isOver (t : Tournament) : Bool := t.status = .inProgress && t.allStagesDone

/-- Generates whatever the state unlocks and settles the status. -/
def advance (t : Tournament) : Reply Tournament Effects :=
  match t.pairNextRound with
  | .error f => .refused t f
  | .ok (t, rounds) =>
    match t.drawFinals with
    | .error f => .refused t f
    | .ok (t, finals) =>
      if t.isOver then .done { t with status := .complete } ⟨rounds ++ finals, true⟩
      else .done t ⟨rounds ++ finals, false⟩

/-! ## Starting -/

/-- The draw of a tournament: players enter in seed order unless a shuffle is asked for. -/
def entryDraw (t : Tournament) (draw : Draw) : Draw := if t.shuffle then draw else .seeded

/-- Generates the first stage. -/
def firstStage (t : Tournament) (draw : Draw) : Except Fault Tournament :=
  let draw := t.entryDraw draw
  match t.format with
  | .singleElimination => do
    t.append (← Elimination.single t.players draw t.nextMatchId .main)
  | .doubleElimination => do
    t.append (← Elimination.double t.players draw t.nextMatchId .main)
  | .swiss => do
    let ms ← Swiss.firstRound t.players draw t.nextMatchId .main
    let standings ← ms.foldlM Swiss.record (Swiss.freshStandings t.players)
    let totalRounds := UInt32.ofNat (Swiss.roundCount t.players.length)
    { t with swiss := some { standings, currentRound := 1, totalRounds } }.append ms
  | .roundRobin => do
    let ms ← RoundRobin.generate t.players draw t.nextMatchId .main
    { t with table := RoundRobin.freshTable t.players }.append ms
  | .groups plan => do
    let d ← Groups.drawGroups t.players plan draw t.nextMatchId
    { t with groups := some {
        groupA := d.groupA
        groupB := d.groupB
        tableA := RoundRobin.freshTable d.groupA
        tableB := RoundRobin.freshTable d.groupB
        finalsGenerated := false } }.append d.fixtures

/-- Starts a tournament that has not been started. -/
def start (t : Tournament) (draw : Draw) : Reply Tournament Unit :=
  if t.status ≠ .notStarted then .refused t .alreadyStarted
  else
    match t.firstStage draw with
    | .error f => .refused t f
    | .ok started =>
      let r := { started with status := .inProgress }.advance
      ⟨r.state, r.answer.map fun _ => ()⟩

/-- Opens a tournament and starts it. -/
def create (c : Config) (stamp : Stamp) (draw : Draw) : Except Fault Tournament := do
  let t ← ofConfig c stamp
  (t.start draw).toExcept

/-! ## Results -/

/-- Folds a match into the group table of its stage. -/
def recordGroup (g : GroupStage) (m : Match) : Except Fault GroupStage :=
  match m.stage with
  | .groupA => do
    let tableA ← RoundRobin.recordAndRank g.tableA m
    .ok { g with tableA }
  | .groupB => do
    let tableB ← RoundRobin.recordAndRank g.tableB m
    .ok { g with tableB }
  | _ => .ok g

/-- Folds a resolved match into the standings of the format. -/
def tally (t : Tournament) (m : Match) : Except Fault Tournament :=
  match t.format, t.swiss, t.groups with
  | .swiss, some e, _ => do
    let standings ← Swiss.record e.standings m
    .ok { t with swiss := some { e with standings } }
  | .roundRobin, _, _ => do
    let table ← RoundRobin.recordAndRank t.table m
    .ok { t with table }
  | .groups _, _, some g => do
    let g ← recordGroup g m
    .ok { t with groups := some g }
  | _, _, _ => .ok t

/-- Records the result of a match and generates what it unlocks. -/
def record (t : Tournament) (id : MatchId) (o : Outcome) : Reply Tournament Effects :=
  let r := Arena.complete t.arena id o
  let t := { t with arena := r.state }
  match r.answer with
  | .error f => .refused t f
  | .ok () =>
    match Arena.find t.arena id >>= t.tally with
    | .error f => .refused t f
    | .ok t => t.advance

end Tournament

end Tourney
