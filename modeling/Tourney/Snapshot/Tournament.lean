import Tourney.Json.Printer
import Tourney.Json.Reader
import Tourney.Snapshot.Match
import Tourney.Tournament.Basic

/-!
# Snapshots of tournaments

A tournament as a JSON text, from which it can be taken up again.
-/

namespace Tourney.Snapshot

open Json

def ofUuid (u : Uuid) : Json := ofString (String.ofList u.text)

def uuid? (j : Json) : Option Uuid := j.string?.bind Uuid.read?

def finalsFormatName : FinalsFormat → String
  | .singleElimination => "single_elimination"
  | .doubleElimination => "double_elimination"

def finalsFormatNamed? : String → Option FinalsFormat
  | "single_elimination" => some .singleElimination
  | "double_elimination" => some .doubleElimination
  | _ => none

def stagePlanFields : List String := ["finals_size", "finals_format"]

def ofStagePlan (p : StagePlan) : Json :=
  .object [
    ("finals_size", ofUInt64 p.finalsSize),
    ("finals_format", ofString (finalsFormatName p.finalsFormat))]

def stagePlan? (j : Json) : Option StagePlan := do
  match ← j.fields? stagePlanFields with
  | [finalsSize, finalsFormat] =>
    some {
      finalsSize := ← required? uint64? finalsSize
      finalsFormat := ← required? (choice? finalsFormatNamed?) finalsFormat }
  | _ => none

def groupsName : String := "group_round_robin"

def ofFormat : Format → Json
  | .singleElimination => ofString "single_elimination"
  | .doubleElimination => ofString "double_elimination"
  | .swiss => ofString "swiss"
  | .roundRobin => ofString "round_robin"
  | .groups plan => .object [(groupsName, ofStagePlan plan)]

def plainFormatNamed? : String → Option Format
  | "single_elimination" => some .singleElimination
  | "double_elimination" => some .doubleElimination
  | "swiss" => some .swiss
  | "round_robin" => some .roundRobin
  | _ => none

/-- A format: a name, or an object whose one entry gives the plan of a group stage. -/
def format? (j : Json) : Option Format :=
  match j with
  | .object [(name, plan)] =>
    if unspell? name = some groupsName then (stagePlan? plan).map Format.groups
    else j.choice? plainFormatNamed?
  | _ => j.choice? plainFormatNamed?

def generationName : Generation → String
  | .first => "first"
  | .second => "second"
  | .third => "third"

def generationNamed? : String → Option Generation
  | "first" => some .first
  | "second" => some .second
  | "third" => some .third
  | _ => none

def matchTypeName : MatchType → String
  | .points => "points"
  | .sets => "sets"

def matchTypeNamed? : String → Option MatchType
  | "points" => some .points
  | "sets" => some .sets
  | _ => none

def bestOfName : BestOf → String
  | .one => "one"
  | .three => "three"
  | .five => "five"

def bestOfNamed? : String → Option BestOf
  | "one" => some .one
  | "three" => some .three
  | "five" => some .five
  | _ => none

def scoringFields : List String := ["generation", "match_type", "best_of", "own_finish"]

def ofScoring (s : Scoring) : Json :=
  .object [
    ("generation", ofString (generationName s.generation)),
    ("match_type", ofString (matchTypeName s.matchType)),
    ("best_of", ofString (bestOfName s.bestOf)),
    ("own_finish", .bool s.ownFinish)]

def scoring? (j : Json) : Option Scoring := do
  match ← j.fields? scoringFields with
  | [generation, matchType, bestOf, ownFinish] =>
    some {
      generation := ← required? (choice? generationNamed?) generation
      matchType := ← required? (choice? matchTypeNamed?) matchType
      bestOf := ← required? (choice? bestOfNamed?) bestOf
      ownFinish := ← required? bool? ownFinish }
  | _ => none

def ofPlayers (players : List Player) : Json := ofList ofString players

def players? (j : Json) : Option (List Player) := j.list? string?

/-- A configuration; it is only ever written. -/
def ofConfig (c : Config) : Json :=
  .object [
    ("name", ofString c.name),
    ("room_code", ofOption ofString c.roomCode),
    ("format", ofFormat c.format),
    ("scoring", ofScoring c.scoring),
    ("players", ofPlayers c.players),
    ("shuffle", .bool c.shuffle)]

def statusNameOf : TournamentStatus → String
  | .notStarted => "not_started"
  | .inProgress => "in_progress"
  | .complete => "complete"

def tournamentStatusNamed? : String → Option TournamentStatus
  | "not_started" => some .notStarted
  | "in_progress" => some .inProgress
  | "complete" => some .complete
  | _ => none

def standingFields : List String :=
  ["player", "wins", "losses", "draws", "opponents", "byes", "buchholz"]

def ofStanding (s : Swiss.Standing) : Json :=
  .object [
    ("player", ofString s.player),
    ("wins", ofUInt32 s.wins),
    ("losses", ofUInt32 s.losses),
    ("draws", ofUInt32 s.draws),
    ("opponents", ofPlayers s.opponents),
    ("byes", ofUInt32 s.byes),
    ("buchholz", ofDouble s.buchholz)]

def standing? (j : Json) : Option Swiss.Standing := do
  match ← j.fields? standingFields with
  | [player, wins, losses, draws, opponents, byes, buchholz] =>
    some {
      player := ← required? string? player
      wins := ← required? uint32? wins
      losses := ← required? uint32? losses
      draws := ← required? uint32? draws
      opponents := ← required? players? opponents
      byes := ← required? uint32? byes
      buchholz := ← required? Json.double? buchholz }
  | _ => none

def swissFields : List String := ["standings", "current_round", "total_rounds"]

def ofSwissEvent (e : SwissEvent) : Json :=
  .object [
    ("standings", ofList ofStanding e.standings),
    ("current_round", ofUInt32 e.currentRound),
    ("total_rounds", ofUInt32 e.totalRounds)]

def swissEvent? (j : Json) : Option SwissEvent := do
  match ← j.fields? swissFields with
  | [standings, currentRound, totalRounds] =>
    some {
      standings := ← required? (list? standing?) standings
      currentRound := ← required? uint32? currentRound
      totalRounds := ← required? uint32? totalRounds }
  | _ => none

def rowFields : List String := ["player", "wins", "losses", "points_for", "points_against"]

def ofRow (r : RoundRobin.Row) : Json :=
  .object [
    ("player", ofString r.player),
    ("wins", ofUInt32 r.wins),
    ("losses", ofUInt32 r.losses),
    ("points_for", ofUInt32 r.pointsFor),
    ("points_against", ofUInt32 r.pointsAgainst)]

def row? (j : Json) : Option RoundRobin.Row := do
  match ← j.fields? rowFields with
  | [player, wins, losses, pointsFor, pointsAgainst] =>
    some {
      player := ← required? string? player
      wins := ← required? uint32? wins
      losses := ← required? uint32? losses
      pointsFor := ← required? uint32? pointsFor
      pointsAgainst := ← required? uint32? pointsAgainst }
  | _ => none

def ofTable (table : List RoundRobin.Row) : Json := ofList ofRow table

def table? (j : Json) : Option (List RoundRobin.Row) := j.list? row?

def groupFields : List String :=
  ["group_a", "group_b", "standings_a", "standings_b", "finals_generated"]

def ofGroupStage (g : GroupStage) : Json :=
  .object [
    ("group_a", ofPlayers g.groupA),
    ("group_b", ofPlayers g.groupB),
    ("standings_a", ofTable g.tableA),
    ("standings_b", ofTable g.tableB),
    ("finals_generated", .bool g.finalsGenerated)]

def groupStage? (j : Json) : Option GroupStage := do
  match ← j.fields? groupFields with
  | [groupA, groupB, tableA, tableB, finalsGenerated] =>
    some {
      groupA := ← required? players? groupA
      groupB := ← required? players? groupB
      tableA := ← required? table? tableA
      tableB := ← required? table? tableB
      finalsGenerated := ← required? bool? finalsGenerated }
  | _ => none

def tournamentFields : List String := [
  "id", "name", "room_code", "format", "scoring", "players", "matches", "status", "created_at",
  "next_match_id", "shuffle", "swiss", "round_robin", "groups"]

def ofTournament (t : Tournament) : Json :=
  .object [
    ("id", ofUuid t.id),
    ("name", ofString t.name),
    ("room_code", ofString t.roomCode),
    ("format", ofFormat t.format),
    ("scoring", ofScoring t.scoring),
    ("players", ofPlayers t.players),
    ("matches", ofList ofMatch t.arena),
    ("status", ofString (statusNameOf t.status)),
    ("created_at", ofTimestamp t.createdAt),
    ("next_match_id", ofMatchId t.nextMatchId),
    ("shuffle", .bool t.shuffle),
    ("swiss", ofOption ofSwissEvent t.swiss),
    ("round_robin", ofTable t.table),
    ("groups", ofOption ofGroupStage t.groups)]

def tournament? (j : Json) : Option Tournament := do
  match ← j.fields? tournamentFields with
  | [id, name, roomCode, format, scoring, players, arena, status, createdAt, nextMatchId, shuffle,
      swiss, table, groups] =>
    some {
      id := ← required? uuid? id
      name := ← required? string? name
      roomCode := ← required? string? roomCode
      format := ← required? format? format
      scoring := ← required? scoring? scoring
      players := ← required? players? players
      arena := ← required? (list? match?) arena
      status := ← required? (choice? tournamentStatusNamed?) status
      createdAt := ← required? timestamp? createdAt
      nextMatchId := ← required? matchId? nextMatchId
      shuffle := ← required? bool? shuffle
      swiss := ← optional? swissEvent? swiss
      table := ← required? table? table
      groups := ← optional? groupStage? groups }
  | _ => none

end Tourney.Snapshot

namespace Tourney.Tournament

/-- A tournament as a snapshot text. -/
def toSnapshot (t : Tournament) : String := (Snapshot.ofTournament t).pretty

/-- Takes up a tournament from a snapshot text. -/
def ofSnapshot (s : String) : Except Fault Tournament :=
  match (Json.read? s).bind Snapshot.tournament? with
  | some t => .ok t
  | none => .error .unreadableSnapshot

end Tourney.Tournament
