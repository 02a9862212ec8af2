import Tourney.Json.Record
import Tourney.Match.Basic

/-!
# Matches in snapshots

The JSON form of a match and of its parts: what is written, and what is read back.
-/

namespace Tourney.Snapshot

open Json

def ofMatchId (id : MatchId) : Json := ofUInt32 id.val

def matchId? (j : Json) : Option MatchId := j.uint32?.map MatchId.mk

def ofTimestamp (t : Timestamp) : Json := ofString (String.ofList t.text)

def timestamp? (j : Json) : Option Timestamp := j.string?.bind Timestamp.read?

def slotName : Slot → String
  | .first => "player1"
  | .second => "player2"

def slotNamed? : String → Option Slot
  | "player1" => some .first
  | "player2" => some .second
  | _ => none

def statusName : MatchStatus → String
  | .pending => "pending"
  | .assigned => "assigned"
  | .inProgress => "in_progress"
  | .awaitingApproval => "awaiting_approval"
  | .complete => "complete"
  | .skipped => "skipped"

def statusNamed? : String → Option MatchStatus
  | "pending" => some .pending
  | "assigned" => some .assigned
  | "in_progress" => some .inProgress
  | "awaiting_approval" => some .awaitingApproval
  | "complete" => some .complete
  | "skipped" => some .skipped
  | _ => none

def stageName : Stage → String
  | .main => "main"
  | .groupA => "group_a"
  | .groupB => "group_b"
  | .finals => "finals"

def stageNamed? : String → Option Stage
  | "main" => some .main
  | "group_a" => some .groupA
  | "group_b" => some .groupB
  | "finals" => some .finals
  | _ => none

def bracketName : Bracket → String
  | .winners => "winners"
  | .losers => "losers"
  | .grandFinal => "grand_final"

def bracketNamed? : String → Option Bracket
  | "winners" => some .winners
  | "losers" => some .losers
  | "grand_final" => some .grandFinal
  | _ => none

def seatRefFields : List String := ["match_id", "slot"]

def ofSeatRef (r : SeatRef) : Json :=
  .object [("match_id", ofMatchId r.id), ("slot", ofString (slotName r.slot))]

def seatRef? (j : Json) : Option SeatRef := do
  match ← j.fields? seatRefFields with
  | [id, slot] => some ⟨← required? matchId? id, ← required? (choice? slotNamed?) slot⟩
  | _ => none

def scoreEventFields : List String := ["player", "points", "description", "recorded_at"]

def ofScoreEvent (e : ScoreEvent) : Json :=
  .object [
    ("player", ofString e.player),
    ("points", ofUInt32 e.points),
    ("description", ofString e.description),
    ("recorded_at", ofTimestamp e.recordedAt)]

def scoreEvent? (j : Json) : Option ScoreEvent := do
  match ← j.fields? scoreEventFields with
  | [player, points, description, recordedAt] =>
    some {
      player := ← required? string? player
      points := ← required? uint32? points
      description := ← required? string? description
      recordedAt := ← required? timestamp? recordedAt }
  | _ => none

def ofHistory (history : List ScoreEvent) : Json := ofList ofScoreEvent history

def history? (j : Json) : Option (List ScoreEvent) := j.list? scoreEvent?

def ofVacancy (m : Match) : Json := .array [.bool m.seat1.vacant, .bool m.seat2.vacant]

/-- Which of two seats are vacant. -/
def vacancy? : Json → Option (Bool × Bool)
  | .array [a, b] => do some (← a.bool?, ← b.bool?)
  | _ => none

def matchFields : List String := [
  "id", "round", "position", "player1", "player2", "score1", "score2", "sets1", "sets2", "status",
  "device", "winner", "history", "next_match", "stage", "bracket", "is_grand_final",
  "is_grand_final_reset", "loser_next", "vacant"]

def ofMatch (m : Match) : Json :=
  .object [
    ("id", ofMatchId m.id),
    ("round", ofUInt32 m.round),
    ("position", ofUInt32 m.position),
    ("player1", ofOption ofString m.player1),
    ("player2", ofOption ofString m.player2),
    ("score1", ofUInt32 m.figures.score1),
    ("score2", ofUInt32 m.figures.score2),
    ("sets1", ofUInt32 m.figures.sets1),
    ("sets2", ofUInt32 m.figures.sets2),
    ("status", ofString (statusName m.status)),
    ("device", ofOption ofString m.device),
    ("winner", ofOption ofString m.winner),
    ("history", ofHistory m.figures.history),
    ("next_match", ofOption ofSeatRef m.next),
    ("stage", ofString (stageName m.stage)),
    ("bracket", ofOption (fun b => ofString (bracketName b)) m.bracket),
    ("is_grand_final", .bool m.isGrandFinal),
    ("is_grand_final_reset", .bool m.isGrandFinalReset),
    ("loser_next", ofOption ofSeatRef m.loserNext),
    ("vacant", ofVacancy m)]

def match? (j : Json) : Option Match := do
  match ← j.fields? matchFields with
  | [id, round, position, player1, player2, score1, score2, sets1, sets2, status, device, winner,
      history, next, stage, bracket, isGrandFinal, isGrandFinalReset, loserNext, vacant] =>
    let (vacant1, vacant2) ← required? vacancy? vacant
    some {
      id := ← required? matchId? id
      round := ← required? uint32? round
      position := ← required? uint32? position
      seat1 := { player := ← optional? string? player1, vacant := vacant1 }
      seat2 := { player := ← optional? string? player2, vacant := vacant2 }
      figures := {
        score1 := ← required? uint32? score1
        score2 := ← required? uint32? score2
        sets1 := ← required? uint32? sets1
        sets2 := ← required? uint32? sets2
        history := ← required? history? history }
      status := ← required? (choice? statusNamed?) status
      device := ← optional? string? device
      winner := ← optional? string? winner
      next := ← optional? seatRef? next
      stage := ← required? (choice? stageNamed?) stage
      bracket := ← optional? (choice? bracketNamed?) bracket
      isGrandFinal := ← required? bool? isGrandFinal
      isGrandFinalReset := ← required? bool? isGrandFinalReset
      loserNext := ← optional? seatRef? loserNext }
  | _ => none

end Tourney.Snapshot
