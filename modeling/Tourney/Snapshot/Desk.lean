import Tourney.Desk.Basic
import Tourney.Snapshot.Tournament

/-!
# Snapshots of desks

What a desk keeps overnight: the tournament, the names of its devices, and the waiting submissions.
Which device scores which match is found in the matches again.
-/

namespace Tourney.Snapshot

open Json

def submissionFields : List String := [
  "match_id", "device_id", "winner", "score1", "score2", "sets1", "sets2", "history",
  "submitted_at"]

def ofSubmission (s : Submission) : Json :=
  .object [
    ("match_id", ofMatchId s.id),
    ("device_id", ofString s.device),
    ("winner", ofString s.outcome.winner),
    ("score1", ofUInt32 s.outcome.figures.score1),
    ("score2", ofUInt32 s.outcome.figures.score2),
    ("sets1", ofUInt32 s.outcome.figures.sets1),
    ("sets2", ofUInt32 s.outcome.figures.sets2),
    ("history", ofHistory s.outcome.figures.history),
    ("submitted_at", ofTimestamp s.submittedAt)]

def submission? (j : Json) : Option Submission := do
  match ← j.fields? submissionFields with
  | [id, device, winner, score1, score2, sets1, sets2, history, submittedAt] =>
    some {
      id := ← required? matchId? id
      device := ← required? string? device
      outcome := {
        winner := ← required? string? winner
        figures := {
          score1 := ← required? uint32? score1
          score2 := ← required? uint32? score2
          sets1 := ← required? uint32? sets1
          sets2 := ← required? uint32? sets2
          history := ← required? history? history } }
      submittedAt := ← required? timestamp? submittedAt }
  | _ => none

/-- A notice; it is only ever written. -/
def ofEvent : Desk.Event → Json
  | .matchAssigned id device player1 player2 =>
    .object [("MatchAssigned", .object [
      ("match_id", ofMatchId id), ("device", ofString device),
      ("player1", ofString player1), ("player2", ofString player2)])]
  | .resultApproved id winner =>
    .object [("ResultApproved", .object [
      ("match_id", ofMatchId id), ("winner", ofString winner)])]
  | .submissionRejected id device reason =>
    .object [("SubmissionRejected", .object [
      ("match_id", ofMatchId id), ("device", ofString device), ("reason", ofString reason)])]
  | .roundGenerated stage round =>
    .object [("RoundGenerated", .object [
      ("stage", ofString (stageName stage)), ("round", ofUInt32 round)])]
  | .tournamentComplete champion =>
    .object [("TournamentComplete", .object [("champion", ofOption ofString champion)])]

def deskFields : List String := ["tournament", "devices", "pending"]

/-- What a desk keeps. -/
structure Kept where
  tournament : Tournament
  devices : List DeviceId
  submissions : List Submission

def Kept.ofDesk (desk : Desk) : Kept :=
  ⟨desk.tournament, desk.devices.keys, desk.submissions⟩

def Kept.restore (k : Kept) : Desk := .restore k.tournament k.devices k.submissions

def ofKept (k : Kept) : Json :=
  .object [
    ("tournament", ofTournament k.tournament),
    ("devices", ofList ofString k.devices),
    ("pending", ofList ofSubmission k.submissions)]

def kept? (j : Json) : Option Kept := do
  match ← j.fields? deskFields with
  | [tournament, devices, submissions] =>
    some {
      tournament := ← required? tournament? tournament
      devices := ← required? (list? string?) devices
      submissions := ← required? (list? submission?) submissions }
  | _ => none

end Tourney.Snapshot

namespace Tourney.Desk

/-- A desk as a snapshot text. -/
def toSnapshot (desk : Desk) : String := (Snapshot.ofKept (.ofDesk desk)).pretty

/-- Takes up a desk from a snapshot text. -/
def ofSnapshot (s : String) : Except Fault Desk :=
  match (Json.read? s).bind Snapshot.kept? with
  | some k => .ok k.restore
  | none => .error .unreadableSnapshot

end Tourney.Desk
