import Std.Data.ExtTreeMap
import Tourney.Tournament.Play

/-!
# The organiser's desk

A desk runs one tournament through scoring devices. Matches are handed to idle devices, their
results come back as submissions, and the organiser approves or rejects each one. A desk is taken
up from a tournament alone or from what an earlier desk has kept; either way the matches that
devices still hold are taken over (`Desk.restore`).
-/

namespace Tourney

/-- A result reported by a device, waiting for approval. -/
structure Submission where
  id : MatchId
  device : DeviceId
  outcome : Outcome
  submittedAt : Timestamp
  deriving DecidableEq, Repr

/-- A scoring device: the match it is scoring, and whether it is known only from a match that was
taken over and has not been registered since. -/
structure Device where
  holding : Option MatchId := none
  recovered : Bool := false
  deriving DecidableEq, Repr, Inhabited

namespace Desk

/-- A notice for whoever watches the desk. -/
inductive Event where
  | matchAssigned (id : MatchId) (device : DeviceId) (player1 player2 : Player)
  | resultApproved (id : MatchId) (winner : Player)
  | submissionRejected (id : MatchId) (device : DeviceId) (reason : String)
  | roundGenerated (stage : Stage) (round : UInt32)
  | tournamentComplete (champion : Option Player)
  deriving DecidableEq, Repr

def Event.text : Event → String
  | .matchAssigned id device player1 player2 =>
    player1 ++ " vs " ++ player2 ++ " (match " ++ id.text ++ ") sent to " ++ device
  | .resultApproved id winner => winner ++ " wins match " ++ id.text
  | .submissionRejected id device reason =>
    "result for match " ++ id.text ++ " from " ++ device ++ " rejected: " ++ reason
  | .roundGenerated stage round =>
    stage.text ++ " round " ++ toString round.toNat ++ " is ready"
  | .tournamentComplete (some champion) => "tournament complete, " ++ champion ++ " wins"
  | .tournamentComplete none => "tournament complete"

/-- The devices a desk knows, by name. -/
abbrev Devices := Std.ExtTreeMap DeviceId Device

/-- The submissions waiting at a desk, at most one for a match. -/
abbrev Queue := Std.ExtTreeMap MatchId Submission

end Desk

structure Desk where
  tournament : Tournament
  devices : Desk.Devices
  queue : Desk.Queue
  events : List Desk.Event

namespace Desk

/-! ## Taking up a desk -/

/-- A submission still stands if its match awaits approval and its device holds the match. -/
def stands (t : Tournament) (s : Submission) : Bool :=
  match t.match? s.id with
  | some m => m.status = .awaitingApproval && m.device = some s.device
  | none => false

/-- The submissions that still stand, the last for each match. -/
def standing (t : Tournament) (ss : List Submission) : Queue :=
  (ss.filter (stands t)).foldl (fun q s => q.insert s.id s) ∅

/-- The device that holds a match. -/
def holder? (m : Match) : Option DeviceId := if m.status.isHeld then m.device else none

/-- A match that awaits approval without a submission has to be reported again. -/
def askAgain (queue : Queue) (m : Match) : Match :=
  if m.status = .awaitingApproval ∧ !queue.contains m.id then { m with status := .assigned } else m

/-- Takes over the matches that devices hold. A device keeps the first of its matches; any other
goes back to the pool, without its submission. -/
def takeOver (devices : Devices) (queue : Queue) : List Match → List Match × Devices × Queue
  | [] => ([], devices, queue)
  | m :: ms =>
    match holder? m with
    | none =>
      let (ms, devices, queue) := takeOver devices queue ms
      (m :: ms, devices, queue)
    | some d =>
      if devices.contains d then
        let (ms, devices, queue) := takeOver devices (queue.erase m.id) ms
        ({ m with status := .pending, device := none } :: ms, devices, queue)
      else
        let device : Device := { holding := some m.id, recovered := true }
        let m := askAgain queue m
        let (ms, devices, queue) := takeOver (devices.insert d device) queue ms
        (m :: ms, devices, queue)

/-- A device that is registered, known or not. -/
def enrol (devices : Devices) (d : DeviceId) : Devices :=
  match devices[d]? with
  | some device => devices.insert d { device with recovered := false }
  | none => devices.insert d {}

/-- Takes up a desk with the devices registered at it and the submissions left on it. -/
def restore (t : Tournament) (registered : List DeviceId) (submissions : List Submission) : Desk :=
  let (arena, devices, queue) := takeOver ∅ (standing t submissions) t.arena
  { tournament := { t with arena }
    devices := registered.foldl enrol devices
    queue
    events := [] }

/-- Takes up a desk from a tournament alone. -/
def ofTournament (t : Tournament) : Desk := restore t [] []

/-! ## Looking at a desk -/

/-- The waiting submissions, the oldest first. -/
def submissions (desk : Desk) : List Submission :=
  (desk.queue.toList.map (·.2)).mergeSort fun a b => a.submittedAt.le b.submittedAt

/-- The devices with nothing to score, by name. -/
def idleDevices (desk : Desk) : List DeviceId :=
  (desk.devices.toList.filter fun (_, device) => device.holding.isNone).map (·.1)

/-- The match a device is scoring. -/
def deviceMatch? (desk : Desk) (d : DeviceId) : Option MatchId :=
  desk.devices[d]?.bind Device.holding

def readyMatches (desk : Desk) : List Match := desk.tournament.readyMatches

def match? (desk : Desk) (id : MatchId) : Option Match := desk.tournament.match? id

/-! ## Changing a desk -/

/-- Changes one match. -/
def setMatch (desk : Desk) (id : MatchId) (f : Match → Match) : Desk :=
  { desk with
    tournament := { desk.tournament with arena := Arena.modify id f desk.tournament.arena } }

/-- Frees a device of a match, if that is the one it is scoring. -/
def freeDevice (desk : Desk) (d : DeviceId) (id : MatchId) : Desk :=
  match desk.devices[d]? with
  | some device =>
    if device.holding = some id then
      { desk with devices := desk.devices.insert d { device with holding := none } }
    else desk
  | none => desk

/-- Frees whichever device holds a match. -/
def freeHolder (desk : Desk) (holder : Option DeviceId) (id : MatchId) : Desk :=
  match holder with
  | some d => desk.freeDevice d id
  | none => desk

/-- Moves a match along a legal edge. -/
def transition (desk : Desk) (id : MatchId) (new : MatchStatus) : Except Fault Desk :=
  match desk.match? id with
  | none => .error (.matchNotFound id)
  | some m =>
    if m.status.canBecome new then .ok (desk.setMatch id fun m => { m with status := new })
    else .error (.illegalTransition id m.status new)

/-- Takes a match back from its device before there is a result. -/
def release (desk : Desk) (id : MatchId) : Except Fault Desk :=
  match desk.match? id with
  | none => .error (.matchNotFound id)
  | some m =>
    if m.status = .assigned ∨ m.status = .inProgress then
      let desk := desk.setMatch id fun m => { m with status := .pending, device := none }
      .ok (desk.freeHolder m.device id)
    else .error (.illegalTransition id m.status .pending)

/-- Does a step that has no answer of its own as a whole or not at all. -/
def commit (desk : Desk) (r : Except Fault Desk) : Reply Desk Unit :=
  .ofExcept desk (r.map fun desk => (desk, ()))

/-- Registers a device. One that was taken over with its match keeps the match. -/
def register (desk : Desk) (d : DeviceId) : Reply Desk Unit :=
  desk.commit <|
    match desk.devices[d]? with
    | some device =>
      if device.recovered then
        .ok { desk with devices := desk.devices.insert d { device with recovered := false } }
      else .error (.deviceAlreadyRegistered d)
    | none => .ok { desk with devices := desk.devices.insert d {} }

/-- Removes a device. The match it was scoring is pending again, unless its result is waiting. -/
def remove (desk : Desk) (d : DeviceId) : Reply Desk (Option MatchId) :=
  .ofExcept desk <|
    match desk.devices[d]? with
    | none => .error (.deviceNotFound d)
    | some device =>
      match device.holding with
      | none => .ok ({ desk with devices := desk.devices.erase d }, none)
      | some id =>
        match desk.match? id with
        | none => .error (.matchNotFound id)
        | some m =>
          if m.status = .awaitingApproval then .error (.deviceBusy d id)
          else (desk.release id).map fun desk =>
            ({ desk with devices := desk.devices.erase d }, some id)

/-- Hands a ready match to an idle device. -/
def assign (desk : Desk) (id : MatchId) (d : DeviceId) : Reply Desk Unit :=
  desk.commit <|
    match desk.devices[d]? with
    | none => .error (.deviceNotFound d)
    | some device =>
      match device.holding with
      | some busyWith => .error (.deviceBusy d busyWith)
      | none =>
        match desk.match? id with
        | none => .error (.matchNotFound id)
        | some m =>
          if m.status ≠ .pending then .error (.illegalTransition id m.status .assigned)
          else
            match m.player1, m.player2 with
            | some player1, some player2 =>
              let desk := desk.setMatch id fun m => { m with status := .assigned, device := some d }
              .ok { desk with
                devices := desk.devices.insert d { device with holding := some id }
                events := desk.events ++ [.matchAssigned id d player1 player2] }
            | _, _ => .error (.matchNotReady id)

/-- Takes a match back from its device. -/
def unassign (desk : Desk) (id : MatchId) : Reply Desk Unit := desk.commit (desk.release id)

/-- The device has begun the match. -/
def startMatch (desk : Desk) (id : MatchId) : Reply Desk Unit :=
  desk.commit (desk.transition id .inProgress)

/-- Queues a device's result, in place of any earlier one for the match. -/
def submit (desk : Desk) (s : Submission) : Reply Desk Unit :=
  desk.commit <|
    match desk.match? s.id with
    | none => .error (.matchNotFound s.id)
    | some m =>
      if !m.status.canBecome .awaitingApproval then
        .error (.illegalTransition s.id m.status .awaitingApproval)
      else if m.device ≠ some s.device then .error (.deviceMismatch s.device s.id)
      else if !m.hasPlayer s.outcome.winner then .error (.winnerNotInMatch s.id s.outcome.winner)
      else
        let desk := desk.setMatch s.id fun m => { m with status := .awaitingApproval }
        .ok { desk with queue := desk.queue.insert s.id s }

/-- The notices of what a result has set in motion. -/
def notices (t : Tournament) (effects : Effects) : List Event :=
  effects.generated.map (fun (stage, round) => .roundGenerated stage round) ++
    if effects.completed then [.tournamentComplete t.champion] else []

/-- Records a result in the tournament; then the match's device is free and everyone is told. A
result that counts leaves `queue` waiting. -/
def settle (desk : Desk) (id : MatchId) (o : Outcome) (holder : Option DeviceId) (queue : Queue) :
    Reply Desk Effects :=
  let r := desk.tournament.record id o
  let desk := { desk with tournament := r.state }
  match r.answer with
  | .error f => .refused desk f
  | .ok effects =>
    let desk := { desk with queue }.freeHolder holder id
    .done
      { desk with
        events := desk.events ++ .resultApproved id o.winner :: notices desk.tournament effects }
      effects

/-- Makes the queued result of a match final. -/
def approve (desk : Desk) (id : MatchId) : Reply Desk Effects :=
  match desk.queue[id]? with
  | none => .refused desk (.noPendingSubmission id)
  | some s => desk.settle id s.outcome (some s.device) (desk.queue.erase id)

/-- Discards the queued result of a match, which stays with its device. -/
def reject (desk : Desk) (id : MatchId) (reason : String) : Reply Desk Unit :=
  desk.commit <|
    match desk.queue[id]? with
    | none => .error (.noPendingSubmission id)
    | some s =>
      (desk.transition id .assigned).map fun desk =>
        { desk with
          queue := desk.queue.erase id
          events := desk.events ++ [.submissionRejected id s.device reason] }

/-- Records a result entered by the organiser, unless a submission is waiting. -/
def record (desk : Desk) (id : MatchId) (o : Outcome) : Reply Desk Effects :=
  match desk.match? id with
  | none => .refused desk (.matchNotFound id)
  | some m =>
    if m.status = .awaitingApproval then
      .refused desk (.illegalTransition id m.status .complete)
    else desk.settle id o m.device desk.queue

/-- Hands over the notices and forgets them. -/
def drain (desk : Desk) : Desk × List Event := ({ desk with events := [] }, desk.events)

end Desk

end Tourney
