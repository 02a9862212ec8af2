import Tourney.Desk.Basic
import Tourney.Simulation.Dice

/-!
# Simulated events

A tournament played to its end through simulated devices. In every step idle devices take ready
matches, every busy device reports a result, and the organiser judges what was reported: a first
submission is rejected now and then, any other is approved.
-/

namespace Tourney

structure Simulation where
  desk : Desk
  devices : List DeviceId
  rejectRate : Double
  /-- Matches whose first submission has been judged. -/
  judged : List MatchId := []
  /-- How many dice have been thrown. -/
  thrown : Nat := 0
  approved : Nat := 0
  rejected : Nat := 0
  roundsGenerated : Nat := 0

namespace Simulation

/-- Why a simulation ends before its tournament does. -/
inductive Stop where
  | refused (fault : Fault)
  | nothingToPlay
  | tooManySteps
  | notARate
  deriving DecidableEq, Repr

/-- Steps after which a run is given up. -/
def stepLimit : Nat := 10000

def Stop.message : Stop → String
  | .refused fault => fault.message
  | .nothingToPlay => "no playable match while the tournament is incomplete"
  | .tooManySteps => "tournament did not finish within " ++ toString stepLimit ++ " steps"
  | .notARate => "the reject rate is not a rate"

def deviceName (n : Nat) : DeviceId := "device-" ++ toString n

/-- Registers devices at a desk, one after another. -/
def registerAll (desk : Desk) (devices : List DeviceId) : Except Fault Desk :=
  devices.foldlM (fun desk d => (desk.register d).toExcept) desk

/-- A simulation at a desk, with so many new devices. -/
def create (desk : Desk) (deviceCount : Nat) (rejectRate : Double) : Except Fault Simulation := do
  let devices := (List.range deviceCount).map fun i => deviceName (i + 1)
  let desk ← registerAll desk devices
  .ok { desk, devices, rejectRate }

/-- A step of the desk inside the simulation. -/
def liftDesk (r : Except Fault α) : Except Stop α := r.mapError .refused

/-- Hands a match to a device, which begins it. -/
def begin (desk : Desk) (id : MatchId) (d : DeviceId) : Except Fault Desk := do
  let desk ← (desk.assign id d).toExcept
  (desk.startMatch id).toExcept

/-- Hands ready matches to idle devices while there are both. -/
def dispatch (desk : Desk) : Except Fault Desk :=
  ((desk.readyMatches.map (·.id)).zip desk.idleDevices).foldlM
    (fun desk (id, d) => begin desk id d) desk

/-- The points of the winner. -/
def winningScore : Nat := 21

/-- A result of a match, and how many dice it took: who wins, what the loser scores, and in set
play how many sets the loser takes. -/
def result (dice : Dice) (thrown : Nat) (setsToWin : Nat) (p1 p2 : Player) : Outcome × Nat :=
  let firstWins := Dice.coin (dice thrown)
  let won := UInt32.ofNat winningScore
  let lost := UInt32.ofNat (Dice.below (winningScore - 1) (dice (thrown + 1)))
  let (setsWon, setsLost, thrown) :=
    if 1 < setsToWin then
      (UInt32.ofNat setsToWin, UInt32.ofNat (Dice.below setsToWin (dice (thrown + 2))), thrown + 3)
    else (0, 0, thrown + 2)
  if firstWins then
    (⟨p1, { score1 := won, score2 := lost, sets1 := setsWon, sets2 := setsLost }⟩, thrown)
  else (⟨p2, { score1 := lost, score2 := won, sets1 := setsLost, sets2 := setsWon }⟩, thrown)

/-- A device reports a result of the match it holds. -/
def report (dice : Dice) (desk : Desk) (thrown : Nat) (d : DeviceId) (id : MatchId) :
    Except Fault (Desk × Nat) :=
  match desk.match? id with
  | none => .error (.matchNotFound id)
  | some m =>
    match m.player1, m.player2 with
    | some p1, some p2 => do
      let setsToWin := desk.tournament.scoring.bestOf.setsToWin
      let (outcome, thrown) := result dice thrown setsToWin p1 p2
      let desk ← (desk.submit ⟨id, d, outcome, .epoch⟩).toExcept
      .ok (desk, thrown)
    | _, _ => .error (.matchNotReady id)

/-- The devices that hold a match, with it. -/
def busy (sim : Simulation) : List (DeviceId × MatchId) :=
  sim.devices.filterMap fun d => (sim.desk.deviceMatch? d).map (d, ·)

/-- Every busy device reports. -/
def reportAll (dice : Dice) (sim : Simulation) : Except Fault Simulation := do
  let (desk, thrown) ← sim.busy.foldlM
    (fun (desk, thrown) (d, id) => report dice desk thrown d id) (sim.desk, sim.thrown)
  .ok { sim with desk, thrown }

def rejectionReason : String := "score sheet does not match"

def approve (sim : Simulation) (id : MatchId) : Except Stop Simulation :=
  let r := sim.desk.approve id
  match r.answer with
  | .ok _ => .ok { sim with desk := r.state, approved := sim.approved + 1 }
  | .error f => .error (.refused f)

def reject (sim : Simulation) (id : MatchId) : Except Stop Simulation := do
  let desk ← liftDesk (sim.desk.reject id rejectionReason).toExcept
  .ok { sim with desk, rejected := sim.rejected + 1 }

/-- Judges the submission for a match. -/
def judge (dice : Dice) (sim : Simulation) (id : MatchId) : Except Stop Simulation :=
  if id ∈ sim.judged then approve sim id
  else
    let sim := { sim with judged := id :: sim.judged, thrown := sim.thrown + 1 }
    match Dice.chance? sim.rejectRate (dice (sim.thrown - 1)) with
    | none => .error .notARate
    | some true => reject sim id
    | some false => approve sim id

/-- Judges every submission, by match. -/
def judgeAll (dice : Dice) (sim : Simulation) : Except Stop Simulation :=
  sim.desk.queue.keys.foldlM (judge dice) sim

def isRoundGenerated : Desk.Event → Bool
  | .roundGenerated .. => true
  | _ => false

/-- Takes in the notices of the desk. -/
def takeNotices (sim : Simulation) : Simulation :=
  let (desk, events) := sim.desk.drain
  { sim with desk, roundsGenerated := sim.roundsGenerated + events.countP isRoundGenerated }

/-- One round of play for every device. -/
def step (dice : Dice) (sim : Simulation) : Except Stop Simulation := do
  let desk ← liftDesk (dispatch sim.desk)
  let sim := { sim with desk }
  if sim.busy.isEmpty then .error .nothingToPlay
  let sim ← liftDesk (reportAll dice sim)
  let sim ← judgeAll dice sim
  .ok sim.takeNotices

/-- Steps until the tournament is complete, at most so many times. -/
def runFor (dice : Dice) : Nat → Simulation → Except Stop Simulation
  | 0, _ => .error .tooManySteps
  | n + 1, sim =>
    if sim.desk.tournament.isComplete then .ok sim
    else step dice sim >>= runFor dice n

/-- Plays the tournament to its end. -/
def run (dice : Dice) (sim : Simulation) : Except Stop Simulation := runFor dice stepLimit sim

/-- Who has won. -/
def champion (sim : Simulation) : Option Player := sim.desk.tournament.champion

end Simulation

end Tourney
