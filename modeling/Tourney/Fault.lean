import Tourney.Match.Basic
import Tourney.Text.Quoted

/-!
# Faults

The reasons for which an operation is refused, sorted into kinds, each with the message an
organiser sees. A number that leaves the range kept for it is a fault as well, of a kind of its
own.
-/

namespace Tourney

inductive Fault where
  | notEnoughPlayers (needed actual : Nat)
  | duplicatePlayer (name : Player)
  | emptyPlayerName
  | invalidFinalsSize (finalsSize playerCount : Nat)
  | blankTournamentName
  | badRoomCode (code : String)
  | ownFinishTooEarly
  | bestOfWithoutSets
  | invalidBracketSize (size : Nat)
  | winnerNotInMatch (id : MatchId) (winner : Player)
  | illegalTransition (id : MatchId) (old new : MatchStatus)
  | matchNotReady (id : MatchId)
  | noPendingSubmission (id : MatchId)
  | deviceBusy (device : DeviceId) (id : MatchId)
  | deviceMismatch (device : DeviceId) (id : MatchId)
  | alreadyStarted
  | deviceAlreadyRegistered (device : DeviceId)
  | matchNotFound (id : MatchId)
  | deviceNotFound (device : DeviceId)
  | unreadableSnapshot
  | outOfRange
  deriving DecidableEq, Repr

namespace Fault

inductive Kind where
  | invalidInput
  | illegalTransition
  | notFound
  | snapshot
  | outOfRange
  deriving DecidableEq, Repr

def kind : Fault → Kind
  | .notEnoughPlayers .. | .duplicatePlayer _ | .emptyPlayerName | .invalidFinalsSize ..
  | .blankTournamentName | .badRoomCode _ | .ownFinishTooEarly | .bestOfWithoutSets
  | .invalidBracketSize _ | .winnerNotInMatch .. => .invalidInput
  | .illegalTransition .. | .matchNotReady _ | .noPendingSubmission _ | .deviceBusy ..
  | .deviceMismatch .. | .alreadyStarted | .deviceAlreadyRegistered _ => .illegalTransition
  | .matchNotFound _ | .deviceNotFound _ => .notFound
  | .unreadableSnapshot => .snapshot
  | .outOfRange => .outOfRange

def message : Fault → String
  | .notEnoughPlayers needed actual => s!"Not enough players: need {needed}, have {actual}"
  | .duplicatePlayer name => s!"Player entered twice: {name}"
  | .emptyPlayerName => "Player names must not be blank"
  | .invalidFinalsSize size count => s!"Finals size {size} is invalid for {count} players"
  | .blankTournamentName => "Invalid configuration: tournament name must not be blank"
  | .badRoomCode code =>
    "Invalid configuration: room code must be 6 uppercase letters or digits, got " ++ quoted code
  | .ownFinishTooEarly =>
    "Invalid configuration: own finish requires generation Third or later"
  | .bestOfWithoutSets =>
    "Invalid configuration: best-of policy only applies to set play"
  | .invalidBracketSize size => s!"Bracket size must be a power of two >= 2, got {size}"
  | .winnerNotInMatch id winner => winner ++ " is not playing in match " ++ id.text
  | .illegalTransition id old new =>
    "Match " ++ id.text ++ " cannot move from " ++ old.text ++ " to " ++ new.text
  | .matchNotReady id => "Match " ++ id.text ++ " does not have both players yet"
  | .noPendingSubmission id => "No pending submission for match " ++ id.text
  | .deviceBusy device id => "Device " ++ device ++ " is already scoring match " ++ id.text
  | .deviceMismatch device id => "Device " ++ device ++ " is not assigned to match " ++ id.text
  | .alreadyStarted => "Tournament has already been generated"
  | .deviceAlreadyRegistered device => "Device already registered: " ++ device
  | .matchNotFound id => "Match not found: " ++ id.text
  | .deviceNotFound device => "Device not found: " ++ device
  | .unreadableSnapshot => "Snapshot error"
  | .outOfRange => "A number is out of range"

end Fault

/-- The state an operation leaves and its answer. A refused operation may have come some way. -/
structure Reply (σ α : Type) where
  state : σ
  answer : Except Fault α

namespace Reply

def done (s : σ) (a : α) : Reply σ α := ⟨s, .ok a⟩

def refused (s : σ) (f : Fault) : Reply σ α := ⟨s, .error f⟩

/-- Carries out a step that is refused as a whole or done as a whole. -/
def ofExcept (s : σ) : Except Fault (σ × α) → Reply σ α
  | .ok (s', a) => done s' a
  | .error f => refused s f

def toExcept (r : Reply σ Unit) : Except Fault σ := r.answer.map fun () => r.state

end Reply

/-! ## Counters -/

namespace Counter

/-- The sum of two counters, if it fits one. -/
def add (a b : UInt32) : Except Fault UInt32 :=
  if a.toNat + b.toNat < UInt32.size then .ok (a + b) else .error .outOfRange

def increment (a : UInt32) : Except Fault UInt32 := add a 1

end Counter

namespace MatchId

/-- The id `k` places after this one, if there is one. -/
def plus? (id : MatchId) (k : Nat) : Except Fault MatchId :=
  if id.val.toNat + k < UInt32.size then .ok (id.plus k) else .error .outOfRange

end MatchId

end Tourney
