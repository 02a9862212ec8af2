import Tourney.Match.Status
import Tourney.Timestamp
import Std.Data.ExtTreeMap

/-!
# Matches

A match has two seats, a place in its bracket, and pointers to the seats its winner and its loser
go to. A seat is open, taken, or vacant for good. Matches know one another by id alone.
-/

namespace Tourney

abbrev Player := String

/-- The name a scoring device goes by. -/
abbrev DeviceId := String

structure MatchId where
  val : UInt32
  deriving DecidableEq, Repr, Inhabited

namespace MatchId

instance : Ord MatchId := ⟨fun a b => compare a.val b.val⟩

instance : Std.TransOrd MatchId where
  eq_swap {a b} := @Std.OrientedCmp.eq_swap UInt32 compare _ a.val b.val
  isLE_trans {a b c} := @Std.TransCmp.isLE_trans UInt32 compare _ a.val b.val c.val

instance : Std.LawfulEqOrd MatchId where
  eq_of_compare {a b} h := by
    have : a.val = b.val := Std.LawfulEqOrd.eq_of_compare h
    cases a; cases b; simp_all
  compare_self {a} := @Std.ReflCmp.compare_self UInt32 compare _ a.val

/-- The id `k` places after this one, within the width of ids. -/
def plus (id : MatchId) (k : Nat) : MatchId := ⟨id.val + UInt32.ofNat k⟩

def text (id : MatchId) : String := "#" ++ toString id.val.toNat

end MatchId

inductive Slot where
  | first
  | second
  deriving DecidableEq, Repr, Inhabited

/-- The seat that the winner of the match at a position takes in the next round. -/
def Slot.ofPosition (position : Nat) : Slot :=
  if position % 2 = 0 then .first else .second

/-- A seat of a match. -/
structure SeatRef where
  id : MatchId
  slot : Slot
  deriving DecidableEq, Repr, Inhabited

inductive Stage where
  | main
  | groupA
  | groupB
  | finals
  deriving DecidableEq, Repr, Inhabited

namespace Stage

def text : Stage → String
  | .main => "main"
  | .groupA => "group A"
  | .groupB => "group B"
  | .finals => "finals"

/-- The groups are played side by side and count as one stage. -/
def together : Stage → Stage
  | .groupB => .groupA
  | s => s

end Stage

/-- The side of a double elimination that a match belongs to. -/
inductive Bracket where
  | winners
  | losers
  | grandFinal
  deriving DecidableEq, Repr, Inhabited

/-- One event of a match's score sheet. -/
structure ScoreEvent where
  player : Player
  points : UInt32
  description : String
  recordedAt : Timestamp
  deriving DecidableEq, Repr

/-- The figures of a match: points and sets by seat, and the score sheet behind them. -/
structure Figures where
  score1 : UInt32 := 0
  score2 : UInt32 := 0
  sets1 : UInt32 := 0
  sets2 : UInt32 := 0
  history : List ScoreEvent := []
  deriving DecidableEq, Repr, Inhabited

/-- The result of a match as its scorer reports it. -/
structure Outcome where
  winner : Player
  figures : Figures
  deriving DecidableEq, Repr

structure Seat where
  player : Option Player := none
  vacant : Bool := false
  deriving DecidableEq, Repr, Inhabited

/-- A seat taken by a player, or vacant for want of one. -/
def Seat.settled (player : Option Player) : Seat := ⟨player, player.isNone⟩

structure Match where
  id : MatchId
  round : UInt32
  position : UInt32
  stage : Stage
  seat1 : Seat := {}
  seat2 : Seat := {}
  figures : Figures := {}
  status : MatchStatus := .pending
  device : Option DeviceId := none
  winner : Option Player := none
  next : Option SeatRef := none
  loserNext : Option SeatRef := none
  bracket : Option Bracket := none
  isGrandFinal : Bool := false
  isGrandFinalReset : Bool := false
  deriving DecidableEq, Repr

namespace Match

/-- A match whose seats are both settled from the start. -/
def seated (id : MatchId) (round position : UInt32) (stage : Stage)
    (player1 player2 : Option Player) : Match :=
  { id, round, position, stage, seat1 := .settled player1, seat2 := .settled player2 }

def seat (m : Match) : Slot → Seat
  | .first => m.seat1
  | .second => m.seat2

def setSeat (m : Match) (slot : Slot) (s : Seat) : Match :=
  match slot with
  | .first => { m with seat1 := s }
  | .second => { m with seat2 := s }

def player1 (m : Match) : Option Player := m.seat1.player

def player2 (m : Match) : Option Player := m.seat2.player

/-- Both seats are taken. -/
def isReady (m : Match) : Bool := m.player1.isSome && m.player2.isSome

def hasPlayer (m : Match) (name : Player) : Bool :=
  m.player1 == some name || m.player2 == some name

/-- One seat is taken and the other will never be. -/
def isBye (m : Match) : Bool :=
  match m.player1, m.player2 with
  | some _, none => m.seat2.vacant
  | none, some _ => m.seat1.vacant
  | _, _ => false

def winnerSlot (m : Match) : Option Slot :=
  match m.winner with
  | none => none
  | some w =>
    if m.player1 = some w then some .first
    else if m.player2 = some w then some .second
    else none

/-- Who sits across from the winner. -/
def loser (m : Match) : Option Player :=
  match m.winnerSlot with
  | none => none
  | some .first => m.player2
  | some .second => m.player1

def withOutcome (m : Match) (o : Outcome) : Match :=
  { m with figures := o.figures, winner := some o.winner, status := .complete, device := none }

end Match

end Tourney
