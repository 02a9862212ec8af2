import Tourney.Groups
import Tourney.Roster

/-!
# Configurations

What an organiser decides before a tournament starts: its name, room code, format, scoring rules
and roster. `Config.check` names the first thing wrong with a configuration.
-/

namespace Tourney

inductive Format where
  | singleElimination
  | doubleElimination
  | swiss
  | roundRobin
  | groups (plan : StagePlan)
  deriving DecidableEq, Repr, Inhabited

namespace Format

/-- The smallest roster of the format. -/
def minPlayers : Format → Nat
  | .groups _ => 4
  | _ => 2

def text : Format → String
  | .singleElimination => "single elimination"
  | .doubleElimination => "double elimination"
  | .swiss => "swiss"
  | .roundRobin => "round robin"
  | .groups plan =>
    "group round robin (top " ++ toString plan.finalsSize.toNat ++ " to " ++
      plan.finalsFormat.text ++ ")"

end Format

/-- The generation of the scoring rules. -/
inductive Generation where
  | first
  | second
  | third
  deriving DecidableEq, Repr, Inhabited

inductive MatchType where
  | points
  | sets
  deriving DecidableEq, Repr, Inhabited

inductive BestOf where
  | one
  | three
  | five
  deriving DecidableEq, Repr, Inhabited

def BestOf.setsToWin : BestOf → Nat
  | .one => 1
  | .three => 2
  | .five => 3

structure Scoring where
  generation : Generation := .third
  matchType : MatchType := .points
  bestOf : BestOf := .one
  ownFinish : Bool := false
  deriving DecidableEq, Repr, Inhabited

/-- Own finishes came with the third generation, and a best-of policy needs sets. -/
def Scoring.check (s : Scoring) : Except Fault Unit :=
  if s.ownFinish ∧ s.generation ≠ .third then .error .ownFinishTooEarly
  else if s.matchType = .points ∧ s.bestOf ≠ .one then .error .bestOfWithoutSets
  else .ok ()

def isRoomCodeChar (c : Char) : Bool := c.isUpper || c.isDigit

/-- Six upper-case letters or digits of ASCII. -/
def isRoomCode (code : String) : Bool :=
  code.length == 6 && code.toList.all isRoomCodeChar

structure Config where
  name : String
  roomCode : Option String := none
  format : Format
  scoring : Scoring := {}
  players : List Player
  shuffle : Bool := false
  deriving DecidableEq, Repr

namespace Config

def checkRoomCode (c : Config) : Except Fault Unit :=
  match c.roomCode with
  | some code => if isRoomCode code then .ok () else .error (.badRoomCode code)
  | none => .ok ()

def checkFormat (c : Config) : Except Fault Unit :=
  match c.format with
  | .groups plan => plan.check c.players.length
  | _ => .ok ()

def check (c : Config) : Except Fault Unit := do
  if isBlank c.name then .error .blankTournamentName else .ok ()
  c.checkRoomCode
  c.scoring.check
  Roster.check c.players c.format.minPlayers
  c.checkFormat

end Config

end Tourney
