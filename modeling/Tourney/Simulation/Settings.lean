import Tourney.Number.Numeral
import Tourney.Tournament.Config

/-!
# Settings of a simulation

What to simulate, from options that were given outright, from named variables, and from defaults,
in that order. Settings are checked as a whole once every one of them has been read.
-/

namespace Tourney

/-- What is wrong with a setting, under the name of the variable that holds it. -/
inductive SettingsFault where
  | unknown (name value hint : String)
  | invalid (name reason : String)
  deriving DecidableEq, Repr

def SettingsFault.message : SettingsFault → String
  | .unknown name value hint =>
    "Unknown value for " ++ name ++ ": '" ++ value ++ "'\nHint: " ++ hint
  | .invalid name reason => "Invalid configuration for " ++ name ++ ": " ++ reason

/-- Options given outright. -/
structure Overrides where
  format : Option String := none
  players : Option Nat := none
  devices : Option Nat := none
  seed : Option Nat := none
  rejectRate : Option Double := none
  out : Option String := none

structure Settings where
  format : Format
  scoring : Scoring
  players : Nat
  devices : Nat
  seed : Option Nat
  rejectRate : Double
  out : Option String

namespace Settings

/-- Sizes and seeds are numbers of 64 bits. -/
def wordLimit : Nat := 2 ^ 64

/-- A name in lower case with blanks for dashes and underscores. Only ASCII letters are lowered;
no name of a format has a letter that another character's lower case could match. -/
def plainName (name : String) : String :=
  trim <| String.ofList <| name.toList.map fun c =>
    if c = '-' ∨ c = '_' then ' ' else c.toLower

/-- A format by one of its names; a group stage follows the given plan. -/
def formatNamed (name : String) (plan : StagePlan) : Except SettingsFault Format :=
  let plain := plainName name
  if plain ∈ ["single", "single elimination", "se"] then .ok .singleElimination
  else if plain ∈ ["double", "double elimination", "de"] then .ok .doubleElimination
  else if plain = "swiss" then .ok .swiss
  else if plain ∈ ["round robin", "rr"] then .ok .roundRobin
  else if plain ∈ ["groups", "group round robin"] then .ok (.groups plan)
  else
    .error (.unknown "BRACKET_FORMAT" name
      "One of: single, double, swiss, round-robin, groups")

def finalsFormatNamed (name : String) : Except SettingsFault FinalsFormat :=
  match String.ofList (name.toList.map Char.toLower) with
  | "single" => .ok .singleElimination
  | "double" => .ok .doubleElimination
  | _ => .error (.unknown "BRACKET_FINALS_FORMAT" name "One of: single, double")

/-- A best of one is played for points, a best of more for sets. -/
def scoringFor (bestOf : String) : Except SettingsFault Scoring :=
  match trim bestOf with
  | "1" => .ok { matchType := .points, bestOf := .one }
  | "3" => .ok { matchType := .sets, bestOf := .three }
  | "5" => .ok { matchType := .sets, bestOf := .five }
  | other => .error (.unknown "BRACKET_BEST_OF" other "One of: 1, 3, 5")

variable (lookup : String → Option String)

/-- The value of a variable, or the default if it is not set. -/
def setting (read : String → Option α) (name : String) (default : α) :
    Except SettingsFault α :=
  match lookup name with
  | none => .ok default
  | some v =>
    match read (trim v) with
    | some a => .ok a
    | none => .error (.invalid name ("Cannot parse '" ++ v ++ "'"))

def word? (s : String) : Option Nat := (Numeral.whole wordLimit s).toOption

def seedSetting : Except SettingsFault (Option Nat) :=
  match lookup "BRACKET_SEED" with
  | none => .ok none
  | some v =>
    match word? v with
    | some n => .ok (some n)
    | none => .error (.invalid "BRACKET_SEED" ("'" ++ v ++ "' is not an unsigned integer"))

/-- The first thing wrong with a set of settings. -/
def check (s : Settings) : Except SettingsFault Unit := do
  if s.players < s.format.minPlayers then
    .error (.invalid "BRACKET_PLAYERS"
      (s.format.text ++ " needs at least " ++ toString s.format.minPlayers ++ " players"))
  match s.format with
  | .groups plan =>
    match plan.check s.players with
    | .error f => .error (.invalid "BRACKET_FINALS_SIZE" f.message)
    | .ok () => .ok ()
  | _ => .ok ()
  if s.devices = 0 then .error (.invalid "BRACKET_DEVICES" "Must be at least 1")
  if ¬ s.rejectRate.isRate then
    .error (.invalid "BRACKET_REJECT_RATE" "Must be in [0, 1)")

/-- An option given outright, or else what the variables have. -/
def given (option : Option α) (otherwise : Except SettingsFault α) : Except SettingsFault α :=
  match option with
  | some a => .ok a
  | none => otherwise

/-- One rejection in ten first submissions. -/
def defaultRejectRate : Double := .nearest false 1 10

/-- Reads all settings and checks them. -/
def load (o : Overrides) : Except SettingsFault Settings := do
  let name := (o.format.or (lookup "BRACKET_FORMAT")).getD "single"
  let finalsSize ← setting lookup word? "BRACKET_FINALS_SIZE" 4
  let finals ← match lookup "BRACKET_FINALS_FORMAT" with
    | some name => finalsFormatNamed name
    | none => .ok .singleElimination
  let format ← formatNamed name { finalsSize := UInt64.ofNat finalsSize, finalsFormat := finals }
  let scoring ← match lookup "BRACKET_BEST_OF" with
    | some v => scoringFor v
    | none => .ok {}
  let players ← given o.players (setting lookup word? "BRACKET_PLAYERS" 8)
  let devices ← given o.devices (setting lookup word? "BRACKET_DEVICES" 2)
  let seed ← given (o.seed.map some) (seedSetting lookup)
  let rejectRate ← given o.rejectRate
    (setting lookup Numeral.double? "BRACKET_REJECT_RATE" defaultRejectRate)
  let out := o.out.or (lookup "BRACKET_OUT")
  let s : Settings := { format, scoring, players, devices, seed, rejectRate, out }
  s.check
  .ok s

end Settings

end Tourney
