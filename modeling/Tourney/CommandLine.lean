import Tourney.Simulation.Run
import Tourney.Simulation.Settings
import Tourney.Snapshot.Tournament
import Tourney.Tournament.Summary

/-!
# The command line

A run of the simulator from its arguments to what it prints, as a function: whatever a run takes
from outside, variables, draws and dice, is handed to it, and a file it wants written is part of
its report.
-/

namespace Tourney.CommandLine

def help : String := "Play a tournament through simulated scoring devices

USAGE:
  bracket_sim [OPTIONS]

OPTIONS:
  --format     NAME        single, double, swiss, round-robin or groups  [default: env BRACKET_FORMAT or single]
  --players    N           Number of entrants                            [default: env BRACKET_PLAYERS or 8]
  --devices    N           Number of scoring devices                     [default: env BRACKET_DEVICES or 2]
  --seed       N           Seed for match results                        [default: env BRACKET_SEED or random]
  --reject     RATE        Share of first submissions rejected           [default: env BRACKET_REJECT_RATE or 0.1]
  --out        PATH        Write the final snapshot to PATH              [default: env BRACKET_OUT]

FLAGS:
  -h, --help               Print help information

ENVIRONMENT:
  BRACKET_FINALS_SIZE      Finalists for the groups format (even)
  BRACKET_FINALS_FORMAT    single or double
  BRACKET_BEST_OF          1, 3 or 5
  RUST_LOG                 Log filter (e.g., debug,bracket_engine=info)
"

/-- The variables a run looks at. -/
def variableNames : List String := [
  "BRACKET_FORMAT", "BRACKET_FINALS_SIZE", "BRACKET_FINALS_FORMAT", "BRACKET_BEST_OF",
  "BRACKET_PLAYERS", "BRACKET_DEVICES", "BRACKET_SEED", "BRACKET_REJECT_RATE", "BRACKET_OUT"]

/-! ## Arguments -/

/-- What is wrong with the arguments. -/
inductive UsageFault where
  | noValue (option : String)
  | badValue (value cause : String)
  | leftOver (arguments : List String)
  deriving DecidableEq, Repr

def UsageFault.message : UsageFault → String
  | .noValue option => "the '" ++ option ++ "' option doesn't have an associated value"
  | .badValue value cause => "failed to parse '" ++ value ++ "': " ++ cause
  | .leftOver arguments => "unexpected arguments: " ++ quotedList arguments

/-- Takes the first occurrence of an option and the argument after it out of the arguments. -/
def takeOption (option : String) : List String → Except UsageFault (Option String × List String)
  | [] => .ok (none, [])
  | a :: args =>
    if a = option then
      match args with
      | [] => .error (.noValue option)
      | value :: args => .ok (some value, args)
    else (takeOption option args).map fun (value, args) => (value, a :: args)

/-- Takes an option out and reads its value. -/
def takeValue (option : String) (read : String → Except String α) (args : List String) :
    Except UsageFault (Option α × List String) := do
  let (value, args) ← takeOption option args
  match value with
  | none => .ok (none, args)
  | some v =>
    match read v with
    | .ok a => .ok (some a, args)
    | .error cause => .error (.badValue v cause)

def readText (s : String) : Except String String := .ok s

def readWord (s : String) : Except String Nat :=
  (Numeral.whole Settings.wordLimit s).mapError Numeral.WholeFault.message

def readRate (s : String) : Except String Double :=
  match Numeral.double? s with
  | some x => .ok x
  | none =>
    .error (if s.isEmpty then "cannot parse float from empty string" else "invalid float literal")

/-- The overrides that the arguments give. -/
def readArguments (args : List String) : Except UsageFault Overrides := do
  let (format, args) ← takeValue "--format" readText args
  let (players, args) ← takeValue "--players" readWord args
  let (devices, args) ← takeValue "--devices" readWord args
  let (seed, args) ← takeValue "--seed" readWord args
  let (rejectRate, args) ← takeValue "--reject" readRate args
  let (out, args) ← takeValue "--out" readText args
  if args ≠ [] then .error (.leftOver args)
  .ok { format, players, devices, seed, rejectRate, out }

/-! ## Running -/

/-- What a run prints and writes, and the code it ends with. -/
structure Report where
  stdout : String := ""
  stderr : String := ""
  code : UInt8 := 0
  /-- A file to be written, by its path. -/
  file : Option (String × String) := none

/-- The report of a run that fails. -/
def Report.fail (message : String) : Report := { stderr := "Error: " ++ message ++ "\n", code := 1 }

/-- A report whose file could not be written. -/
def Report.unwritten (r : Report) (cause : String) : Report :=
  { r with stderr := r.stderr ++ "Error: " ++ cause ++ "\n", code := 1, file := none }

/-- What a run is given from outside beside its arguments. -/
structure World where
  lookup : String → Option String
  stamp : Stamp
  draw : Draw
  dice : Option Nat → Dice

/-- The generated entrants. -/
def entrants (n : Nat) : List Player := (List.range n).map fun i => "Player " ++ toString (i + 1)

/-- The tournament that settings ask for. -/
def config (s : Settings) : Config :=
  { name := "Simulated Cup", format := s.format, scoring := s.scoring,
    players := entrants s.players, shuffle := true }

/-- Plays the tournament that settings ask for. -/
def simulate (s : Settings) (w : World) : Except Simulation.Stop Tournament := do
  let t ← Simulation.liftDesk (Tournament.create (config s) w.stamp w.draw)
  let sim ← Simulation.liftDesk (Simulation.create (.ofTournament t) s.devices s.rejectRate)
  let sim ← sim.run (w.dice s.seed)
  .ok sim.desk.tournament

/-- A run of the simulator. -/
def run (args : List String) (w : World) : Report :=
  if args.any fun a => a = "-h" || a = "--help" then { stdout := help }
  else
    match readArguments args with
    | .error f => .fail f.message
    | .ok overrides =>
      match Settings.load w.lookup overrides with
      | .error f => .fail f.message
      | .ok s =>
        match simulate s w with
        | .error stop => .fail stop.message
        | .ok t => { stdout := t.summary, file := s.out.map fun path => (path, t.toSnapshot) }

end Tourney.CommandLine
