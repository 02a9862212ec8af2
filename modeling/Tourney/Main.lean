import Tourney.CommandLine
import Std.Time.DateTime.Timestamp

/-!
# The simulator as a program

Gathers the variables, the time and the luck of a run, carries the run out, and prints and writes
its report.
-/

namespace Tourney.CommandLine

def randomWord : IO UInt64 := do
  let high ← IO.rand 0 (2 ^ 32 - 1)
  let low ← IO.rand 0 (2 ^ 32 - 1)
  return UInt64.ofNat (high * 2 ^ 32 + low)

/-- A random identifier, marked as one by its version and variant. -/
def randomUuid : IO Uuid := do
  let high ← randomWord
  let low ← randomWord
  let high := (high &&& 0xffffffffffff0fff) ||| 0x4000
  let low := (low &&& 0x3fffffffffffffff) ||| 0x8000000000000000
  return ⟨BitVec.ofNat 128 (high.toNat * 2 ^ 64 + low.toNat)⟩

def roomCodeChars : List Char := "ABCDEFGHIJKLMNOPQRSTUVWXYZ0123456789".toList

def randomRoomCode : IO String := do
  let picks ← (List.range 6).mapM fun _ => IO.rand 0 (roomCodeChars.length - 1)
  return String.ofList (picks.map fun i => roomCodeChars.getD i 'A')

def now : IO Timestamp := do
  let t ← Std.Time.Timestamp.now
  let nanos := t.toNanosecondsSinceUnixEpoch.val
  return ⟨nanos / 1000000000, (nanos % 1000000000).toNat⟩

/-- Why a file could not be written, with the number the system gives the reason. -/
def writeFailure : IO.Error → String
  | .noFileOrDirectory _ code details | .permissionDenied _ code details
  | .inappropriateType _ code details | .invalidArgument _ code details
  | .alreadyExists _ code details | .noSuchThing _ code details
  | .resourceExhausted _ code details | .resourceBusy code details
  | .unsupportedOperation code details | .otherError code details =>
    details ++ " (os error " ++ toString code ++ ")"
  | e => toString e

/-- What a run finds outside of its arguments. -/
def World.current : IO World := do
  let values ← variableNames.mapM fun name => do return (name, ← IO.getEnv name)
  let stamp : Stamp := { id := ← randomUuid, createdAt := ← now, roomCode := ← randomRoomCode }
  let drawSeed ← randomWord
  let seed ← randomWord
  return {
    lookup := fun name => (values.lookup name).join
    stamp
    draw := (Dice.ofSeed drawSeed.toNat).draw
    dice := fun given => Dice.ofSeed (given.getD seed.toNat) }

/-- Writes the file of a report, if it has one. -/
def Report.write (r : Report) : IO Report := do
  match r.file with
  | none => return r
  | some (path, text) =>
    try
      IO.FS.writeFile path text
      return r
    catch e => return r.unwritten (writeFailure e)

end Tourney.CommandLine

open Tourney.CommandLine in
def main (args : List String) : IO UInt32 := do
  let report := run args (← World.current)
  IO.print report.stdout
  let report ← report.write
  IO.eprint report.stderr
  return report.code.toUInt32
