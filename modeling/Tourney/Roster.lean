import Tourney.Fault
import Tourney.Text.Blank

/-!
# Rosters

A roster is the list of a tournament's players in seed order. `Roster.check` finds what is wrong
with one, the first wrong entry first.
-/

namespace Tourney.Roster

/-- The first entry that is blank or stands in the list already, `seen` being the ones before. -/
def checkNames (seen : List Player) : List Player → Except Fault Unit
  | [] => .ok ()
  | p :: ps =>
    if isBlank p then .error .emptyPlayerName
    else if p ∈ seen then .error (.duplicatePlayer p)
    else checkNames (p :: seen) ps

/-- A roster has at least `least` entries, none of them blank, and no two alike. -/
def check (players : List Player) (least : Nat) : Except Fault Unit :=
  if players.length < least then .error (.notEnoughPlayers least players.length)
  else checkNames [] players

end Tourney.Roster
