import Tourney.Number.Fixed
import Tourney.Tournament.Basic

/-!
# Summaries

The champion and the final tables as lines of text, in columns.
-/

namespace Tourney.Summary

/-- Fills a text up on the right. -/
def left (width : Nat) (s : String) : String :=
  s ++ String.ofList (List.replicate (width - s.length) ' ')

/-- Fills a text up on the left. -/
def right (width : Nat) (s : String) : String :=
  String.ofList (List.replicate (width - s.length) ' ') ++ s

/-- A difference with its sign; zero counts as positive. -/
def signed (n : Int) : String := (if n < 0 then "-" else "+") ++ toString n.natAbs

def fixed (places : Nat) (x : Double) : String := String.ofList (Fixed.text x places)

def swissLine (rank player points buchholz : String) : String :=
  left 4 rank ++ " " ++ left 12 player ++ " " ++ right 6 points ++ " " ++ right 9 buchholz

def swissLines (ss : List Swiss.Standing) : List String :=
  swissLine "#" "Player" "Points" "Buchholz" :: ss.zipIdx.map fun (s, i) =>
    swissLine (toString (i + 1)) s.player (fixed 1 s.points) (fixed 2 s.buchholz)

def tableLine (rank player wins losses difference : String) : String :=
  left 4 rank ++ " " ++ left 12 player ++ " " ++ right 3 wins ++ " " ++ right 3 losses ++ " " ++
    right 6 difference

def tableLines (title : String) (table : List RoundRobin.Row) : List String :=
  title :: tableLine "#" "Player" "W" "L" "Diff" :: table.zipIdx.map fun (r, i) =>
    tableLine (toString (i + 1)) r.player (toString r.wins.toNat) (toString r.losses.toNat)
      (signed r.differential)

def championLine (t : Tournament) : String :=
  match t.champion with
  | some champion => "Champion: " ++ champion
  | none => "No champion"

def standingsLines (t : Tournament) : List String :=
  match t.format with
  | .swiss => swissLines t.swissStandings
  | .roundRobin => tableLines "Standings" t.table
  | .groups _ =>
    match t.groups with
    | some g => tableLines "Group A" g.tableA ++ tableLines "Group B" g.tableB
    | none => []
  | .singleElimination | .doubleElimination => []

end Tourney.Summary

namespace Tourney.Tournament

/-- The champion and the tables of the format, each line ended. -/
def summary (t : Tournament) : String :=
  String.join ((Summary.championLine t :: Summary.standingsLines t).map (· ++ "\n"))

end Tourney.Tournament
