import Tourney.Swiss.Standing

/-!
# Swiss pairings

The ranked field is paired from the top down. `search` looks for a pairing in which nobody meets an
old opponent, going back on its choices where it must, and gives up after so many steps. If the
field is odd, the lowest-ranked players with the fewest byes are tried as the one to sit out. When
no search succeeds the field is paired greedily, rematches and all.
-/

namespace Tourney.Swiss

/-- The steps a search may take for one choice of bye. -/
def searchBudget : Nat := 200000

mutual

/-- Pairs off a field so that no pair has met before, the first player first. Also returns the
budget that is left. -/
def search (met : α → α → Bool) (budget : Nat) (field : List α) : Nat × Option (List (α × α)) :=
  match field with
  | [] => (budget, some [])
  | top :: rest => searchPartner met budget top [] rest
termination_by (field.length, field.length + 1)
decreasing_by
  simp only [Prod.lex_def, List.length_cons, List.length_nil]
  omega

/-- Looks for the first partner of `top` that lets the others be paired too. The candidates passed
over so far stand in `passed`, the last of them first. -/
def searchPartner (met : α → α → Bool) (budget : Nat) (top : α) (passed rest : List α) :
    Nat × Option (List (α × α)) :=
  match rest with
  | [] => (budget, none)
  | next :: rest =>
    if budget = 0 then (0, none)
    else if met top next then searchPartner met (budget - 1) top (next :: passed) rest
    else
      match search met (budget - 1) (passed.reverse ++ rest) with
      | (left, some pairs) => (left, some ((top, next) :: pairs))
      | (left, none) => searchPartner met left top (next :: passed) rest
termination_by (passed.length + rest.length + 1, rest.length)
decreasing_by
  all_goals
    simp only [Prod.lex_def, List.length_cons, List.length_append, List.length_reverse]
    omega

end

/-- The place of the next best new opponent, or of the next best if all are old. -/
def greedyPartner (met : α → α → Bool) (top : α) (rest : List α) : Nat :=
  (rest.findIdx? fun b => !met top b).getD 0

/-- Pairs every player with its greedy partner and never goes back. -/
def greedy (met : α → α → Bool) : List α → List (α × α)
  | [] => []
  | top :: rest =>
    match rest[greedyPartner met top rest]? with
    | some partner => (top, partner) :: greedy met (rest.eraseIdx (greedyPartner met top rest))
    | none => []
termination_by field => field.length
decreasing_by
  have := List.length_eraseIdx_le rest (greedyPartner met top rest)
  simp only [List.length_cons]
  omega

structure Pairing where
  pairs : List (Player × Player)
  bye : Option Player
  hasRematch : Bool
  deriving DecidableEq, Repr

/-- Whether the first player's record lists the second. -/
def met (a b : Standing) : Bool := a.hasPlayed b.player

def fewestByes (ss : List Standing) : Nat :=
  match ss with
  | [] => 0
  | s :: ss => ss.foldl (fun n s => min n s.byes.toNat) s.byes.toNat

/-- The choices of who sits out: nobody in an even field, and in an odd one the players with the
fewest byes, the lowest-ranked first. Each comes with the field it leaves. -/
def byeChoices (field : List Standing) : List (Option Standing × List Standing) :=
  if field.length % 2 = 0 then [(none, field)]
  else
    let fewest := fewestByes field
    (field.zipIdx.reverse.filter fun (s, _) => s.byes.toNat = fewest).map fun (s, i) =>
      (some s, field.eraseIdx i)

def toPairing (pairs : List (Standing × Standing)) (bye : Option Standing) (hasRematch : Bool) :
    Pairing :=
  { pairs := pairs.map fun (a, b) => (a.player, b.player)
    bye := bye.map Standing.player
    hasRematch }

/-- The first choice of bye whose search succeeds. -/
def firstFresh? : List (Option Standing × List Standing) → Option Pairing
  | [] => none
  | (bye, field) :: choices =>
    match (search met searchBudget field).2 with
    | some pairs => some (toPairing pairs bye false)
    | none => firstFresh? choices

/-- The pairing with the first choice of bye and no search. -/
def fallback (choices : List (Option Standing × List Standing)) : Pairing :=
  match choices with
  | [] => ⟨[], none, false⟩
  | (bye, field) :: _ =>
    let pairs := greedy met field
    toPairing pairs bye (pairs.any fun (a, b) => met a b)

/-- The pairing of the next round. -/
def pairNextRound (ss : List Standing) : Pairing :=
  let choices := byeChoices (ranked ss)
  (firstFresh? choices).getD (fallback choices)

end Tourney.Swiss
