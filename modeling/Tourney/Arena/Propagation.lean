import Tourney.Arena.Basic

/-!
# Propagation of results

A result moves its winner and its loser along the pointers of the match, and whatever that settles
moves on: byes are won, and matches nobody can reach are skipped. The work is a list of errands,
done first to last, each of which may put further errands in front of the rest.

Every errand either leads to a lighter one or resolves a pending match, so the work ends on any
arena, however its pointers run (`perform_progress`).
-/

namespace Tourney.Arena

inductive Errand where
  /-- Resolve the match if it can never be played. -/
  | settle (id : MatchId)
  /-- Seat a player, or leave the seat vacant. -/
  | seat (target : SeatRef) (player : Option Player)
  /-- Prepare the reset behind a grand final. -/
  | reset (id : MatchId) (winner : Player) (loser : Option Player) (fromFirst : Bool)
  deriving DecidableEq, Repr

/-- A seat once filled has to be settled too. -/
def Errand.weight : Errand → Nat
  | .seat _ _ => 2
  | .settle _ | .reset .. => 1

-- the zero of core, whichever algebra is in scope
attribute [local instance (high)] Zero.ofOfNat0 in
def weight (es : List Errand) : Nat := (es.map Errand.weight).sum

/-- What a match that is won sends on: both players by its pointers, or, from a grand final, the
two of them to its reset. -/
def sequel (m : Match) : List Errand :=
  match m.winner with
  | none => []
  | some w =>
    if m.isGrandFinal then
      m.next.toList.map fun r => .reset r.id w m.loser (m.winnerSlot = some .first)
    else
      m.next.toList.map (.seat · (some w)) ++ m.loserNext.toList.map (.seat · m.loser)

/-- What a skipped match sends on: nobody. -/
def vacancies (m : Match) : List Errand :=
  m.next.toList.map (.seat · none) ++ m.loserNext.toList.map (.seat · none)

/-- The one player of a bye. -/
def byeWinner (m : Match) : Option Player := m.player1.or m.player2

def skip (m : Match) : Match := { m with status := .skipped }

def winBye (m : Match) : Match := { m with winner := byeWinner m, status := .complete }

/-- The reset of a grand final. It is settled without play when the first seat took the grand
final, or nobody lost it; otherwise both players meet again. -/
def setReset (winner : Player) (loser : Option Player) (fromFirst : Bool) (m : Match) : Match :=
  if fromFirst || loser.isNone then
    { m with
      seat1 := ⟨some winner, false⟩, seat2 := ⟨none, true⟩, winner := some winner,
      status := .complete }
  else
    { m with seat1 := ⟨some winner, false⟩, seat2 := ⟨loser, false⟩ }

/-- Does one errand: the arena after it, and the errands it leads to. -/
def perform (ms : List Match) : Errand → Except Fault (List Match × List Errand)
  | .settle id =>
    match find? ms id with
    | none => .error (.matchNotFound id)
    | some m =>
      if m.status ≠ .pending then .ok (ms, [])
      else if m.seat1.vacant && m.seat2.vacant then .ok (modify id skip ms, vacancies m)
      else if m.isBye then .ok (modify id winBye ms, sequel (winBye m))
      else .ok (ms, [])
  | .seat target player =>
    match find? ms target.id with
    | none => .error (.matchNotFound target.id)
    | some _ =>
      .ok (modify target.id (·.setSeat target.slot (.settled player)) ms, [.settle target.id])
  | .reset id winner loser fromFirst =>
    match find? ms id with
    | none => .error (.matchNotFound id)
    | some _ => .ok (modify id (setReset winner loser fromFirst) ms, [])

theorem setSeat_status (m : Match) (slot : Slot) (s : Seat) :
    (m.setSeat slot s).status = m.status := by
  cases slot <;> rfl

theorem setReset_pending {w : Player} {l : Option Player} {b : Bool} {m : Match}
    (h : (setReset w l b m).status = .pending) : m.status = .pending := by
  unfold setReset at h
  split at h
  · simp at h
  · exact h

/-- An errand resolves a pending match, or leads to lighter errands and makes nothing pending. -/
theorem perform_progress {ms ms' : List Match} {e : Errand} {more : List Errand}
    (h : perform ms e = .ok (ms', more)) :
    pendingCount ms' < pendingCount ms ∨
      pendingCount ms' ≤ pendingCount ms ∧ weight more < e.weight := by
  cases e with
  | settle id =>
    simp only [perform] at h
    split at h
    · cases h
    · rename_i m hm
      split at h
      · cases h; exact .inr ⟨Nat.le_refl _, by simp [weight, Errand.weight]⟩
      · rename_i hp
        have hp : m.status = .pending := by simpa using hp
        split at h
        · cases h; exact .inl (pendingCount_modify_lt hm hp (by simp [skip]))
        · split at h
          · cases h; exact .inl (pendingCount_modify_lt hm hp (by simp [winBye]))
          · cases h; exact .inr ⟨Nat.le_refl _, by simp [weight, Errand.weight]⟩
  | seat target player =>
    simp only [perform] at h
    split at h
    · cases h
    · cases h
      exact .inr ⟨pendingCount_modify_le (fun m hm => setSeat_status m _ _ ▸ hm) ms,
        by simp [weight, Errand.weight]⟩
  | reset id winner loser fromFirst =>
    simp only [perform] at h
    split at h
    · cases h
    · cases h
      exact .inr ⟨pendingCount_modify_le (fun m hm => setReset_pending hm) ms,
        by simp [weight, Errand.weight]⟩

theorem weight_cons (e : Errand) (es : List Errand) : weight (e :: es) = e.weight + weight es := by
  simp [weight]

theorem weight_append (es es' : List Errand) : weight (es ++ es') = weight es + weight es' := by
  simp [weight]

/-- Does errands until none is left or one cannot be done, which ends the work where it is. -/
def run (ms : List Match) : List Errand → Reply (List Match) Unit
  | [] => .done ms ()
  | e :: rest =>
    match _h : perform ms e with
    | .error f => .refused ms f
    | .ok (ms', more) => run ms' (more ++ rest)
termination_by es => (pendingCount ms, weight es)
decreasing_by
  rcases perform_progress _h with hlt | ⟨hle, hw⟩
  · exact Prod.Lex.left _ _ hlt
  · rcases Nat.lt_or_eq_of_le hle with hlt | heq
    · exact Prod.Lex.left _ _ hlt
    · rw [heq, weight_append, weight_cons]
      exact Prod.Lex.right _ (by omega)

/-- Resolves the byes among the given matches. -/
def resolveByes (ms : List Match) (ids : List MatchId) : Reply (List Match) Unit :=
  run ms (ids.map .settle)

/-- Seats a player in an open match, or leaves the seat vacant. -/
def fill (ms : List Match) (target : SeatRef) (player : Option Player) :
    Reply (List Match) Unit :=
  run ms [.seat target player]

/-- Whether an outcome may be recorded for a match. -/
def checkOutcome (m : Match) (o : Outcome) : Except Fault Unit :=
  if !m.status.canBecome .complete then .error (.illegalTransition m.id m.status .complete)
  else if !m.isReady then .error (.matchNotReady m.id)
  else if !m.hasPlayer o.winner then .error (.winnerNotInMatch m.id o.winner)
  else .ok ()

/-- Records a result and sends its players on. -/
def complete (ms : List Match) (id : MatchId) (o : Outcome) : Reply (List Match) Unit :=
  match find? ms id with
  | none => .refused ms (.matchNotFound id)
  | some m =>
    match checkOutcome m o with
    | .error f => .refused ms f
    | .ok () => run (modify id (·.withOutcome o) ms) (sequel (m.withOutcome o))

end Tourney.Arena
