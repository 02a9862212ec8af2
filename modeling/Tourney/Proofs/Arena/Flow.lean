import Mathlib.Algebra.GroupWithZero.Nat
import Tourney.Proofs.Arena.Results
import Tourney.Proofs.Sums

/-!
# Where a player sits

Every seat of a match at rest is accounted for (`AtRest.seats_eq`): its player stays there while
the match is unresolved, and has won or lost once it is complete. What the match sends on carries
the wins and the losses (`holds_sends_winner`, `holds_sends_dropped`).
-/

namespace Tourney

/-- One if a player has the seat. -/
def Seat.holds (x : Player) (s : Seat) : Nat := if s.player = some x then 1 else 0

namespace Seat

variable {x : Player}

theorem holds_open : holds x {} = 0 := rfl

theorem holds_settled (p : Option Player) : (settled p).holds x = if p = some x then 1 else 0 :=
  rfl

end Seat

namespace Match

variable (x : Player) (m : Match)

def seats : Nat := m.seat1.holds x + m.seat2.holds x

def stays : Nat := if m.status.isResolved then 0 else m.seats x

def wins : Nat := if m.status = .complete ∧ m.winner = some x then 1 else 0

def loses : Nat := if m.status = .complete ∧ m.loser = some x then 1 else 0

variable {x m}

theorem seats_eq_sum : m.seats x = (m.seat .first).holds x + (m.seat .second).holds x := rfl

theorem hasPlayer_iff_seats : m.hasPlayer x ↔ 1 ≤ m.seats x := by
  simp only [hasPlayer, seats, Seat.holds, player1, player2, Bool.or_eq_true, beq_iff_eq]
  split_ifs <;> simp_all

/-- The loser of a match is whoever else sits there. -/
theorem holds_winner_add_loser {w : Player} (hw : m.winner = some w) (hp : m.hasPlayer w) :
    m.seats x = (if m.winner = some x then 1 else 0) + if m.loser = some x then 1 else 0 := by
  unfold hasPlayer at hp
  simp only [seats, Seat.holds, loser, winnerSlot, hw]
  by_cases h1 : m.player1 = some w
  · rw [if_pos h1]
    simp only [player1] at h1
    rw [h1]
    rfl
  · have h2 : m.player2 = some w := by simpa [h1] using hp
    rw [if_neg h1, if_pos h2]
    simp only [player2] at h2
    rw [h2, Nat.add_comm]
    rfl

theorem AtRest.seats_eq (h : m.AtRest) : m.seats x = m.stays x + m.wins x + m.loses x := by
  unfold AtRest at h
  unfold stays wins loses
  rcases hs : m.status with _ | _ | _ | _ | _ | _ <;> rw [hs] at h
  · simp [MatchStatus.isResolved]
  · simp [MatchStatus.isResolved]
  · simp [MatchStatus.isResolved]
  · simp [MatchStatus.isResolved]
  · obtain ⟨⟨w, hw, hp⟩, -⟩ := h
    simpa [MatchStatus.isResolved] using holds_winner_add_loser hw hp
  · have h1 := h.2 .first
    have h2 := h.2 .second
    simp only [seat] at h1 h2
    simp [MatchStatus.isResolved, seats, h1, h2, Seat.holds_settled]

theorem holds_sends (p : Option Player) :
    (m.sends p).holds x = if m.status = .complete ∧ p = some x then 1 else 0 := by
  unfold sends
  split <;> simp_all [Seat.holds_settled, Seat.holds_open]

theorem holds_sends_winner : (m.sends m.winner).holds x = m.wins x := holds_sends _

theorem holds_sends_dropped (hg : m.isGrandFinal = false) :
    (m.sends m.dropped).holds x = m.loses x := by
  have hd : m.dropped = m.loser := if_neg (by simp [hg])
  rw [holds_sends, hd]
  rfl

/-- A resolved match that somebody has reached has been won. -/
theorem AtRest.exists_winner (h : m.AtRest) (hr : m.status.isResolved) (slot : Slot)
    (hs : m.seat slot ≠ .settled none) :
    m.status = .complete ∧ ∃ w, m.winner = some w ∧ m.hasPlayer w := by
  unfold AtRest at h
  split at h
  · exact ⟨‹_›, h.1⟩
  · exact absurd (h.2 slot) hs
  · simp_all [MatchStatus.isResolved]
  · cases hst : m.status <;> simp_all [MatchStatus.isResolved]

theorem AtRest.complete_iff (h : m.AtRest) : m.status = .complete ↔ m.winner ≠ none := by
  unfold AtRest at h
  split at h <;> rename_i hs
  · obtain ⟨⟨w, hw, -⟩, -⟩ := h
    simp [hs, hw]
  all_goals simp_all

theorem AtRest.hasPlayer_winner (h : m.AtRest) {w : Player} (hw : m.winner = some w) :
    m.hasPlayer w := by
  have hc := h.complete_iff.2 (by simp [hw])
  unfold AtRest at h
  rw [hc] at h
  obtain ⟨⟨w', hw', hp⟩, -⟩ := h
  obtain rfl : w' = w := Option.some.inj (hw'.symm.trans hw)
  exact hp

theorem hasPlayer_iff :
    m.hasPlayer x ↔ ∃ slot, (m.seat slot).player = some x := by
  simp only [hasPlayer, player1, player2, Bool.or_eq_true, beq_iff_eq]
  constructor
  · rintro (h | h)
    · exact ⟨.first, h⟩
    · exact ⟨.second, h⟩
  · rintro ⟨_ | _, h⟩
    · exact .inl h
    · exact .inr h

theorem hasPlayer_seated {id : MatchId} {round position : UInt32} {stage : Stage}
    {p1 p2 : Option Player} : (seated id round position stage p1 p2).hasPlayer x ↔
      p1 = some x ∨ p2 = some x := by
  simp [hasPlayer, seated, player1, player2, Seat.settled]

theorem hasPlayer_of_loser (h : m.loser = some x) : m.hasPlayer x := by
  unfold loser at h
  split at h
  · cases h
  · exact hasPlayer_iff.2 ⟨.second, h⟩
  · exact hasPlayer_iff.2 ⟨.first, h⟩

/-- Two players have met in the match. A bye is complete without. -/
def isPlayed (m : Match) : Bool := m.status = .complete && m.isReady

/-- Only a match between two players has a loser. -/
theorem AtRest.isSome_loser (h : m.AtRest) (hc : m.status = .complete) :
    m.loser.isSome = m.isReady := by
  unfold AtRest at h
  rw [hc] at h
  obtain ⟨⟨w, hw, hp⟩, -⟩ := h
  unfold hasPlayer at hp
  simp only [loser, winnerSlot, hw, isReady]
  by_cases h1 : m.player1 = some w
  · simp [h1]
  · have h2 : m.player2 = some w := by simpa [h1] using hp
    simp [h1, h2]

/-- A match sends on nobody but its players. -/
theorem hasPlayer_of_mem_outputs (h : m.AtRest) {r : SeatRef} {s : Seat}
    (hl : (r, s) ∈ m.outputs) (hs : s.player = some x) : m.hasPlayer x := by
  have hsends : ∀ p, (m.sends p).player = some x → m.status = .complete ∧ p = some x := by
    intro p hp
    unfold sends at hp
    split at hp
    · exact ⟨‹_›, hp⟩
    · cases hp
    · cases hp
  simp only [outputs, List.mem_append, List.mem_map, Prod.mk.injEq] at hl
  rcases hl with ⟨_, -, -, rfl⟩ | ⟨_, -, -, rfl⟩
  · obtain ⟨hc, hw⟩ := hsends _ hs
    unfold AtRest at h
    rw [hc] at h
    obtain ⟨⟨w, hw', hp⟩, -⟩ := h
    rw [hw', Option.some.injEq] at hw
    exact hw ▸ hp
  · obtain ⟨-, hd⟩ := hsends _ hs
    unfold dropped at hd
    split_ifs at hd
    exact hasPlayer_of_loser hd

end Match

namespace Arena

/-- How many matches a player has lost. -/
def lossesOf (ms : List Match) (x : Player) : Nat :=
  ms.countP fun m => m.status = .complete ∧ m.loser = some x

/-- How many matches a player still has a seat in. -/
def openMatches (ms : List Match) (x : Player) : Nat :=
  ms.countP fun m => m.status.isResolved = false ∧ m.hasPlayer x

variable {ms : List Match} {x : Player}

theorem lossesOf_eq_sum : lossesOf ms x = (ms.map (·.loses x)).sum := by
  induction ms with
  | nil => rfl
  | cons m ms ih =>
    rw [lossesOf, List.countP_cons, ← lossesOf, ih, List.map_cons, List.sum_cons, Nat.add_comm]
    simp [Match.loses]

/-- In every match that has been played one player of the roster has lost. -/
theorem sum_lossesOf {players : List Player} (hrest : ∀ m ∈ ms, m.AtRest)
    (hp : ∀ m ∈ ms, ∀ p, m.hasPlayer p → p ∈ players) (hnd : players.Nodup) :
    (players.map fun p => lossesOf ms p).sum = ms.countP Match.isPlayed := by
  induction ms with
  | nil => simp [lossesOf]
  | cons m ms ih =>
    rw [List.forall_mem_cons] at hrest hp
    have hsplit : ∀ p, lossesOf (m :: ms) p = lossesOf ms p + m.loses p := fun p => by
      rw [lossesOf, List.countP_cons]
      simp [lossesOf, Match.loses]
    have hone : (players.map (m.loses ·)).sum = if m.isPlayed then 1 else 0 := by
      by_cases hc : m.status = .complete
      · have hsome := hrest.1.isSome_loser hc
        cases hl : m.loser with
        | none => simp_all [Match.loses, Match.isPlayed]
        | some l =>
          have hcount := List.count_eq_one_of_mem hnd (hp.1 l (Match.hasPlayer_of_loser hl))
          rw [hl] at hsome
          simp only [Match.isPlayed, hc, ← hsome, decide_true, Option.isSome_some, Bool.and_self,
            if_true, ← hcount]
          rw [List.count, countP_eq_sum]
          congr 1
          exact List.map_congr_left fun p _ => by simp [Match.loses, hc, hl, @eq_comm _ p]
      · simp [Match.loses, Match.isPlayed, hc]
    rw [List.map_congr_left fun p _ => hsplit p, List.sum_map_add, ih hrest.2 hp.2, hone,
      List.countP_cons]

/-- Results seat nobody who has not been seated before. -/
theorem Coherent.players_of_evolves {es : List Errand} {ms' : List Match} {S : Player → Prop}
    (h : Coherent ms es) (h' : Coherent ms' []) (he : List.Forall₂ Match.Evolves ms ms')
    (hS : ∀ m ∈ ms, ∀ p, m.hasPlayer p → S p) : ∀ m ∈ ms', ∀ p, m.hasPlayer p → S p := by
  intro m' hm' p hp
  obtain ⟨m, hm, hev⟩ := exists_left he hm'
  obtain ⟨slot, hslot⟩ := Match.hasPlayer_iff.1 hp
  by_cases hs : m.seat slot = {}
  · -- the seat was open, so a match before this one has sent the player there
    obtain ⟨a, ha, hat⟩ := h.fed m hm slot hs
    obtain ⟨a', ha', hev'⟩ := exists_right he ha
    rw [← Match.outline_targets hev'.outline] at hat
    have hid : m'.id = m.id := Match.outline_id hev.outline
    obtain ⟨s, hl⟩ := Match.exists_mem_outputs hat
    have hseat := h'.seat_eq ha' hm' hl hid
    have hlt := (h'.wired.leads a' ha' _ hat).1
    exact h.players_of_evolves h' he hS a' ha' p
      (Match.hasPlayer_of_mem_outputs (h'.atRest ha') hl (hseat ▸ hslot))
  · rw [hev.seats slot hs] at hslot
    exact hS m hm p (Match.hasPlayer_iff.2 ⟨slot, hslot⟩)
termination_by m' => m'.id.val.toNat
decreasing_by
  rw [hid]
  exact hlt

/-- A player with at most one seat has that seat in one match. -/
theorem openMatches_eq_sum (h : (ms.map (·.stays x)).sum ≤ 1) :
    openMatches ms x = (ms.map (·.stays x)).sum := by
  induction ms with
  | nil => rfl
  | cons m ms ih =>
    rw [List.map_cons, List.sum_cons] at h ⊢
    rw [openMatches, List.countP_cons, ← openMatches, ih (by omega), Nat.add_comm]
    congr 1
    by_cases hr : m.status.isResolved
    · simp [Match.stays, hr]
    · have hp := Match.hasPlayer_iff_seats (x := x) (m := m)
      have hst : m.stays x = m.seats x := if_neg hr
      rw [hst] at h ⊢
      by_cases hs : 1 ≤ m.seats x
      · rw [if_pos (by simp [hr, hp.2 hs])]
        omega
      · rw [if_neg (by simp [hp, hs])]
        omega

end Arena

end Tourney
