import Tourney.Proofs.Swiss.Byes

/-!
# The boards of a round

A board has a first player, and a second one or none for good. So it is a bye or ready
(`Rounds.isReady_eq`), a bye has been won by the player at it (`AtRest.awarded_board`), and the
counts of seats and byes that the rounds are kept by are counts of boards
(`Rounds.countP_hasPlayer`, `Rounds.countP_isBye`, `Rounds.sum_byes_eq`).
-/

namespace Tourney

namespace Match

/-- The match has been won by the only player at it. -/
structure Awarded (m : Match) : Prop where
  status : m.status = .complete
  sole : ∃ p, m.winner = some p ∧ ∀ q, m.hasPlayer q ↔ q = p

section Board

variable {m : Match} {a : Player} {b : Option Player} (h1 : m.seat1 = .settled (some a))
  (h2 : m.seat2 = .settled b)

include h1 h2

theorem players_board : m.player1 = some a ∧ m.player2 = b := by
  rw [player1, player2, h1, h2]
  exact ⟨rfl, rfl⟩

theorem hasPlayer_board {p : Player} : m.hasPlayer p ↔ a = p ∨ b = some p := by
  obtain ⟨hp1, hp2⟩ := players_board h1 h2
  simp [hasPlayer, hp1, hp2]

theorem isReady_board : m.isReady = b.isSome := by
  obtain ⟨hp1, hp2⟩ := players_board h1 h2
  simp [isReady, hp1, hp2]

theorem isBye_board : m.isBye = b.isNone := by
  obtain ⟨hp1, hp2⟩ := players_board h1 h2
  rw [isBye, hp1, hp2, h2]
  cases b <;> rfl

/-- A board on which nothing is left to do is a bye of its only player. -/
theorem AtRest.awarded_board (h : m.AtRest) (hb : m.isBye) : m.Awarded := by
  rw [isBye_board h1 h2, Option.isNone_iff_eq_none] at hb
  have hbye : m.byes a = 1 := (h.byes_eq h1 h2 a).trans (if_pos ⟨hb, rfl⟩)
  unfold byes at hbye
  split_ifs at hbye with hwon
  refine ⟨hwon.1, a, hwon.2.1, fun q => ?_⟩
  rw [hasPlayer_board h1 h2, hb]
  simp [eq_comm]

theorem AtRest.byes_board (h : m.AtRest) (p : Player) :
    m.byes p = if m.isBye && m.hasPlayer p then 1 else 0 := by
  refine (h.byes_eq h1 h2 p).trans (if_congr ?_ rfl rfl)
  rw [Bool.and_eq_true, hasPlayer_board h1 h2, isBye_board h1 h2]
  cases b <;> simp

end Board

end Match

namespace Swiss

variable {players : List Player} {current : Nat} {ms : List Match} (h : Rounds players current ms)

include h

theorem Rounds.isBye_eq {m : Match} (hm : m ∈ ms) : m.isBye = m.alone := by
  obtain ⟨⟨a, h1⟩, b, h2⟩ := h.board m hm
  rw [Match.isBye_board h1 h2, Match.alone, (Match.players_board h1 h2).2]

theorem Rounds.isReady_eq {m : Match} (hm : m ∈ ms) : m.isReady = !m.isBye := by
  obtain ⟨⟨a, h1⟩, b, h2⟩ := h.board m hm
  rw [Match.isReady_board h1 h2, Match.isBye_board h1 h2]
  cases b <;> rfl

/-- In a round everybody sits at one board. -/
theorem Rounds.countP_hasPlayer {r : Nat} (h1 : 1 ≤ r) (hr : r ≤ current) {p : Player}
    (hp : p ∈ players) : (roundOf r ms).countP (·.hasPlayer p) = 1 := by
  rw [← h.once r h1 hr p hp, countP_eq_sum, seatsOf]
  refine congrArg List.sum (List.map_congr_left fun m hm => ?_)
  have hle := h.seats_le_one hp (List.mem_filter.1 hm).1
  by_cases hseat : m.hasPlayer p
  · rw [if_pos hseat]
    have := Match.hasPlayer_iff_seats.1 hseat
    omega
  · rw [if_neg hseat]
    have := mt Match.hasPlayer_iff_seats.2 hseat
    omega

theorem Rounds.countP_isBye {r : Nat} (h1 : 1 ≤ r) (hr : r ≤ current) :
    (roundOf r ms).countP Match.isBye = players.length % 2 := by
  rw [← h.byes r h1 hr]
  refine List.countP_congr fun m hm => ?_
  rw [h.isBye_eq (List.mem_filter.1 hm).1]

/-- A round exists if somebody is there to sit in it. -/
theorem Rounds.exists_round_iff (hne : players ≠ []) {r : Nat} :
    (∃ m ∈ ms, m.round.toNat = r) ↔ 1 ≤ r ∧ r ≤ current := by
  constructor
  · rintro ⟨m, hm, rfl⟩
    exact h.range m hm
  · rintro ⟨h1, hr⟩
    obtain ⟨p, hp⟩ := List.exists_mem_of_ne_nil players hne
    have hone := h.countP_hasPlayer h1 hr hp
    obtain ⟨m, hm, -⟩ := List.countP_pos_iff.1 (show 0 < _ by rw [hone]; exact Nat.one_pos)
    exact ⟨m, (List.mem_filter.1 hm).1, by simpa using (List.mem_filter.1 hm).2⟩

/-- Nobody has both seats of a board. -/
theorem Rounds.player1_ne_player2 (hp : ∀ m ∈ ms, ∀ p, m.hasPlayer p → p ∈ players) {m : Match}
    (hm : m ∈ ms) : m.player1 ≠ m.player2 := by
  obtain ⟨⟨a, h1⟩, b, h2⟩ := h.board m hm
  have hle := h.seats_le_one (hp m hm a ((Match.hasPlayer_board h1 h2).2 (.inl rfl))) hm
  rw [(Match.players_board h1 h2).1, (Match.players_board h1 h2).2]
  rintro rfl
  simp [Match.seats, h1, h2, Seat.holds_settled] at hle

/-- The byes of a player are the boards he has to himself. -/
theorem Rounds.sum_byes_eq (hrest : ∀ m ∈ ms, m.AtRest) (p : Player) :
    (ms.map (·.byes p)).sum = ms.countP fun m => m.isBye && m.hasPlayer p := by
  rw [countP_eq_sum]
  refine congrArg List.sum (List.map_congr_left fun m hm => ?_)
  obtain ⟨⟨a, h1⟩, b, h2⟩ := h.board m hm
  exact (hrest m hm).byes_board h1 h2 p

end Swiss

end Tourney
