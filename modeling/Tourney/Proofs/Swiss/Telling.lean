import Tourney.Proofs.Swiss.Boards
import Tourney.Proofs.Swiss.Rematch

/-!
# What standings tell

Exact standings count the complete matches of a player by how they ended, and list whom the player
has met round by round (`Exact.tells`). Meeting is mutual (`Exact.count_opponents`), and a player
has a win or a loss for every resolved round (`sum_wins_add_loses`).
-/

namespace Tourney

namespace Match

/-- The match is complete, and the player met somebody at it. -/
def metBy (p : Player) (m : Match) : Bool :=
  m.status = .complete && m.isReady && m.hasPlayer p

/-- Who sits across from a player. -/
def across (p : Player) (m : Match) : Option Player :=
  if m.player1 = some p then m.player2 else m.player1

section Board

variable {m : Match} {a : Player} {b : Option Player} (h1 : m.seat1 = .settled (some a))
  (h2 : m.seat2 = .settled b)

include h1 h2

/-- Of two different players one wins and the other loses. -/
theorem AtRest.winner_loser (h : m.AtRest) (hc : m.status = .complete) (hne : b ≠ some a) :
    m.winner = some a ∧ m.loser = b ∨ ∃ b', b = some b' ∧ m.winner = b ∧ m.loser = some a := by
  obtain ⟨hp1, hp2⟩ := players_board h1 h2
  obtain ⟨-, w, hw, hp⟩ := h.exists_winner (by rw [hc]; rfl) .first
    (by rw [seat, h1]; simp [Seat.settled])
  rcases (hasPlayer_board h1 h2).1 hp with rfl | rfl
  · exact .inl ⟨hw, by simp [loser, winnerSlot, hw, hp1, hp2]⟩
  · have haw : a ≠ w := fun heq => hne (congrArg some heq.symm)
    exact .inr ⟨w, rfl, hw, by simp [loser, winnerSlot, hw, hp1, hp2, haw]⟩

/-- A match is lost by who met somebody at it and did not win. -/
theorem AtRest.loses_board (h : m.AtRest) (hne : b ≠ some a) (p : Player) :
    m.loses p = if m.metBy p && m.winner ≠ some p then 1 else 0 := by
  unfold loses metBy
  refine if_congr ?_ rfl rfl
  by_cases hc : m.status = .complete
  · simp only [hc, true_and, decide_true, Bool.true_and, Bool.and_eq_true, decide_eq_true_eq,
      hasPlayer_board h1 h2, isReady_board h1 h2]
    rcases h.winner_loser h1 h2 hc hne with ⟨hw, hl⟩ | ⟨b', rfl, hw, hl⟩
    · rw [hw, hl]
      cases b <;> grind
    · rw [hw, hl]
      grind
  · simp [hc]

/-- Who is across from a player at a match that is over has been met. -/
theorem AtRest.opponent?_board (h : m.AtRest) (hne : b ≠ some a) (p : Player) :
    (m.opponent? p).map some = if m.metBy p then some (m.across p) else none := by
  obtain ⟨hp1, hp2⟩ := players_board h1 h2
  unfold opponent? metBy across
  by_cases hc : m.status = .complete
  · simp only [hc, if_true, decide_true, Bool.true_and, Bool.and_eq_true, hasPlayer_board h1 h2,
      isReady_board h1 h2, hp1, hp2]
    rcases h.winner_loser h1 h2 hc hne with ⟨hw, hl⟩ | ⟨b', rfl, hw, hl⟩
    · rw [hw, hl]
      cases b <;> grind
    · rw [hw, hl]
      grind
  · simp [hc]

end Board

end Match

namespace Swiss

namespace Standing

/-- A standing is what the complete matches make of it. -/
structure Tells (ms : List Match) (s : Standing) : Prop where
  wins : s.wins.toNat = ms.countP fun m => m.status = .complete && m.winner = some s.player
  losses : s.losses.toNat = ms.countP fun m => m.metBy s.player && m.winner ≠ some s.player
  byes : s.byes.toNat =
    ms.countP fun m => m.status = .complete && m.isBye && m.hasPlayer s.player
  draws : s.draws = 0
  opponents : s.opponents.map some = (ms.filter (·.metBy s.player)).map (·.across s.player)
  inOrder : (ms.filter (·.metBy s.player)).Pairwise fun a b => a.round.toNat < b.round.toNat

end Standing

variable {players : List Player} {current : Nat} {ms : List Match} {s u : Standing}

/-- Exact standings tell what has been played. -/
theorem Standing.Exact.tells (he : s.Exact ms) (h : Rounds players current ms)
    (hrest : ∀ m ∈ ms, m.AtRest) (hrostered : ∀ m ∈ ms, ∀ p, m.hasPlayer p → p ∈ players)
    (hp : s.player ∈ players) : s.Tells ms := by
  have hboard : ∀ m ∈ ms, ∃ a b, m.seat1 = .settled (some a) ∧ m.seat2 = .settled b ∧
      b ≠ some a := fun m hm => by
    obtain ⟨⟨a, h1⟩, b, h2⟩ := h.board m hm
    refine ⟨a, b, h1, h2, fun hb => h.player1_ne_player2 hrostered hm ?_⟩
    rw [(Match.players_board h1 h2).1, (Match.players_board h1 h2).2, hb]
  refine ⟨?_, ?_, ?_, he.draws, ?_, ?_⟩
  · rw [he.wins, countP_eq_sum]
    simp [Match.wins]
  · rw [he.losses, countP_eq_sum]
    refine congrArg List.sum (List.map_congr_left fun m hm => ?_)
    obtain ⟨a, b, h1, h2, hne⟩ := hboard m hm
    exact (hrest m hm).loses_board h1 h2 hne s.player
  · rw [he.byes, h.sum_byes_eq hrest]
    refine List.countP_congr fun m hm => ?_
    obtain ⟨a, b, h1, h2, -⟩ := hboard m hm
    by_cases hb : m.isBye
    · simp [hb, ((hrest m hm).awarded_board h1 h2 hb).status]
    · simp [hb]
  · rw [he.opponents, List.map_filterMap, ← List.filterMap_eq_map, List.filterMap_filter]
    refine List.filterMap_congr fun m hm => ?_
    obtain ⟨a, b, h1, h2, hne⟩ := hboard m hm
    exact (hrest m hm).opponent?_board h1 h2 hne s.player
  · refine List.pairwise_filter.2 ((h.pairwise hp).imp fun {a b} hlt ha hb => ?_)
    exact hlt (Bool.and_eq_true_iff.1 ha).2 (Bool.and_eq_true_iff.1 hb).2

/-- Two players have met each other equally often. -/
theorem Standing.Exact.count_opponents (hs : s.Exact ms) (hu : u.Exact ms) :
    s.opponents.count u.player = u.opponents.count s.player := by
  rw [hs.opponents, hu.opponents, List.count_filterMap, List.count_filterMap]
  refine List.countP_congr fun m _ => ?_
  rw [beq_iff_eq, beq_iff_eq]
  exact Match.opponent?_comm

/-- A seat at a resolved match has brought a win or a loss. -/
theorem sum_wins_add_loses (p : Player) (hrest : ∀ m ∈ ms, m.AtRest)
    (hdone : ∀ m ∈ ms, m.status.isResolved) :
    (ms.map (·.wins p)).sum + (ms.map (·.loses p)).sum = seatsOf p ms := by
  rw [← List.sum_map_add, seatsOf]
  refine congrArg List.sum (List.map_congr_left fun m hm => ?_)
  have hstays : m.stays p = 0 := if_pos (hdone m hm)
  rw [(hrest m hm).seats_eq, hstays, Nat.zero_add]

end Swiss

end Tourney
