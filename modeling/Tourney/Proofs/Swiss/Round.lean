import Tourney.Proofs.Arena.Determined
import Tourney.Proofs.Arena.Numbering
import Tourney.Proofs.Except
import Tourney.Proofs.Roster
import Tourney.Proofs.Swiss.Pairing
import Tourney.Swiss.Round

/-!
# A Swiss round on the boards

A round can be built as long as there are ids for it (`buildRound_yields`). It has a board for every
two players and one for the player left over, and on a board with two players the match waits to be
played (`Built.exists_unresolved`).
-/

namespace Tourney.Swiss

open Arena

section Boards

variable {pairs : List (Player × Option Player)} {round : UInt32} {first : MatchId}
  {stage : Stage} {m : Match}

theorem mem_boards (h : m ∈ boards pairs round first stage) : ∃ a b, (a, b) ∈ pairs ∧
    m.seat1 = .settled (some a) ∧ m.seat2 = .settled b ∧ m.stage = stage ∧ m.round = round ∧
      m.targets = [] ∧ m.isGrandFinal = false ∧ m.Unsettled ∧ m.device = none := by
  obtain ⟨⟨⟨a, b⟩, k⟩, hx, rfl⟩ := List.mem_map.1 h
  exact ⟨a, b, List.fst_mem_of_mem_zipIdx hx, rfl, rfl, rfl, rfl, rfl, rfl, ⟨rfl, rfl⟩, rfl⟩

theorem exists_board (round : UInt32) (first : MatchId) (stage : Stage) {a : Player}
    {b : Option Player} (h : (a, b) ∈ pairs) :
    ∃ m ∈ boards pairs round first stage, m.seat1 = .settled (some a) ∧ m.seat2 = .settled b := by
  obtain ⟨k, hk, hget⟩ := List.getElem_of_mem h
  have hmem : ((a, b), k) ∈ pairs.zipIdx :=
    List.mk_mem_zipIdx_iff_getElem?.2 (by rw [List.getElem?_eq_getElem hk, hget])
  exact ⟨_, List.mem_map_of_mem hmem, rfl, rfl⟩

theorem length_boards : (boards pairs round first stage).length = pairs.length := by
  simp [boards]

theorem numbered_boards : Numbered first (boards pairs round first stage) := by
  unfold Numbered boards
  rw [List.map_map, List.length_map, List.length_zipIdx, List.range_eq_range',
    ← List.zipIdx_map_snd 0 pairs, List.map_map]
  rfl

theorem coherent_boards (hfit : first.val.toNat + pairs.length ≤ UInt32.size) :
    Coherent (boards pairs round first stage)
      (((boards pairs round first stage).map (·.id)).map .settle) := by
  refine .of_apart (numbered_boards.ordered (by rwa [length_boards])) ?_ ?_ ?_ ?_ ?_ ?_
  · intro m hm
    obtain ⟨a, b, -, -, -, -, -, ht, -⟩ := mem_boards hm
    exact ht
  · intro m hm
    obtain ⟨a, b, -, -, -, -, -, -, hg, -⟩ := mem_boards hm
    exact hg
  · intro m hm
    obtain ⟨a, b, -, -, -, -, -, -, -, hu, -⟩ := mem_boards hm
    exact hu
  · intro m hm slot
    obtain ⟨a, b, -, h1, h2, -⟩ := mem_boards hm
    cases slot
    · exact ⟨_, h1⟩
    · exact ⟨_, h2⟩
  · exact fun m hm => .inr (List.mem_map_of_mem hm)
  · intro id hid
    obtain ⟨m, hm, rfl⟩ := List.mem_map.1 hid
    exact ⟨m, hm, rfl⟩

/-- The matches of a round, with the byes among them resolved. -/
structure Built (pairs : List (Player × Option Player)) (round : UInt32) (first : MatchId)
    (stage : Stage) (ms : List Match) : Prop where
  coherent : Coherent ms []
  settles : List.Forall₂ Match.Settles (boards pairs round first stage) ms
  fits : first.val.toNat + pairs.length < UInt32.size

theorem buildRound_yields (pairs : List (Player × Option Player)) (round : UInt32)
    (first : MatchId) (stage : Stage) : Yields (first.val.toNat + pairs.length < UInt32.size)
      (buildRound pairs round first stage) (Built pairs round first stage) := by
  refine (MatchId.plus?_yields first _).bind fun _ ⟨_, hfit⟩ => ?_
  have hcoh : Coherent (boards pairs round first stage) _ := coherent_boards (Nat.le_of_lt hfit)
  obtain ⟨ms, hrun, ⟨hc, hf⟩⟩ := hcoh.resolveByes
  simp only [hrun]
  exact .inl ⟨ms, rfl, hc, hf, hfit⟩

section Built

variable {ms : List Match} (h : Built pairs round first stage ms)

include h

theorem Built.length_eq : ms.length = pairs.length := by
  rw [← h.settles.length_eq, length_boards]

theorem Built.numbered : Numbered first ms :=
  numbered_boards.of_outlines (map_outline_of_evolves (h.settles.imp fun _ _ hf => hf.evolves))

theorem Built.fresh : ∀ m ∈ ms, m.Fresh := by
  intro m' hm'
  obtain ⟨m, hm, hf⟩ := exists_left h.settles hm'
  obtain ⟨_, _, -, -, -, -, -, -, -, hu, hd⟩ := mem_boards hm
  exact (Match.fresh_of_pending hu.1 hd).settles hf

theorem Built.round_eq : ∀ m ∈ ms, m.round = round := by
  intro m' hm'
  obtain ⟨m, hm, hf⟩ := exists_left h.settles hm'
  obtain ⟨_, _, -, -, -, -, hr, -⟩ := mem_boards hm
  rw [Match.outline_round hf.outline, hr]

/-- Nobody sits at a board who has not been paired. -/
theorem Built.players {players : List Player}
    (hp : ∀ a b, (a, b) ∈ pairs → a ∈ players ∧ ∀ p, b = some p → p ∈ players) :
    ∀ m ∈ ms, ∀ p, m.hasPlayer p → p ∈ players := by
  refine (coherent_boards (Nat.le_of_lt h.fits)).players_of_evolves h.coherent
    (h.settles.imp fun _ _ hf => hf.evolves) fun m hm p hmp => ?_
  obtain ⟨a, b, hab, h1, h2, -⟩ := mem_boards hm
  obtain ⟨ha, hb⟩ := hp a b hab
  simp only [Match.hasPlayer, Match.player1, Match.player2, h1, h2, Seat.settled,
    Bool.or_eq_true, beq_iff_eq, Option.some.injEq] at hmp
  rcases hmp with rfl | hmp
  · exact ha
  · exact hb p hmp

/-- A board with two players stays as it is until it is played. -/
theorem Built.exists_unresolved {a b : Player} (hab : (a, some b) ∈ pairs) :
    ∃ m ∈ ms, m.status.isResolved = false := by
  obtain ⟨m, hm, h1, h2⟩ := exists_board round first stage hab
  obtain ⟨m', hm', hf⟩ := exists_right h.settles hm
  obtain ⟨_, _, -, -, -, -, -, -, -, hu, -⟩ := mem_boards hm
  have hready : m.isReady := by
    simp [Match.isReady, Match.player1, Match.player2, h1, h2, Seat.settled]
  obtain rfl := hf.fixed (.inr hready)
  exact ⟨m', hm', by rw [hu.1]; rfl⟩

end Built

end Boards

/-! ## Who sits at the boards -/

theorem exists_neighbours {players : List Player} (h : 2 ≤ players.length) :
    ∃ a b, (a, some b) ∈ neighbours players := by
  rcases players with _ | ⟨a, _ | ⟨b, rest⟩⟩
  · cases h
  · exact absurd h (by simp)
  · exact ⟨a, b, List.mem_cons_self⟩

theorem mem_neighbours {players : List Player} {a : Player} {b : Option Player}
    (h : (a, b) ∈ neighbours players) : a ∈ players ∧ ∀ p, b = some p → p ∈ players := by
  induction players using neighbours.induct with
  | case1 => simp [neighbours] at h
  | case2 x =>
    simp only [neighbours, List.mem_singleton, Prod.mk.injEq] at h
    obtain ⟨rfl, rfl⟩ := h
    simp
  | case3 x y rest ih =>
    simp only [neighbours, List.mem_cons, Prod.mk.injEq] at h
    rcases h with ⟨rfl, rfl⟩ | h
    · simp
    · obtain ⟨ha, hb⟩ := ih h
      exact ⟨by simp [ha], fun p hp => by simp [hb p hp]⟩

theorem length_neighbours (players : List Player) :
    (neighbours players).length = (players.length + 1) / 2 := by
  induction players using neighbours.induct with
  | case1 => rfl
  | case2 x => simp [neighbours]
  | case3 x y rest ih =>
    simp only [neighbours, List.length_cons, ih]
    omega

theorem mem_boards_pairing {p : Pairing} {a : Player} {b : Option Player} (h : (a, b) ∈ p.boards) :
    a ∈ p.field ∧ ∀ q, b = some q → q ∈ p.field := by
  simp only [Pairing.boards, List.mem_append, List.mem_map, Prod.mk.injEq] at h
  simp only [Pairing.field, paired, List.mem_append, List.mem_flatMap]
  rcases h with ⟨⟨x, y⟩, hmem, rfl, rfl⟩ | ⟨x, hx, rfl, rfl⟩
  · refine ⟨.inl ⟨_, hmem, by simp⟩, fun q hq => .inl ⟨_, hmem, ?_⟩⟩
    obtain rfl := Option.some.inj hq
    simp
  · exact ⟨.inr hx, by simp⟩

theorem length_boards_pairing (p : Pairing) : p.boards.length = (p.field.length + 1) / 2 := by
  rw [Pairing.boards, Pairing.field, List.length_append, List.length_append, length_paired,
    List.length_map, List.length_map]
  cases p.bye <;> simp <;> omega

theorem exists_boards_pairing {p : Pairing} (h : 2 ≤ p.field.length) :
    ∃ a b, (a, some b) ∈ p.boards := by
  rw [Pairing.field, List.length_append, length_paired] at h
  obtain ⟨⟨a, b⟩, hmem⟩ : ∃ x, x ∈ p.pairs := by
    refine List.exists_mem_of_length_pos ?_
    cases hb : p.bye <;> simp only [hb, Option.toList_none, Option.toList_some, List.length_nil,
      List.length_singleton] at h <;> omega
  exact ⟨a, b, List.mem_append_left _ (List.mem_map.2 ⟨_, hmem, rfl⟩)⟩

end Tourney.Swiss
