import Tourney.Proofs.Elimination.Opening

/-!
# The first round

The first round of the main tree takes its players from the slots of the bracket (`seated_tree`,
`seated_doubleTree`), and results move nobody there. So every entrant has a seat in it
(`Seated.exists_match`), and where two meet, their seeds mirror one another (`Seated.mirrored`).
-/

namespace Tourney

/-- The match is of the first round of the main tree, to which no losers match belongs. -/
def Match.InFirstRound (m : Match) : Prop := m.round = 1 ∧ m.bracket ≠ some .losers

namespace Elimination

open Arena Seeding

/-- The seats of the first round are settled from the slots of the bracket. -/
structure Seated (entrants : List Player) (fresh : List Match) : Prop where
  slots : ∀ m ∈ fresh, m.InFirstRound → ∃ p < 2 ^ (rounds entrants.length - 1), ∀ s,
    m.seat s = .settled ((bracketSlots entrants)[2 * p + Slot.number s]?.join)
  filled : ∀ p < 2 ^ (rounds entrants.length - 1), ∃ m ∈ fresh, ∀ s,
    m.seat s = .settled ((bracketSlots entrants)[2 * p + Slot.number s]?.join)

section Trees

variable {entrants : List Player} {first : MatchId} {stage : Stage}

theorem eq_one_of_ofNat {r : Nat} (hr : r < UInt32.size) (h : UInt32.ofNat r = 1) : r = 1 := by
  have hnat := congrArg UInt32.toNat h
  rwa [UInt32.toNat_ofNat_of_lt' hr] at hnat

theorem seated_tree (h : bracketSize entrants.length ≤ UInt32.size) :
    Seated entrants (tree (bracketSlots entrants) (rounds entrants.length) first stage) := by
  have hk := rounds_pos entrants.length
  have hle := le_of_two_pow_le h
  rw [tree_eq_map]
  refine ⟨fun m hm hfirst => ?_, fun p hp => ?_⟩
  · obtain ⟨⟨r, p⟩, hx, rfl⟩ := List.mem_map.1 hm
    obtain ⟨-, hrk, hp⟩ := mem_treePlaces.1 hx
    have hround := hfirst.1
    rw [treeMatch_round] at hround
    obtain rfl := eq_one_of_ofNat (Nat.lt_of_le_of_lt (hrk.trans hle) (by decide)) hround
    exact ⟨p, hp, treeMatch_seat_one _ _ _ _ _⟩
  · exact ⟨_, List.mem_map_of_mem (mem_treePlaces.2 ⟨le_refl 1, hk, hp⟩),
      treeMatch_seat_one _ _ _ _ _⟩

theorem seated_doubleTree (h : bracketSize entrants.length ≤ UInt32.size) :
    Seated entrants (doubleTree (bracketSlots entrants) (rounds entrants.length) first stage) := by
  have hk := rounds_pos entrants.length
  rw [doubleTree_eq_map]
  refine ⟨fun m hm hfirst => ?_, fun p hp => ?_⟩
  · obtain ⟨y, hy, rfl⟩ := List.mem_map.1 hm
    obtain ⟨hround, hbracket⟩ := hfirst
    rw [placeMatch_round] at hround
    have hone := eq_one_of_ofNat (round_lt_size h hy) hround
    cases y with
    | winners r p =>
      obtain rfl : r = 1 := hone
      exact ⟨p, (winners_mem.1 hy).2.2, placeMatch_seat_one p⟩
    | minor i p => exact absurd rfl hbracket
    | major i p => exact absurd rfl hbracket
    | grandFinal =>
      simp only [Place.round] at hone
      omega
    | reset =>
      simp only [Place.round] at hone
      omega
  · exact ⟨_, List.mem_map_of_mem (winners_mem.2 ⟨le_refl 1, hk, hp⟩), placeMatch_seat_one p⟩

end Trees

section Seated

variable {entrants : List Player} {fresh ms : List Match} (h : Seated entrants fresh)
  (he : List.Forall₂ Match.Evolves fresh ms)

include h he

/-- Every entrant has a seat. -/
theorem Seated.exists_match {x : Player} (hx : x ∈ entrants) : ∃ m ∈ ms, m.hasPlayer x := by
  have hmem : some x ∈ bracketSlots entrants :=
    (bracketSlots_perm entrants).mem_iff.2 (List.mem_append_left _ (List.mem_map_of_mem hx))
  obtain ⟨i, hi, hix⟩ := List.getElem_of_mem hmem
  have htwo := two_pow_pred (rounds_pos entrants.length)
  have hlen := hi
  rw [length_bracketSlots] at hlen
  obtain ⟨m, hm, hseat⟩ := h.filled (i / 2) (by omega)
  obtain ⟨m', hm', hev⟩ := exists_right he hm
  refine ⟨m', hm', Match.hasPlayer_iff.2 ⟨.ofPosition i, ?_⟩⟩
  rw [hev.seats _ (by rw [hseat]; exact Seat.settled_ne_open _), hseat, double_ofPosition,
    List.getElem?_eq_getElem hi, hix]
  rfl

/-- Where two meet in the first round, one is as far from the top of the seeds as the other from
the end of the bracket. -/
theorem Seated.mirrored {m : Match} (hm : m ∈ ms) (hfirst : m.InFirstRound) {x y : Player}
    (h1 : m.player1 = some x) (h2 : m.player2 = some y) :
    ∃ j < 2 ^ (rounds entrants.length - 1), entrants[j]? = some x ∧
      entrants[2 ^ rounds entrants.length - 1 - j]? = some y := by
  obtain ⟨a, ha, hev⟩ := exists_left he hm
  have hin : a.InFirstRound := by
    rwa [Match.InFirstRound, ← Match.outline_round hev.outline,
      ← Match.outline_bracket hev.outline]
  obtain ⟨p, hp, hseat⟩ := h.slots a ha hin
  have hplayer : ∀ s, (m.seat s).player =
      (bracketSlots entrants)[2 * p + Slot.number s]?.join := fun s => by
    rw [hev.seats s (by rw [hseat]; exact Seat.settled_ne_open _), hseat]
    rfl
  obtain ⟨j, hj, hslot1, hslot2⟩ := bracketSlots_mirror hp
  have hfirst := hplayer .first
  have hsecond := hplayer .second
  simp only [Slot.number, Nat.add_zero, hslot1, hslot2, Option.join_some] at hfirst hsecond
  exact ⟨j, hj, hfirst.symm.trans h1, hsecond.symm.trans h2⟩

end Seated

end Elimination

end Tourney
