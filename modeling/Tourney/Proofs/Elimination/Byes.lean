import Tourney.Proofs.Elimination.Regular

/-!
# Byes

What a knockout comes to before anybody has touched it. A match is then won without play if it has
one player and a vacant seat, skipped if both seats are vacant, and pending else
(`Untouched.cases`). So everything follows from the byes of the first round, which are as many as
there are slots without a seed (`countP_byeAt`), and from the pairs of byes that meet behind it
(`countP_byeAt_pair`).
-/

namespace Tourney

theorem forall_slot {P : Slot → Prop} : (∀ slot, P slot) ↔ P .first ∧ P .second :=
  ⟨fun h => ⟨h _, h _⟩, fun h slot => by cases slot <;> simp [h]⟩

theorem exists_slot {P : Slot → Prop} : (∃ slot, P slot) ↔ P .first ∨ P .second :=
  ⟨fun ⟨slot, h⟩ => by cases slot <;> simp [h], fun h => h.elim (⟨_, ·⟩) (⟨_, ·⟩)⟩

namespace Match

/-! ## Matches that nobody has touched -/

/-- Nothing has happened to the match but what its seats bring about. -/
structure Untouched (m : Match) : Prop where
  rest : m.AtRest
  proper : ∀ slot, (m.seat slot).Proper
  stands : (m.status, m.winner) = m.standing

namespace Untouched

variable {m : Match} (h : m.Untouched)

include h

theorem cases :
    (m.isBye ∧ (∃ slot, m.seat slot = .settled none) ∧ m.status = .complete ∧
      ∃ p, m.winner = some p ∧ ∀ q, m.hasPlayer q ↔ q = p) ∨
    ((∀ slot, m.seat slot = .settled none) ∧ m.isBye = false ∧ m.status = .skipped) ∨
    ((∃ slot, m.seat slot ≠ .settled none) ∧ m.isBye = false ∧ m.status = .pending) := by
  have hstands := h.stands
  have h1 := (h.proper .first).cases
  have h2 := (h.proper .second).cases
  simp only [seat] at h1 h2
  unfold standing at hstands
  rcases h1 with h1 | h1 | ⟨p1, h1⟩ <;> rcases h2 with h2 | h2 | ⟨p2, h2⟩ <;>
    simp_all [isReady, isBye, hasPlayer, player1, player2, seat, Seat.settled, exists_slot,
      forall_slot]
  all_goals exact fun _ => eq_comm

theorem complete_iff : m.status = .complete ↔ m.isBye := by
  rcases h.cases with ⟨hb, -, hs, -⟩ | ⟨-, hb, hs⟩ | ⟨-, hb, hs⟩ <;> simp [hb, hs]

theorem skipped_iff : m.status = .skipped ↔ ∀ slot, m.seat slot = .settled none := by
  refine ⟨fun hs => h.rest.seats_of_skipped hs, fun hseats => ?_⟩
  rcases h.cases with ⟨hb, -⟩ | ⟨-, -, hs⟩ | ⟨⟨slot, hslot⟩, -⟩
  · have h1 : m.seat1 = .settled none := hseats .first
    have h2 : m.seat2 = .settled none := hseats .second
    simp [isBye, player1, player2, h1, h2, Seat.settled] at hb
  · exact hs
  · exact absurd (hseats slot) hslot

/-- A match none of whose seats is vacant waits to be played. -/
theorem pending_of_ne_vacant (hne : ∀ slot, m.seat slot ≠ .settled none) :
    m.status = .pending := by
  rcases h.cases with ⟨-, ⟨slot, hs⟩, -⟩ | ⟨hs, -⟩ | ⟨-, -, hp⟩
  · exact absurd hs (hne slot)
  · exact absurd (hs .first) (hne .first)
  · exact hp

theorem exists_winner (hb : m.isBye) :
    m.status = .complete ∧ ∃ p, m.winner = some p ∧ ∀ q, m.hasPlayer q ↔ q = p := by
  rcases h.cases with ⟨-, -, hw⟩ | ⟨-, hnot, -⟩ | ⟨-, hnot, -⟩
  · exact hw
  · rw [hnot] at hb
    cases hb
  · rw [hnot] at hb
    cases hb

/-- Nobody has lost, so no loser leaves the match. -/
theorem sends_dropped :
    m.sends m.dropped = if m.status.isResolved then .settled none else {} := by
  rcases h.cases with ⟨hb, -, hs, -⟩ | ⟨-, -, hs⟩ | ⟨-, -, hs⟩
  · have hready : m.isReady = false := by
      unfold isBye at hb
      split at hb <;> simp_all [isReady]
    have hloser : m.loser = none := by
      rw [← Option.not_isSome_iff_eq_none, h.rest.isSome_loser hs, hready]
      exact Bool.false_ne_true
    have hdropped : m.dropped = none := by
      unfold dropped
      split_ifs
      · rfl
      · exact hloser
    simp [sends, hs, hdropped, MatchStatus.isResolved]
  · simp [sends, hs, MatchStatus.isResolved]
  · simp [sends, hs, MatchStatus.isResolved]

end Untouched

end Match

namespace Arena

/-- The matches that the places of a layout have come to before anybody has touched them. -/
structure Opened {P : Type} (places : List P) (mk now : P → Match) : Prop
    extends Played places mk now where
  untouched : ∀ x ∈ places, (now x).Untouched

theorem Layout.exists_opened {P : Type} {places : List P} {mk : P → Match}
    {feeds : P → List (P × Slot)} {source : P × Slot → P} (h : Layout places mk feeds source)
    {ms : List Match} (hc : Coherent ms [])
    (hs : List.Forall₂ Match.Settles (places.map mk) ms) :
    ∃ now, ms = places.map now ∧ Opened places mk now := by
  obtain ⟨now, rfl, hnow⟩ := exists_of_forall₂_map h.nodup hs
  refine ⟨now, rfl, ⟨hc, fun x hx => (hnow x hx).evolves⟩, fun x hx => ?_⟩
  have hmem : now x ∈ places.map now := List.mem_map_of_mem hx
  have hrest := hc.atRest hmem
  exact ⟨hrest, hc.proper _ hmem, hrest.eq_standing_of_settles (h.fresh x hx).1 (hnow x hx)⟩

end Arena

namespace Elimination

open Arena Seeding

/-! ## The byes of the first round -/

/-- Nobody has the second slot of a match of the first round. -/
def byeAt (slots : List (Option Player)) (p : Nat) : Bool := slots[2 * p + 1]?.join.isNone

section Ladder

variable {slots : List (Option Player)} {k : Nat} {W : Nat → Nat → Match}
  (h : Ladder slots k W) (hroot : ∀ p < 2 ^ (k - 1), ∃ x, slots[2 * p]? = some (some x))

include h hroot

theorem Ladder.isBye_eq {p : Nat} (hp : p < 2 ^ (k - 1)) : (W 1 p).isBye = byeAt slots p := by
  obtain ⟨x, hx⟩ := hroot p hp
  have h1 : (W 1 p).seat1 = .settled (slots[2 * p]?.join) := h.opening p .first hp
  have h2 : (W 1 p).seat2 = .settled (slots[2 * p + 1]?.join) := h.opening p .second hp
  rw [hx] at h1
  unfold byeAt
  cases hs : slots[2 * p + 1]?.join <;> rw [hs] at h2 <;>
    simp [Match.isBye, Match.player1, Match.player2, h1, h2, Seat.settled]

/-- Before anybody has played, the byes of the first round are won and everybody else waits. -/
theorem Ladder.status_eq {r p : Nat} (hr : 1 ≤ r) (hrk : r ≤ k) (hp : p < 2 ^ (k - r))
    (hu : (W r p).Untouched) :
    (W r p).status = if r = 1 ∧ byeAt slots p then .complete else .pending := by
  by_cases hone : r = 1
  · subst hone
    rw [← h.isBye_eq hroot hp]
    rcases hu.cases with ⟨hb, -, hs, -⟩ | ⟨hs, -⟩ | ⟨-, hb, hs⟩
    · rw [if_pos ⟨rfl, hb⟩, hs]
    · exact absurd (hs .first) (h.first_ne_vacant hroot hr hrk hp)
    · rw [if_neg (by simp [hb]), hs]
  · rw [if_neg fun hc => hone hc.1]
    exact hu.pending_of_ne_vacant (h.seat_ne_vacant hroot (by omega) hrk hp)

omit hroot

/-- A bye sends its player on to the second round. -/
theorem Ladder.advances (hk : 1 < k) {p : Nat} (hp : p < 2 ^ (k - 1)) (hu : (W 1 p).Untouched)
    (hb : (W 1 p).isBye) : ∃ w, (W 1 p).winner = some w ∧ (∀ q, (W 1 p).hasPlayer q ↔ q = w) ∧
      (W 2 (p / 2)).seat (.ofPosition p) = .settled (some w) := by
  obtain ⟨hc, w, hw, hall⟩ := hu.exists_winner hb
  have h2 := two_pow_pred (a := k - 1) (by omega)
  rw [Nat.sub_sub] at h2
  have hclimbs := h.climbs 1 (p / 2) (.ofPosition p) (le_refl 1) hk (by omega)
  rw [double_ofPosition, Match.sends, hc, hw] at hclimbs
  exact ⟨w, hw, hall, hclimbs⟩

end Ladder

/-! ## The seeds of the byes -/

theorem countP_range_lt (c n : Nat) : (List.range n).countP (· < c) = min c n := by
  induction n with
  | zero => simp
  | succ n ih =>
    rw [List.range_succ, List.countP_append, ih, List.countP_singleton]
    split_ifs <;> simp_all <;> omega

theorem map_idxOf_slots (k : Nat) : (slots k).map (slots k).idxOf = List.range (2 ^ k) := by
  refine List.ext_getElem (by simp [length_slots]) fun i hi hi' => ?_
  rw [List.getElem_map, (nodup_slots k).idxOf_getElem, List.getElem_range]

/-- Over all slots, a property of seeds holds as often as over all seeds. -/
theorem countP_idxOf_slots (f : Nat → Bool) (k : Nat) :
    (List.range (2 ^ k)).countP (fun p => f ((slots k).idxOf p)) =
      (List.range (2 ^ k)).countP f := by
  rw [← (slots_perm k).countP_eq, ← map_idxOf_slots, List.countP_map]
  rfl

section Seeds

variable {entrants : List Player} (hn : 2 ≤ entrants.length)

theorem byeAt_iff {k p : Nat} (hk : rounds entrants.length = k + 1) (hp : p < 2 ^ k) :
    byeAt (bracketSlots entrants) p ↔ (slots k).idxOf p < 2 ^ (k + 1) - entrants.length := by
  obtain ⟨hj, -, hodd⟩ := bracketSlots_pair hk hp
  rw [byeAt, hodd, Option.join_some, Option.isNone_iff_eq_none, List.getElem?_eq_none_iff]
  omega

include hn

/-- A bracket of two slots has no bye. -/
theorem one_lt_rounds_of_byeAt {p : Nat} (hp : p < 2 ^ (rounds entrants.length - 1))
    (hb : byeAt (bracketSlots entrants) p) : 1 < rounds entrants.length := by
  by_contra hone
  have hk : rounds entrants.length = 0 + 1 := by
    have := rounds_pos entrants.length
    omega
  rw [hk] at hp
  rw [byeAt_iff hk hp] at hb
  omega

/-- There are as many byes as slots that no seed has. -/
theorem countP_byeAt {k : Nat} (hk : rounds entrants.length = k + 1) :
    (List.range (2 ^ k)).countP (byeAt (bracketSlots entrants)) =
      2 ^ (k + 1) - entrants.length := by
  have hhalf := half_lt hn
  rw [hk, Nat.add_sub_cancel] at hhalf
  have hseeds : (List.range (2 ^ k)).countP (byeAt (bracketSlots entrants)) =
      (List.range (2 ^ k)).countP
        fun p => decide ((slots k).idxOf p < 2 ^ (k + 1) - entrants.length) :=
    List.countP_congr fun p hp => by simpa using byeAt_iff hk (List.mem_range.1 hp)
  rw [hseeds, countP_idxOf_slots fun j => decide (j < 2 ^ (k + 1) - entrants.length),
    countP_range_lt, Nat.pow_succ]
  omega

/-- Byes meet if even the lower of the two seeds has one. -/
theorem countP_byeAt_pair {k : Nat} (hk : rounds entrants.length = k + 1 + 1) :
    (List.range (2 ^ k)).countP (fun q => byeAt (bracketSlots entrants) (2 * q) &&
      byeAt (bracketSlots entrants) (2 * q + 1)) = 3 * 2 ^ k - entrants.length := by
  have hhalf := half_lt hn
  rw [hk, Nat.add_sub_cancel, Nat.pow_succ] at hhalf
  have hseeds : (List.range (2 ^ k)).countP (fun q => byeAt (bracketSlots entrants) (2 * q) &&
      byeAt (bracketSlots entrants) (2 * q + 1)) = (List.range (2 ^ k)).countP
        fun q => !decide ((slots k).idxOf q < entrants.length - 2 ^ (k + 1)) := by
    refine List.countP_congr fun q hq => ?_
    have hq := List.mem_range.1 hq
    have htwo := Nat.pow_succ 2 k
    obtain ⟨hj, heven, hodd⟩ := idxOf_slots hq
    rw [Bool.and_eq_true, byeAt_iff hk (by omega), byeAt_iff hk (by omega), heven, hodd,
      Bool.not_eq_true', decide_eq_false_iff_not, Nat.pow_succ 2 (k + 1)]
    omega
  have hall := List.length_eq_countP_add_countP (l := List.range (2 ^ k))
    (· < entrants.length - 2 ^ (k + 1))
  rw [hseeds, countP_idxOf_slots fun j => !decide (j < entrants.length - 2 ^ (k + 1))]
  rw [List.length_range, countP_range_lt] at hall
  simp only [decide_eq_true_eq, decide_not] at hall
  omega

end Seeds

end Elimination

end Tourney
