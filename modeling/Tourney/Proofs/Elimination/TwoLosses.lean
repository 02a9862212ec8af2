import Tourney.Proofs.Elimination.DoubleTree
import Tourney.Proofs.Elimination.Ladder

/-!
# Two losses and out

Where a player of a double elimination is, in any state of its matches. An entry of the draw stays
in the winners bracket, wins it, or drops into the losers bracket (`Ladder.flow`); there it stays,
loses again, or comes to the grand final (`flow_losers`). What follows the two brackets is decided
by the grand final and its reset alone (`finish_of_first`, `finish_of_second`).
-/

namespace Tourney.Elimination

open Arena Finset Place

/-! ## The grand final and its reset -/

section Finish

variable {g r : Match} {x : Player}

/-- A reset `r` behind a grand final `g`. -/
structure Finish (g r : Match) : Prop where
  rest : g.AtRest
  restReset : r.AtRest
  isGrandFinal : g.isGrandFinal
  first : r.seat .first = g.sends g.winner
  second : r.seat .second = g.sends g.dropped

theorem Finish.seats_reset (h : Finish g r) :
    r.seats x = g.wins x + (g.sends g.dropped).holds x := by
  rw [Match.seats_eq_sum, h.first, h.second, Match.holds_sends_winner]

theorem holds_dropped_le : (g.sends g.dropped).holds x ≤ g.loses x := by
  rw [Match.holds_sends, Match.loses, Match.dropped]
  split_ifs <;> simp_all

theorem winner_of_winnerSlot (h : g.winnerSlot = some .first) :
    ∃ w, g.winner = some w ∧ g.seat1.player = some w := by
  unfold Match.winnerSlot at h
  split at h
  · cases h
  · rename_i w hw
    split_ifs at h with h1 h2
    · exact ⟨w, hw, h1⟩
    · simp at h

/-- Only the player of the second seat can lose without coming to the reset. -/
theorem Finish.holds_dropped (h : Finish g r) (ho : g.seats x ≤ 1) (hl : g.loses x = 1) :
    (g.sends g.dropped).holds x = g.seat1.holds x := by
  have hseats := h.rest.seats_eq (x := x)
  have hc : g.status = .complete ∧ g.loser = some x := by
    unfold Match.loses at hl
    split_ifs at hl with hc
    exact hc
  by_cases hslot : g.winnerSlot = some .first
  · -- the first seat won, so it does not hold the loser
    obtain ⟨w, hw, h1⟩ := winner_of_winnerSlot hslot
    have hne : w ≠ x := by
      rintro rfl
      have : g.wins w = 1 := if_pos ⟨hc.1, hw⟩
      omega
    have hd : g.dropped = none := if_pos ⟨h.isGrandFinal, hslot⟩
    rw [hd, Match.holds_sends, Seat.holds, h1]
    simp [hne]
  · have hfirst : g.seat1.player = some x := by
      have hlo := hc.2
      unfold Match.loser at hlo
      split at hlo
      · cases hlo
      · contradiction
      · exact hlo
    have hd : g.dropped = g.loser := if_neg (by simp [hslot])
    rw [hd, Match.holds_sends, if_pos hc, Seat.holds, if_pos hfirst]

/-- A grand final won from the first seat ends the bracket. -/
theorem Finish.wins_reset (h : Finish g r) (hw : g.wins x = 1) (hfirst : g.seat1.holds x = 1) :
    r.wins x = 1 := by
  have hc : g.status = .complete ∧ g.winner = some x := by
    unfold Match.wins at hw
    split_ifs at hw with hc
    exact hc
  have h1 : g.player1 = some x := by
    unfold Seat.holds at hfirst
    split_ifs at hfirst with h1
    exact h1
  have hslot : g.winnerSlot = some .first := by simp [Match.winnerSlot, hc.2, h1]
  have hr1 : r.seat .first = .settled (some x) := by simp [h.first, Match.sends, hc]
  have hr2 : r.seat .second = .settled none := by
    simp [h.second, Match.sends, hc.1, Match.dropped, h.isGrandFinal, hslot]
  have hready : r.isReady = false := by
    simp only [Match.seat] at hr2
    simp [Match.isReady, Match.player2, hr2, Seat.settled]
  -- a vacant seat is never filled, so the reset has been won without play
  have hres : r.status.isResolved := by
    by_contra hres
    have hne : ∀ slot, r.seat slot ≠ {} := by
      rintro (_ | _)
      · rw [hr1]
        exact Seat.settled_ne_open _
      · rw [hr2]
        exact Seat.settled_ne_open _
    rw [ready_of_seats h.restReset (by simpa using hres) hne] at hready
    cases hready
  obtain ⟨hrc, w, hrw, hp⟩ := h.restReset.exists_winner hres .first
    (by simp [hr1, Seat.settled])
  simp only [Match.seat] at hr1 hr2
  obtain rfl : x = w := by
    simpa [Match.hasPlayer, Match.player1, Match.player2, hr1, hr2, Seat.settled] using hp
  exact if_pos ⟨hrc, hrw⟩

variable (h : Finish g r)

include h

/-- An undefeated player loses twice, wins in the end, or still has one match to play. -/
theorem finish_of_first (h1 : g.seat1.holds x = 1) (h2 : g.seat2.holds x = 0) :
    g.loses x + r.loses x ≤ 2 ∧
      g.stays x + r.stays x + r.wins x = if g.loses x + r.loses x = 2 then 0 else 1 := by
  have hg := h.rest.seats_eq (x := x)
  have hr := h.restReset.seats_eq (x := x)
  have hrg := h.seats_reset (x := x)
  have hd := holds_dropped_le (g := g) (x := x)
  have hone : g.seats x = 1 := by rw [Match.seats, h1, h2]
  rw [hone] at hg
  refine ⟨by omega, ?_⟩
  by_cases hw : g.wins x = 1
  · have := h.wins_reset hw h1
    rw [if_neg (by omega)]
    omega
  · by_cases hl : g.loses x = 1
    · have := h.holds_dropped (by omega) hl
      split_ifs <;> omega
    · rw [if_neg (by omega)]
      omega

/-- A player with a loss behind them loses one more, wins in the end, or still has one match to
play. -/
theorem finish_of_second (h1 : g.seat1.holds x = 0) (h2 : g.seat2.holds x = 1) :
    g.stays x + r.stays x + r.wins x + (g.loses x + r.loses x) = 1 := by
  have hg := h.rest.seats_eq (x := x)
  have hr := h.restReset.seats_eq (x := x)
  have hrg := h.seats_reset (x := x)
  have hd := holds_dropped_le (g := g) (x := x)
  have hone : g.seats x = 1 := by rw [Match.seats, h1, h2]
  rw [hone] at hg
  by_cases hl : g.loses x = 1
  · have := h.holds_dropped (by omega) hl
    omega
  · omega

theorem finish_of_absent (h1 : g.seat1.holds x = 0) (h2 : g.seat2.holds x = 0) :
    g.stays x + r.stays x + r.wins x + (g.loses x + r.loses x) = 0 := by
  have hg := h.rest.seats_eq (x := x)
  have hr := h.restReset.seats_eq (x := x)
  have hrg := h.seats_reset (x := x)
  have hd := holds_dropped_le (g := g) (x := x)
  have hone : g.seats x = 0 := by rw [Match.seats, h1, h2]
  omega

end Finish

/-! ## The two brackets -/

section Brackets

variable {slots : List (Option Player)} {k : Nat} {first : MatchId} {stage : Stage}
  {now : Place → Match} {x : Player}

/-- How often a player has left the `j`-th major round upwards; before them all stand the losers
of the first winners round. -/
def survive (k : Nat) (now : Place → Match) (x : Player) : Nat → Nat
  | 0 => ∑ p ∈ range (2 ^ (k - 1)), (now (.winners 1 p)).loses x
  | j + 1 => ∑ p ∈ range (2 ^ (k - (j + 1) - 1)), (now (.major (j + 1) p)).wins x

variable (h : Played (doublePlaces k) (placeMatch slots k first stage) now) (hk : 1 ≤ k)

include h

theorem holds_drop {y : Place} (hy : y ∈ doublePlaces k) (hg : y ≠ .grandFinal) :
    ((now y).sends (now y).dropped).holds x = (now y).loses x := by
  refine Match.holds_sends_dropped ?_
  rw [Match.outline_isGrandFinal (h.evolves y hy).outline, placeMatch_isGrandFinal hg]

include hk

theorem seat_of_next {y : Place} (hy : y ∈ doublePlaces k) {l : Place × Slot}
    (hl : (feeds k y).head? = some l) :
    (now l.1).seat l.2 = (now y).sends (now y).winner :=
  h.seat_next hy (leads_of_feeds hk hy (List.mem_of_mem_head? hl)).1
    (by rw [placeMatch_next, hl]; rfl)

theorem seat_of_drop {y : Place} (hy : y ∈ doublePlaces k) {l : Place × Slot}
    (hl : (feeds k y)[1]? = some l) :
    (now l.1).seat l.2 = (now y).sends (now y).dropped :=
  h.seat_loserNext hy (leads_of_feeds hk hy (List.mem_of_getElem? hl)).1
    (by rw [placeMatch_loserNext, hl]; rfl)

theorem ladder : Ladder slots k fun r p => now (.winners r p) where
  rest r p h1 hrk hp := h.atRest (winners_mem.2 ⟨h1, hrk, hp⟩)
  opening p s hp := by
    rw [h.seat_fresh (winners_mem.2 ⟨le_refl 1, hk, hp⟩), placeMatch_seat_one]
    rw [placeMatch_seat_one]
    exact Seat.settled_ne_open _
  climbs r q s h1 hrk hq := by
    refine seat_of_next h hk (winners_mem.2 ⟨h1, by omega, Ladder.double_lt hrk hq s⟩)
      (l := (.winners (r + 1) q, s)) ?_
    simp [feeds, hrk, double_div, ofPosition_double]

theorem finish : Finish (now .grandFinal) (now .reset) where
  rest := h.atRest grandFinal_mem
  restReset := h.atRest reset_mem
  isGrandFinal := by
    rw [Match.outline_isGrandFinal (h.evolves _ grandFinal_mem).outline]
    rfl
  first := seat_of_next h hk grandFinal_mem (l := (.reset, .first)) rfl
  second := seat_of_drop h hk grandFinal_mem (l := (.reset, .second)) rfl

theorem sum_seats_minor {j : Nat} (hj : j + 1 < k) :
    ∑ q ∈ range (2 ^ (k - (j + 1) - 1)), (now (.minor (j + 1) q)).seats x = survive k now x j := by
  have h2 := two_pow_pred (a := k - (j + 1)) (by omega)
  have hlt : ∀ q ∈ range (2 ^ (k - (j + 1) - 1)), ∀ s, 2 * q + Slot.number s < 2 ^ (k - (j + 1)) :=
    fun q hq s => by
      have := mem_range.1 hq
      cases s <;> simp only [Slot.number] <;> omega
  cases j with
  | zero =>
    have hseat : ∀ q ∈ range (2 ^ (k - 1 - 1)), ∀ s, ((now (.minor 1 q)).seat s).holds x =
        (now (.winners 1 (2 * q + Slot.number s))).loses x := fun q hq s => by
      have hmem := winners_mem.2 ⟨le_refl 1, hk, hlt q hq s⟩
      rw [seat_of_drop h hk hmem (l := (.minor 1 q, s))
        (by simp [feeds, drop, show k ≠ 1 by omega, double_div, ofPosition_double]),
        holds_drop h hmem (by simp)]
    rw [survive, show 2 ^ (k - 1) = 2 * 2 ^ (k - 1 - 1) from h2,
      ← sum_range_double fun p => (now (.winners 1 p)).loses x]
    refine sum_congr rfl fun q hq => ?_
    rw [Match.seats_eq_sum, hseat q hq, hseat q hq]
    rfl
  | succ j =>
    have hseat : ∀ q ∈ range (2 ^ (k - (j + 1 + 1) - 1)), ∀ s,
        ((now (.minor (j + 1 + 1) q)).seat s).holds x =
          (now (.major (j + 1) (2 * q + Slot.number s))).wins x := fun q hq s => by
      have hmem := major_mem.2 ⟨Nat.le_add_left 1 j, by omega, hlt q hq s⟩
      rw [seat_of_next h hk hmem (l := (.minor (j + 1 + 1) q, s))
        (by simp [feeds, hj, double_div, ofPosition_double]), Match.holds_sends_winner]
    rw [survive, show 2 ^ (k - (j + 1) - 1) = 2 * 2 ^ (k - (j + 1 + 1) - 1) from h2,
      ← sum_range_double fun p => (now (.major (j + 1) p)).wins x]
    refine sum_congr rfl fun q hq => ?_
    rw [Match.seats_eq_sum, hseat q hq, hseat q hq]
    rfl

theorem seats_major {j q : Nat} (hj : j + 1 < k) (hq : q < 2 ^ (k - (j + 1) - 1)) :
    (now (.major (j + 1) q)).seats x =
      (now (.minor (j + 1) q)).wins x + (now (.winners (j + 1 + 1) q)).loses x := by
  have hminor := minor_mem.2 ⟨Nat.le_add_left 1 j, hj, hq⟩
  have hwinners := winners_mem.2 ⟨Nat.le_add_left 1 (j + 1), hj, by rwa [Nat.sub_sub] at hq⟩
  rw [Match.seats_eq_sum, seat_of_next h hk hminor (l := (.major (j + 1) q, .first)) rfl,
    seat_of_drop h hk hwinners (l := (.major (j + 1) q, .second))
      (by simp [feeds, drop, show k ≠ 1 by omega]),
    Match.holds_sends_winner, holds_drop h hwinners (by simp)]

/-- Up to any major round, every player that has dropped has stayed, has lost again, or has gone
on. -/
theorem flow_losers {j : Nat} (hj : j < k) :
    ∑ i ∈ range j, ∑ q ∈ range (2 ^ (k - (i + 1) - 1)),
        ((now (.minor (i + 1) q)).stays x + (now (.major (i + 1) q)).stays x) +
      ∑ i ∈ range j, ∑ q ∈ range (2 ^ (k - (i + 1) - 1)),
        ((now (.minor (i + 1) q)).loses x + (now (.major (i + 1) q)).loses x) +
        survive k now x j =
      ∑ r ∈ range (j + 1), ∑ p ∈ range (2 ^ (k - (r + 1))), (now (.winners (r + 1) p)).loses x := by
  induction j with
  | zero => simp [survive]
  | succ j ih =>
    have hminor : ∀ q ∈ range (2 ^ (k - (j + 1) - 1)), (now (.minor (j + 1) q)).seats x =
        (now (.minor (j + 1) q)).stays x + (now (.minor (j + 1) q)).wins x +
          (now (.minor (j + 1) q)).loses x := fun q hq =>
      (h.atRest (minor_mem.2 ⟨Nat.le_add_left 1 j, hj, mem_range.1 hq⟩)).seats_eq
    have hmajor : ∀ q ∈ range (2 ^ (k - (j + 1) - 1)),
        (now (.minor (j + 1) q)).wins x + (now (.winners (j + 1 + 1) q)).loses x =
          (now (.major (j + 1) q)).stays x + (now (.major (j + 1) q)).wins x +
            (now (.major (j + 1) q)).loses x := fun q hq => by
      rw [← seats_major h hk hj (mem_range.1 hq)]
      exact (h.atRest (major_mem.2 ⟨Nat.le_add_left 1 j, hj, mem_range.1 hq⟩)).seats_eq
    have hin := sum_seats_minor h hk (x := x) hj
    have hmid := sum_congr rfl hmajor
    rw [sum_congr rfl hminor] at hin
    simp only [sum_add_distrib] at hin hmid
    rw [sum_range_succ _ (j + 1), ← ih (by omega), sum_range_succ, sum_range_succ, ← hin, survive]
    simp only [sum_add_distrib, Nat.sub_sub] at hmid ⊢
    omega

end Brackets

/-! ## The whole arena -/

theorem sum_doublePlaces {k : Nat} (f : Place → Nat) : ((doublePlaces k).map f).sum =
    ∑ r ∈ range k, ∑ p ∈ range (2 ^ (k - (r + 1))), f (.winners (r + 1) p) +
      ∑ i ∈ range (k - 1), ∑ q ∈ range (2 ^ (k - (i + 1) - 1)),
        (f (.minor (i + 1) q) + f (.major (i + 1) q)) +
      (f .grandFinal + f .reset) := by
  have hlosers : ∀ i ∈ range (k - 1), ∑ q ∈ range (pairLength (2 ^ k) (i + 1)),
      (f (.minor (i + 1) q) + f (.major (i + 1) q)) = ∑ q ∈ range (2 ^ (k - (i + 1) - 1)),
        (f (.minor (i + 1) q) + f (.major (i + 1) q)) := fun i hi => by
    rw [pairLength_eq (by have := mem_range.1 hi; omega)]
  rw [← sum_congr rfl hlosers, ← sum_treePlaces fun x => f (.winners x.1 x.2)]
  simp only [doublePlaces, pairPlaces, List.map_append, List.sum_append, List.map_map,
    sum_map_flatMap, sum_map_range, Function.comp_def, sum_add_distrib, List.map_cons,
    List.map_nil, List.sum_cons, List.sum_nil, Nat.add_zero]

section Accounts

variable {slots : List (Option Player)} {k : Nat} {first : MatchId} {stage : Stage}
  {now : Place → Match} {x : Player}
  (h : Played (doublePlaces k) (placeMatch slots k first stage) now) (hk : 1 ≤ k)
  (hlen : slots.length = 2 ^ k)

include h hk hlen

/-- The two ways into the grand final, as seats of it. -/
theorem holds_grandFinal :
    (now .grandFinal).seat1.holds x = Ladder.reach slots k (fun r p => now (.winners r p)) x k ∧
      (now .grandFinal).seat2.holds x = survive k now x (k - 1) := by
  obtain ⟨j, rfl⟩ := Nat.exists_eq_add_of_le' hk
  have hlast := winners_mem.2 ⟨hk, le_refl (j + 1), show 0 < 2 ^ (j + 1 - (j + 1)) by simp⟩
  constructor
  · have hs := seat_of_next h hk hlast (l := (.grandFinal, .first)) (by simp [feeds])
    simp only [Match.seat] at hs
    rw [hs, Match.holds_sends_winner]
    simp [Ladder.reach]
  · cases j with
    | zero =>
      have hs := seat_of_drop h hk hlast (l := (.grandFinal, .second)) rfl
      simp only [Match.seat] at hs
      rw [hs, holds_drop h hlast (by simp)]
      simp [survive]
    | succ j =>
      have hmajor := major_mem.2 ⟨Nat.le_add_left 1 j, Nat.lt_succ_self (j + 1),
        Nat.two_pow_pos (j + 1 + 1 - (j + 1) - 1)⟩
      have hs := seat_of_next h hk hmajor (l := (.grandFinal, .second)) (by simp [feeds])
      simp only [Match.seat] at hs
      rw [hs, Match.holds_sends_winner]
      simp [survive]

/-- A player of the draw either has lost twice, or sits in one unresolved match, or has won the
reset. -/
theorem stays_add_wins (hx : slots.count (some x) ≤ 1) :
    ((doublePlaces k).map fun y => (now y).loses x).sum ≤ 2 ∧
      ((doublePlaces k).map fun y => (now y).stays x).sum + (now .reset).wins x =
        if ((doublePlaces k).map fun y => (now y).loses x).sum = 2 then 0
        else slots.count (some x) := by
  have hw := (ladder h hk).flow (x := x) hlen (le_refl k)
  have hl := flow_losers h hk (x := x) (show k - 1 < k by omega)
  obtain ⟨h1, h2⟩ := holds_grandFinal h hk hlen (x := x)
  rw [Nat.sub_add_cancel hk] at hl
  have hf := finish h hk
  rw [sum_doublePlaces, sum_doublePlaces]
  simp only [sum_add_distrib] at hl ⊢
  rw [← h2] at hl
  rw [← h1] at hw
  have hg := hf.rest.seats_eq (x := x)
  by_cases hc1 : (now .grandFinal).seat1.holds x = 1
  · obtain ⟨hle, hsum⟩ := finish_of_first hf hc1 (by omega)
    split_ifs at hsum ⊢ <;> omega
  · by_cases hc2 : (now .grandFinal).seat2.holds x = 1
    · have := finish_of_second hf (by omega) hc2
      split_ifs <;> omega
    · have := finish_of_absent hf (x := x) (by omega) (by omega)
      split_ifs <;> omega

end Accounts

end Tourney.Elimination
