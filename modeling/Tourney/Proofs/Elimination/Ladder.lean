import Tourney.Proofs.Arena.Flow
import Tourney.Proofs.Elimination.Tree
import Tourney.Proofs.Sums

/-!
# Climbing the tree

The rounds of a knockout as a ladder: the slots of the bracket settle the first round, and the
winners of a round are seated in the next. A match of the ladder is always won in the end
(`Ladder.won`), and a player of the bracket either is still in a match, has lost one, or has won
the last round (`Ladder.flow`).
-/

namespace Tourney.Elimination

open Finset

theorem sum_treePlaces {k : Nat} (f : Nat × Nat → Nat) : ((treePlaces k).map f).sum =
    ∑ r ∈ range k, ∑ p ∈ range (2 ^ (k - (r + 1))), f (r + 1, p) := by
  have hrounds : ∀ r ∈ range k, ∑ p ∈ range (roundLength (2 ^ k) (r + 1)), f (r + 1, p) =
      ∑ p ∈ range (2 ^ (k - (r + 1))), f (r + 1, p) := fun r hr => by
    rw [roundLength_eq (mem_range.1 hr)]
  rw [← sum_congr rfl hrounds]
  simp only [treePlaces, sum_map_flatMap, List.map_map, sum_map_range, Function.comp_def]

/-- `W` holds the matches of a knockout by round and position. -/
structure Ladder (slots : List (Option Player)) (k : Nat) (W : Nat → Nat → Match) : Prop where
  rest : ∀ r p, 1 ≤ r → r ≤ k → p < 2 ^ (k - r) → (W r p).AtRest
  opening : ∀ p s, p < 2 ^ (k - 1) →
    (W 1 p).seat s = .settled (slots[2 * p + Slot.number s]?.join)
  climbs : ∀ r q s, 1 ≤ r → r < k → q < 2 ^ (k - (r + 1)) → (W (r + 1) q).seat s =
    (W r (2 * q + Slot.number s)).sends (W r (2 * q + Slot.number s)).winner

namespace Ladder

variable {slots : List (Option Player)} {k : Nat} {W : Nat → Nat → Match}

theorem double_lt {r q : Nat} (hr : r < k) (hq : q < 2 ^ (k - (r + 1))) (s : Slot) :
    2 * q + Slot.number s < 2 ^ (k - r) := by
  have h2 := two_pow_pred (a := k - r) (by omega)
  rw [Nat.sub_sub] at h2
  cases s <;> simp only [Slot.number] <;> omega

/-- The first seat of a match is never left vacant. -/
theorem first_ne_vacant (h : Ladder slots k W)
    (hroot : ∀ p < 2 ^ (k - 1), ∃ x, slots[2 * p]? = some (some x)) {r p : Nat} (hr : 1 ≤ r)
    (hrk : r ≤ k) (hp : p < 2 ^ (k - r)) : (W r p).seat .first ≠ .settled none := by
  induction r, hr using Nat.le_induction generalizing p with
  | base =>
    obtain ⟨x, hx⟩ := hroot p hp
    rw [h.opening p .first hp]
    simp [Slot.number, hx, Seat.settled]
  | succ r hr ih =>
    have hlt := double_lt hrk hp .first
    rw [h.climbs r p .first hr hrk hp]
    by_cases hres : (W r (2 * p + Slot.number .first)).status.isResolved
    · obtain ⟨hc, w, hw, -⟩ :=
        (h.rest r _ hr (by omega) hlt).exists_winner hres .first (ih (by omega) hlt)
      simp [Match.sends, hc, hw, Seat.settled]
    · rw [Match.sends_of_unresolved (by simpa using hres)]
      exact (Seat.settled_ne_open none).symm

theorem won (h : Ladder slots k W)
    (hroot : ∀ p < 2 ^ (k - 1), ∃ x, slots[2 * p]? = some (some x)) {r p : Nat} (hr : 1 ≤ r)
    (hrk : r ≤ k) (hp : p < 2 ^ (k - r)) (hres : (W r p).status.isResolved) :
    (W r p).status = .complete ∧ ∃ w, (W r p).winner = some w ∧ (W r p).hasPlayer w :=
  (h.rest r p hr hrk hp).exists_winner hres .first (h.first_ne_vacant hroot hr hrk hp)

/-! ## Counting a player -/

section Count

variable {x : Player}

theorem sum_holds_slots (slots : List (Option Player)) :
    ∑ i ∈ range slots.length, (Seat.settled (slots[i]?.join)).holds x = slots.count (some x) := by
  induction slots with
  | nil => rfl
  | cons a slots ih =>
    rw [List.length_cons, sum_range_succ', List.count_cons, ← ih]
    simp only [List.getElem?_cons_succ, List.getElem?_cons_zero, Option.join_some,
      Seat.holds_settled, beq_iff_eq]

/-- How often a player has left round `j` upwards; round zero is the draw. -/
def reach (slots : List (Option Player)) (k : Nat) (W : Nat → Nat → Match) (x : Player) : Nat → Nat
  | 0 => slots.count (some x)
  | j + 1 => ∑ p ∈ range (2 ^ (k - (j + 1))), (W (j + 1) p).wins x

theorem sum_seats (h : Ladder slots k W) (hlen : slots.length = 2 ^ k) {j : Nat} (hj : j < k) :
    ∑ p ∈ range (2 ^ (k - (j + 1))), (W (j + 1) p).seats x = reach slots k W x j := by
  have h2 := two_pow_pred (a := k - j) (by omega)
  rw [Nat.sub_sub] at h2
  cases j with
  | zero =>
    have hseats : ∀ p ∈ range (2 ^ (k - 1)), (W 1 p).seats x =
        (Seat.settled (slots[2 * p]?.join)).holds x +
          (Seat.settled (slots[2 * p + 1]?.join)).holds x := fun p hp => by
      rw [Match.seats_eq_sum, h.opening p .first (mem_range.1 hp),
        h.opening p .second (mem_range.1 hp)]
      rfl
    rw [reach, ← sum_holds_slots, hlen, Nat.zero_add, sum_congr rfl hseats,
      sum_range_double fun i => (Seat.settled (slots[i]?.join)).holds x]
    rw [Nat.zero_add, Nat.sub_zero] at h2
    rw [h2]
  | succ j =>
    have hseats : ∀ p ∈ range (2 ^ (k - (j + 1 + 1))), (W (j + 1 + 1) p).seats x =
        (W (j + 1) (2 * p)).wins x + (W (j + 1) (2 * p + 1)).wins x := fun p hp => by
      rw [Match.seats_eq_sum, h.climbs _ p .first (by omega) hj (mem_range.1 hp),
        h.climbs _ p .second (by omega) hj (mem_range.1 hp), Match.holds_sends_winner,
        Match.holds_sends_winner]
      rfl
    rw [reach, sum_congr rfl hseats, sum_range_double fun p => (W (j + 1) p).wins x, h2]

/-- Up to any round, every entry of a player has stayed, has lost, or has gone on. -/
theorem flow (h : Ladder slots k W) (hlen : slots.length = 2 ^ k) {j : Nat} (hj : j ≤ k) :
    ∑ r ∈ range j, ∑ p ∈ range (2 ^ (k - (r + 1))), (W (r + 1) p).stays x +
      ∑ r ∈ range j, ∑ p ∈ range (2 ^ (k - (r + 1))), (W (r + 1) p).loses x +
        reach slots k W x j = slots.count (some x) := by
  induction j with
  | zero => simp [reach]
  | succ j ih =>
    have hstep := h.sum_seats (x := x) hlen hj
    have hsplit : ∀ p ∈ range (2 ^ (k - (j + 1))), (W (j + 1) p).seats x =
        (W (j + 1) p).stays x + (W (j + 1) p).wins x + (W (j + 1) p).loses x := fun p hp =>
      (h.rest (j + 1) p (by omega) hj (mem_range.1 hp)).seats_eq
    rw [sum_congr rfl hsplit, sum_add_distrib, sum_add_distrib] at hstep
    rw [sum_range_succ, sum_range_succ, ← ih (by omega), ← hstep]
    simp only [reach]
    omega

end Count

end Ladder

end Tourney.Elimination
