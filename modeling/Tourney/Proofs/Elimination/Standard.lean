import Tourney.Proofs.Elimination.Seeding

/-!
# Standard seeding

A bracket twice the size doubles the slots of the seeds it had (`take_slots`), so the top seeds of
any bracket lie in equal blocks of it as they would lie in a bracket of their own, and each new seed
comes beside the one it mirrors. Read by slots, every seed is followed by its mirror image
(`map_idxOf_range`). Only powers of two have a seeding (`order_standard`).
-/

namespace Tourney.Seeding

/-- The slots of a bracket are given to its seeds as is the standard. In round `r` of the tree above
them, slot `i` belongs to match `i / 2 ^ r`. -/
structure Standard (size : Nat) (slots : List Nat) : Prop where
  perm : slots.Perm (List.range size)
  /-- Each seed opens against the one it mirrors. -/
  mirrored : ∀ s < size, ∃ k,
    slots[s]? = some (2 * k) ∧ slots[size - 1 - s]? = some (2 * k + 1) ∨
      slots[s]? = some (2 * k + 1) ∧ slots[size - 1 - s]? = some (2 * k)
  /-- The top seeds lie in different blocks, arranged as the slots of a smaller bracket. -/
  blocks : ∀ b top, b ≤ size → order b = .ok top →
    (slots.take b).map (· / (size / b)) = top ∧ top.Perm (List.range b)
  /-- The top two meet in the last round only. -/
  final : ∃ i j, slots[0]? = some i ∧ slots[1]? = some j ∧
    ∀ r, i / 2 ^ r = j / 2 ^ r ↔ size ≤ 2 ^ r

theorem order_two_pow {k : Nat} (hk : 1 ≤ k) : order (2 ^ k) = .ok (slots k) := by
  have htwo : 2 ^ 1 ≤ 2 ^ k := Nat.pow_le_pow_right (by omega) hk
  rw [order, Nat.log2_two_pow, if_pos ⟨htwo, rfl⟩]

theorem order_eq_ok_iff {size : Nat} {top : List Nat} :
    order size = .ok top ↔ ∃ k, 1 ≤ k ∧ size = 2 ^ k ∧ top = slots k := by
  constructor
  · intro h
    unfold order at h
    split_ifs at h with hc
    cases h
    refine ⟨size.log2, ?_, hc.2.symm, rfl⟩
    by_contra hlog
    have hsize := hc.2
    rw [show size.log2 = 0 by omega] at hsize
    omega
  · rintro ⟨k, hk, rfl, rfl⟩
    exact order_two_pow hk

/-- The top seeds of a bracket keep their places when it is doubled, and the places double. -/
theorem take_slots (j d : Nat) : (slots (j + d)).take (2 ^ j) = (slots j).map (2 ^ d * ·) := by
  induction d with
  | zero => simp [List.take_of_length_le (length_slots j).le]
  | succ d ih =>
    have hle : 2 ^ j ≤ 2 ^ (j + d) := Nat.pow_le_pow_right (by omega) (by omega)
    rw [← Nat.add_assoc, slots, List.take_append_of_le_length (by simpa [length_slots] using hle),
      ← List.map_take, ih, List.map_map]
    exact List.map_congr_left fun x _ => by simp [Nat.pow_succ, Nat.mul_comm, Nat.mul_left_comm]

theorem map_take_slots {j k : Nat} (h : j ≤ k) :
    ((slots k).take (2 ^ j)).map (· / (2 ^ k / 2 ^ j)) = slots j := by
  obtain ⟨d, rfl⟩ := Nat.exists_eq_add_of_le h
  rw [take_slots, Nat.pow_div h (by omega), Nat.add_sub_cancel_left, List.map_map]
  refine (List.map_congr_left fun x _ => ?_).trans (List.map_id _)
  exact Nat.mul_div_cancel_left x (Nat.two_pow_pos d)

/-! ## The seeds by slots -/

theorem map_range_double {α : Type} (f : Nat → α) (n : Nat) :
    (List.range (2 * n)).map f = (List.range n).flatMap fun p => [f (2 * p), f (2 * p + 1)] := by
  induction n with
  | zero => rfl
  | succ n ih =>
    rw [List.range_succ, List.flatMap_append, ← ih, List.flatMap_singleton, Nat.mul_succ,
      List.range_succ, List.range_succ]
    simp

/-- The seeds in the order of the slots: in a bracket twice the size every seed is followed by the
one it mirrors there. -/
def seedsBySlot : Nat → List Nat
  | 0 => [0]
  | k + 1 => (seedsBySlot k).flatMap fun seed => [seed, 2 ^ (k + 1) - 1 - seed]

/-- Looking up the seed of each slot gives what doubling the bracket gives. -/
theorem map_idxOf_range (k : Nat) : (List.range (2 ^ k)).map (slots k).idxOf = seedsBySlot k := by
  induction k with
  | zero => rfl
  | succ k ih =>
    rw [seedsBySlot, ← ih, List.flatMap_map, Nat.pow_succ', map_range_double]
    refine List.flatMap_congr fun p hp => ?_
    obtain ⟨-, heven, hodd⟩ := idxOf_slots (List.mem_range.1 hp)
    rw [heven, hodd, Nat.pow_succ']

/-! ## The standard -/

theorem standard_slots {k : Nat} (hk : 1 ≤ k) : Standard (2 ^ k) (slots k) where
  perm := slots_perm k
  mirrored := by
    obtain ⟨n, rfl⟩ := Nat.exists_eq_add_of_le' hk
    intro s hs
    rw [Nat.pow_succ] at hs
    by_cases hhalf : s < 2 ^ n
    · obtain ⟨x, -, heven, hodd⟩ := getElem?_slots hhalf
      exact ⟨x, .inl ⟨heven, hodd⟩⟩
    · -- a seed of the lower half is the mirror of one above
      obtain ⟨x, -, heven, hodd⟩ := getElem?_slots (k := n) (j := 2 ^ (n + 1) - 1 - s) (by
        rw [Nat.pow_succ]
        omega)
      rw [show 2 ^ (n + 1) - 1 - (2 ^ (n + 1) - 1 - s) = s by rw [Nat.pow_succ]; omega] at hodd
      exact ⟨x, .inr ⟨hodd, heven⟩⟩
  blocks := by
    intro b top hb htop
    obtain ⟨j, -, rfl, rfl⟩ := order_eq_ok_iff.1 htop
    exact ⟨map_take_slots ((Nat.pow_le_pow_iff_right (by omega)).1 hb), slots_perm j⟩
  final := by
    obtain ⟨d, rfl⟩ := Nat.exists_eq_add_of_le hk
    have htop : (slots (1 + d)).take 2 = [0, 2 ^ d] := by
      simpa [slots] using take_slots 1 d
    have hget : ∀ s < 2, (slots (1 + d))[s]? = [0, 2 ^ d][s]? := fun s hs => by
      rw [← htop, List.getElem?_take_of_lt hs]
    refine ⟨0, 2 ^ d, hget 0 (by omega), hget 1 (by omega), fun r => ?_⟩
    rw [Nat.zero_div, eq_comm, Nat.div_eq_zero_iff_lt (Nat.two_pow_pos r),
      Nat.pow_lt_pow_iff_right (by omega), Nat.pow_le_pow_iff_right (by omega)]
    omega

/-- A power of two from two up has the standard seeding, and any other size is refused. -/
theorem order_standard (size : Nat) :
    (∃ k, 1 ≤ k ∧ size = 2 ^ k) ∧ (∃ slots, order size = .ok slots ∧ Standard size slots) ∨
      (∀ k, 1 ≤ k → size ≠ 2 ^ k) ∧ order size = .error (.invalidBracketSize size) := by
  by_cases h : ∃ k, 1 ≤ k ∧ size = 2 ^ k
  · obtain ⟨k, hk, rfl⟩ := h
    exact .inl ⟨⟨k, hk, rfl⟩, slots k, order_two_pow hk, standard_slots hk⟩
  · refine .inr ⟨fun k hk heq => h ⟨k, hk, heq⟩, ?_⟩
    rcases ho : order size with f | top
    · unfold order at ho
      split_ifs at ho
      cases ho
      rfl
    · obtain ⟨k, hk, heq, -⟩ := order_eq_ok_iff.1 ho
      exact absurd ⟨k, hk, heq⟩ h

example : order 8 = .ok [0, 4, 6, 2, 3, 7, 5, 1] := by decide

end Tourney.Seeding
