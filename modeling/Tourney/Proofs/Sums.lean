import Mathlib.Algebra.BigOperators.Intervals
import Mathlib.Algebra.BigOperators.Ring.List
import Mathlib.Algebra.Order.BigOperators.Group.List

/-!
# Sums over ranges

Sums over the places of a schedule: positions taken in pairs from the left
(`sum_range_double`), or from both ends (`sum_range_fold`), and lists summed by their ranges
(`sum_map_range`). The places of a list are numbered upward (`pairwise_zipIdx`).
-/

namespace Tourney

open Finset

theorem sum_range_double (f : Nat → Nat) (n : Nat) :
    ∑ q ∈ range n, (f (2 * q) + f (2 * q + 1)) = ∑ p ∈ range (2 * n), f p := by
  induction n with
  | zero => rfl
  | succ n ih =>
    rw [sum_range_succ, ih, show 2 * (n + 1) = 2 * n + 1 + 1 by omega, sum_range_succ,
      sum_range_succ, Nat.add_assoc]

theorem sum_range_fold (f : Nat → Nat) (m : Nat) :
    ∑ i ∈ range m, (f i + f (2 * m - 1 - i)) = ∑ i ∈ range (2 * m), f i := by
  rw [sum_add_distrib, Nat.two_mul, sum_range_add, ← sum_range_reflect fun i => f (m + i)]
  congr 1
  refine sum_congr rfl fun i hi => ?_
  have := mem_range.1 hi
  congr 1
  omega

theorem sum_map_range (f : Nat → Nat) (n : Nat) :
    ((List.range n).map f).sum = ∑ i ∈ range n, f i := by
  induction n with
  | zero => rfl
  | succ n ih => rw [List.range_succ, List.map_append, List.sum_append, ih, sum_range_succ]; simp

theorem sum_map_flatMap {α β : Type} (f : β → Nat) (g : α → List β) (xs : List α) :
    ((xs.flatMap g).map f).sum = (xs.map fun a => ((g a).map f).sum).sum := by
  induction xs with
  | nil => rfl
  | cons a xs ih =>
    rw [List.flatMap_cons, List.map_append, List.sum_append, ih, List.map_cons, List.sum_cons]

theorem countP_eq_sum {α : Type} (p : α → Bool) (xs : List α) :
    xs.countP p = (xs.map fun a => if p a then 1 else 0).sum := by
  induction xs with
  | nil => rfl
  | cons a xs ih => rw [List.countP_cons, ih, List.map_cons, List.sum_cons, Nat.add_comm]

/-- What is at most so much where it counts, and nothing elsewhere. -/
theorem sum_le_countP_mul {α : Type} {p : α → Bool} {f : α → Nat} {k : Nat} {xs : List α}
    (h : ∀ a ∈ xs, f a ≤ if p a then k else 0) : (xs.map f).sum ≤ xs.countP p * k := by
  refine (List.sum_le_sum h).trans (le_of_eq ?_)
  rw [countP_eq_sum, ← List.sum_map_mul_right]
  simp only [ite_mul, one_mul, zero_mul]

/-- Counted once for each way to count them, there are no fewer. -/
theorem countP_le_sum {α β : Type} {p : α → Bool} (q : β → α → Bool) {xs : List α} {bs : List β}
    (h : ∀ a ∈ xs, p a → ∃ b ∈ bs, q b a) :
    xs.countP p ≤ (bs.map fun b => xs.countP fun a => p a && q b a).sum := by
  induction xs with
  | nil => exact Nat.zero_le _
  | cons a xs ih =>
    have hrest := ih fun a' ha' => h a' (List.mem_cons_of_mem _ ha')
    simp only [List.countP_cons]
    rw [List.sum_map_add]
    refine Nat.add_le_add hrest ?_
    split_ifs with hp
    · obtain ⟨b, hb, hq⟩ := h a List.mem_cons_self hp
      refine List.single_le_sum (fun _ _ => Nat.zero_le _) _ (List.mem_map.2 ⟨b, hb, ?_⟩)
      simp [hp, hq]
    · exact Nat.zero_le _

theorem sum_range_ite (p : Nat → Bool) (n : Nat) :
    ∑ i ∈ range n, (if p i then 1 else 0) = (List.range n).countP p := by
  induction n with
  | zero => rfl
  | succ n ih => rw [sum_range_succ, ih, List.range_succ, List.countP_append]; simp

theorem pairwise_zipIdx {α : Type} (xs : List α) : xs.zipIdx.Pairwise fun x y => x.2 < y.2 := by
  have hplaces : (xs.zipIdx.map Prod.snd).Pairwise (· < ·) := by
    rw [List.zipIdx_map_snd]
    exact List.pairwise_lt_range'
  exact List.pairwise_map.1 hplaces

end Tourney
