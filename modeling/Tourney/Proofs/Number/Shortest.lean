import Tourney.Number.Shortest
import Tourney.Proofs.Number.Nearest

/-!
# The shortest digits

The bounds of the search are those of rounding (`holds_iff`), so a number found on a grid rounds to
the double. The first grid is coarser than the double and the twentieth finer than its steps, so one
of them has such a number (`digits_spec`).
-/

namespace Tourney.Shortest

open Double

/-! ## Bounds -/

section Bounds

variable {m : ℕ} {e : ℤ} {num den : ℕ} (hd : 0 < den)

include hd

/-- A quotient against a number of quarter steps, both over one denominator. -/
theorem exists_denominator (num : ℕ) (e : ℤ) (a : ℕ) : ∃ c : ℚ, 0 < c ∧
    (a : ℚ) / 4 * 2 ^ e = (a * 2 ^ e.toNat * den : ℕ) / c ∧
    (num / den : ℚ) = (num * (4 * 2 ^ (-e).toNat) : ℕ) / c := by
  have hden : (0 : ℚ) < den := by exact_mod_cast hd
  have hpow : (0 : ℚ) < 2 ^ (-e).toNat := by positivity
  refine ⟨4 * 2 ^ (-e).toNat * den, by positivity, ?_, ?_⟩
  · rw [← pow_div_pow]
    push_cast
    field_simp
  · push_cast
    field_simp

theorem quarters_le (a : ℕ) : a * 2 ^ e.toNat * den ≤ num * (4 * 2 ^ (-e).toNat) ↔
    (a : ℚ) / 4 * 2 ^ e ≤ num / den := by
  obtain ⟨c, hc, ha, hq⟩ := exists_denominator hd num e a
  rw [ha, hq, div_le_div_iff_of_pos_right hc, Nat.cast_le]

theorem quarters_lt (a : ℕ) : a * 2 ^ e.toNat * den < num * (4 * 2 ^ (-e).toNat) ↔
    (a : ℚ) / 4 * 2 ^ e < num / den := by
  obtain ⟨c, hc, ha, hq⟩ := exists_denominator hd num e a
  rw [ha, hq, div_lt_div_iff_of_pos_right hc, Nat.cast_lt]

theorem le_quarters (a : ℕ) : num * (4 * 2 ^ (-e).toNat) ≤ a * 2 ^ e.toNat * den ↔
    (num / den : ℚ) ≤ (a : ℚ) / 4 * 2 ^ e := by
  rw [← not_lt, quarters_lt hd, not_lt]

theorem lt_quarters (a : ℕ) : num * (4 * 2 ^ (-e).toNat) < a * 2 ^ e.toNat * den ↔
    (num / den : ℚ) < (a : ℚ) / 4 * 2 ^ e := by
  rw [← not_le, quarters_le hd, not_le]

/-- The bounds hold of the numbers that round to the double. -/
theorem holds_iff (hm : 0 < m) : (bounds m e).holds num den ↔ Near m e (num / den) := by
  have hlow : ((4 * m - if m = 2 ^ 52 ∧ minExponent < e then 1 else 2 : ℕ) : ℚ) / 4 =
      m - if m = 2 ^ 52 ∧ minExponent < e then 1 / 4 else 1 / 2 := by
    split_ifs
    · push_cast [show 1 ≤ 4 * m by omega]
      ring
    · push_cast [show 2 ≤ 4 * m by omega]
      ring
  have hhigh : ((4 * m + 2 : ℕ) : ℚ) / 4 = m + 1 / 2 := by
    push_cast
    ring
  by_cases heven : m % 2 = 0
  · have hclosed : (bounds m e).closed = true := by simp [bounds, heven]
    rw [Bounds.holds, if_pos hclosed, Bool.and_eq_true, decide_eq_true_eq, decide_eq_true_eq]
    change (_ * 2 ^ e.toNat * den ≤ num * (4 * 2 ^ (-e).toNat) ∧
      num * (4 * 2 ^ (-e).toNat) ≤ (4 * m + 2) * 2 ^ e.toNat * den) ↔ _
    rw [quarters_le hd, le_quarters hd, hlow, hhigh]
    exact ⟨fun h => ⟨h.1, h.2, fun hodd => by omega⟩, fun h => ⟨h.low, h.high⟩⟩
  · have hopen : ¬(bounds m e).closed = true := by simp [bounds, heven]
    have hwide : ¬(m = 2 ^ 52 ∧ minExponent < e) := fun h => heven (by rw [h.1])
    rw [Bounds.holds, if_neg hopen, Bool.and_eq_true, decide_eq_true_eq, decide_eq_true_eq]
    change (_ * 2 ^ e.toNat * den < num * (4 * 2 ^ (-e).toNat) ∧
      num * (4 * 2 ^ (-e).toNat) < (4 * m + 2) * 2 ^ e.toNat * den) ↔ _
    rw [quarters_lt hd, lt_quarters hd, hlow, hhigh, if_neg hwide]
    exact ⟨fun h => ⟨by rw [if_neg hwide]; exact h.1.le, h.2.le, fun _ => h⟩,
      fun h => h.odd (by omega)⟩

end Bounds

/-! ## Grids -/

section Grids

variable {m : ℕ} {e : ℤ} (hm : 0 < m)

/-- A number on the grid of multiples of `10 ^ k` as a quotient of whole numbers. -/
theorem grid_eq (n : ℕ) (k : ℤ) :
    ((n * 10 ^ k.toNat : ℕ) : ℚ) / (10 ^ (-k).toNat : ℕ) = n * 10 ^ k := by
  push_cast
  rw [mul_div_assoc, pow_div_pow]

theorem value_eq (m : ℕ) (e : ℤ) : ((bounds m e).value : ℚ) / (bounds m e).den = m * 2 ^ e := by
  rw [← pow_div_pow]
  simp only [bounds]
  push_cast
  field_simp

include hm

theorem near_of_onGrid? {k : ℤ} {n : ℕ} (h : onGrid? (bounds m e) k = some n) :
    Near m e (n * 10 ^ k) := by
  have hholds : ∀ n, (bounds m e).holds (n * 10 ^ k.toNat) (10 ^ (-k).toNat) →
      Near m e (n * 10 ^ k) := fun n hn => by
    rw [← grid_eq]
    exact (holds_iff (by positivity) hm).1 hn
  unfold onGrid? at h
  dsimp only at h
  split_ifs at h with hboth habove hbelow hnext <;> cases h
  · exact hholds _ (Bool.and_eq_true_iff.1 hboth).2
  · exact hholds _ (Bool.and_eq_true_iff.1 hboth).1
  · exact hholds _ hbelow
  · exact hholds _ hnext

/-- A grid no coarser than a quarter of a step has a number close enough below. -/
theorem exists_onGrid? {k : ℤ} (hk : (10 : ℚ) ^ k ≤ 2 ^ e / 4) :
    ∃ n, onGrid? (bounds m e) k = some n := by
  have hpow : (0 : ℚ) < 2 ^ e := by positivity
  have hten : (0 : ℚ) < 10 ^ k := by positivity
  have hden : 0 < (bounds m e).den := by
    simp only [bounds]
    positivity
  have hquot : ((bounds m e).value * 10 ^ (-k).toNat : ℕ) /
      ((bounds m e).den * 10 ^ k.toNat : ℕ) = (m * 2 ^ e : ℚ) / 10 ^ k := by
    have hden' : ((bounds m e).den : ℚ) ≠ 0 := by exact_mod_cast hden.ne'
    rw [← value_eq, ← pow_div_pow (10 : ℚ)]
    push_cast
    field_simp
  obtain ⟨n, hn⟩ : ∃ n, (bounds m e).value * 10 ^ (-k).toNat / ((bounds m e).den * 10 ^ k.toNat) =
    n := ⟨_, rfl⟩
  have hle : (n : ℚ) * 10 ^ k ≤ m * 2 ^ e := by
    rw [← le_div_iff₀ hten, ← hquot, ← hn]
    exact Nat.cast_div_le
  have hlt : (m * 2 ^ e : ℚ) < (n + 1) * 10 ^ k := by
    rw [← div_lt_iff₀ hten, ← hquot, ← hn, div_lt_iff₀ (by positivity)]
    exact_mod_cast (Nat.lt_mul_div_succ _ (by positivity)).trans_eq (mul_comm ..)
  have hclose : ((m : ℚ) - 1 / 4) * 2 ^ e ≤ n * 10 ^ k := by linarith
  have hnear : Near m e (n * 10 ^ k) := by
    refine ⟨(mul_le_mul_of_nonneg_right ?_ hpow.le).trans hclose, by linarith,
      fun _ => ⟨by linarith, by linarith⟩⟩
    split_ifs <;> linarith
  have hholds := (holds_iff (by positivity) hm).2 (by rwa [grid_eq] : Near m e
    (((n * 10 ^ k.toNat : ℕ) : ℚ) / (10 ^ (-k).toNat : ℕ)))
  unfold onGrid?
  dsimp only
  simp only [hn, hholds, Bool.true_and, if_true]
  split_ifs <;> exact ⟨_, rfl⟩

end Grids

theorem search_spec {b : Bounds} {fuel : ℕ} {k : ℤ}
    (h : ∃ j < fuel, ∃ n, onGrid? b (k - j) = some n) :
    onGrid? b (search b fuel k).2 = some (search b fuel k).1 := by
  induction fuel generalizing k with
  | zero =>
    obtain ⟨j, hj, -⟩ := h
    omega
  | succ fuel ih =>
    rw [search]
    split
    · assumption
    · rename_i hnone
      refine ih ?_
      obtain ⟨j, hj, n, hn⟩ := h
      cases j with
      | zero =>
        rw [Nat.cast_zero, sub_zero, hnone] at hn
        cases hn
      | succ j =>
        refine ⟨j, by omega, n, ?_⟩
        rw [← hn]
        congr 1
        push_cast
        ring

/-! ## Digits -/

/-- A number has as many digits as its size asks for. -/
theorem toDigits_bounds {n : ℕ} (hn : 0 < n) :
    (10 : ℚ) ^ (((Nat.toDigits 10 n).length : ℤ) - 1) ≤ n ∧
      (n : ℚ) < 10 ^ ((Nat.toDigits 10 n).length : ℤ) := by
  obtain ⟨l, hl⟩ : ∃ l, (Nat.toDigits 10 n).length = l := ⟨_, rfl⟩
  have hpos : 0 < l := hl ▸ List.length_pos_iff.2 Nat.toDigits_ne_nil
  rw [hl]
  constructor
  · rw [show (l : ℤ) - 1 = (l - 1 : ℕ) by omega, zpow_natCast]
    rcases Nat.eq_zero_or_pos (l - 1) with h0 | h0
    · rw [h0, pow_zero]
      exact_mod_cast hn
    · have hlt : ¬n < 10 ^ (l - 1) := fun h => by
        have := (Nat.length_toDigits_le_iff (by decide) h0).2 h
        omega
      exact_mod_cast not_lt.1 hlt
  · exact_mod_cast (Nat.length_toDigits_le_iff (by decide) hpos).1 hl.le

/-- The search starts less than two places above the value. -/
theorem firstPlace_le {m : ℕ} {e : ℤ} (hm : 0 < m) :
    (10 : ℚ) ^ (firstPlace (bounds m e) - 2) ≤ m * 2 ^ e := by
  have hvalue : 0 < (bounds m e).value := by
    simp only [bounds]
    positivity
  have hden : 0 < (bounds m e).den := by
    simp only [bounds]
    positivity
  have hden' : (0 : ℚ) < (bounds m e).den := by exact_mod_cast hden
  rw [← value_eq, le_div_iff₀ hden']
  refine le_trans (mul_le_mul_of_nonneg_left (toDigits_bounds hden).2.le (by positivity)) ?_
  rw [← zpow_add₀ (by norm_num)]
  refine (le_of_eq ?_).trans (toDigits_bounds hvalue).1
  congr 1
  simp only [firstPlace]
  ring

/-- The shortest digits of a double are those of a number that rounds to it. -/
theorem digits_spec {x : Double} (hx : 0 < x.parts.1) : ∃ (n : ℕ) (k : ℤ),
    0 < n ∧ Near x.parts.1 x.parts.2 (n * 10 ^ k) ∧
      digits x = ⟨strip (Nat.toDigits 10 n), (Nat.toDigits 10 n).length + k⟩ := by
  obtain ⟨m, hm⟩ : ∃ m, x.parts.1 = m := ⟨_, rfl⟩
  obtain ⟨e, he⟩ : ∃ e, x.parts.2 = e := ⟨_, rfl⟩
  have hshort := x.parts_canonical.short
  rw [hm] at hx hshort ⊢
  rw [he]
  have hfine : (10 : ℚ) ^ (firstPlace (bounds m e) - (19 : ℕ)) ≤ 2 ^ e / 4 := by
    have hpow : (0 : ℚ) < 2 ^ e := by positivity
    have hlt : (m : ℚ) < 2 ^ 53 := by exact_mod_cast hshort
    have hsplit : (10 : ℚ) ^ (firstPlace (bounds m e) - (19 : ℕ)) =
        10 ^ (firstPlace (bounds m e) - 2) / 10 ^ 17 := by
      rw [eq_div_iff (by norm_num), ← zpow_natCast, ← zpow_add₀ (by norm_num)]
      congr 1
      push_cast
      ring
    rw [hsplit, div_le_iff₀ (by norm_num)]
    refine (firstPlace_le hx).trans ?_
    nlinarith
  obtain ⟨n, hn⟩ := exists_onGrid? hx hfine
  obtain ⟨r, hr⟩ : ∃ r, search (bounds m e) 20 (firstPlace (bounds m e)) = r := ⟨_, rfl⟩
  have hgrid : onGrid? (bounds m e) r.2 = some r.1 :=
    hr ▸ search_spec ⟨19, by decide, n, hn⟩
  have hnear := near_of_onGrid? hx hgrid
  refine ⟨r.1, r.2, ?_, hnear, ?_⟩
  · refine Nat.pos_of_ne_zero fun h0 => ?_
    have hpos := hnear.pos hx
    simp [h0] at hpos
  · have hparts : x.parts = (m, e) := Prod.ext hm he
    simp only [digits, hparts, hr]

end Tourney.Shortest
