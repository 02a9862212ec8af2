import Mathlib
import Tourney.Number.Double

/-!
# The numbers that doubles stand for

A finite double is a significand and a power of two (`parts_canonical`, `sizeBits_eq`), and so a
rational number, `Double.value`. The bits tell a rate from other doubles just as the number does
(`isRate_iff`).
-/

namespace Tourney.Double

/-- A significand and an exponent as a double has them: only at the least exponent may the
significand be short. -/
structure Canonical (m : ℕ) (e : ℤ) : Prop where
  short : m < 2 ^ 53
  least : minExponent ≤ e
  normal : minExponent < e → 2 ^ 52 ≤ m

/-- The number a finite double stands for. -/
def value (x : Double) : ℚ :=
  (if x.isNegative then -1 else 1) * ((x.parts.1 : ℚ) * 2 ^ x.parts.2)

section Parts

variable (x : Double)

theorem parts_canonical : Canonical x.parts.1 x.parts.2 := by
  have hlt := Nat.mod_lt x.sizeBits (show 2 ^ 52 > 0 by decide)
  unfold parts
  dsimp only
  split_ifs with h <;> constructor <;> simp only [minExponent] <;> omega

theorem sizeBits_eq : (x.sizeBits : ℤ) = x.parts.1 + (x.parts.2 - minExponent) * 2 ^ 52 := by
  unfold parts
  dsimp only
  split_ifs with h <;> simp only [minExponent] <;> omega

end Parts

variable {m : ℕ} {e : ℤ}

/-- Below one the exponent is so low that no significand makes up for it. -/
theorem Canonical.lt_one_iff (h : Canonical m e) : (m : ℚ) * 2 ^ e < 1 ↔ e < -52 := by
  constructor
  · intro hlt
    by_contra hge
    have hm : (2 : ℚ) ^ (52 : ℤ) ≤ m := by exact_mod_cast h.normal (by simp only [minExponent]; omega)
    have hone : (1 : ℚ) ≤ m * 2 ^ e := calc
      (1 : ℚ) ≤ 2 ^ (52 + e) := one_le_zpow₀ (by norm_num) (by omega)
      _ = 2 ^ (52 : ℤ) * 2 ^ e := zpow_add₀ (by norm_num) ..
      _ ≤ m * 2 ^ e := mul_le_mul_of_nonneg_right hm (by positivity)
    exact absurd hlt (not_lt.2 hone)
  · intro hlt
    have hm : (m : ℚ) < 2 ^ (53 : ℤ) := by exact_mod_cast h.short
    calc (m : ℚ) * 2 ^ e < 2 ^ (53 : ℤ) * 2 ^ e := mul_lt_mul_of_pos_right hm (by positivity)
      _ = 2 ^ (53 + e) := (zpow_add₀ (by norm_num) ..).symm
      _ ≤ 1 := zpow_le_one_of_nonpos₀ (by norm_num) (by omega)

/-- A rate is a number from zero to below one. -/
theorem isRate_iff {x : Double} : x.isRate ↔ x.isFinite ∧ 0 ≤ x.value ∧ x.value < 1 := by
  have hc := x.parts_canonical
  have hbits := x.sizeBits_eq
  have hone : x.sizeBits < oneBits ↔ (x.parts.1 : ℚ) * 2 ^ x.parts.2 < 1 := by
    rw [hc.lt_one_iff]
    have hshort := hc.short
    have hnormal := hc.normal
    simp only [minExponent, oneBits] at *
    omega
  have hzero : x.sizeBits = 0 ↔ x.parts.1 = 0 := by
    have hleast := hc.least
    have hnormal := hc.normal
    simp only [minExponent] at *
    omega
  have hfinite : x.sizeBits < oneBits → x.isFinite := fun h => by
    rw [oneBits] at h
    rw [isFinite, infinityBits, decide_eq_true_eq]
    omega
  have hsize : 0 ≤ (x.parts.1 : ℚ) * 2 ^ x.parts.2 := by positivity
  by_cases hneg : x.isNegative
  · have hvalue : x.value = -((x.parts.1 : ℚ) * 2 ^ x.parts.2) := by simp [value, hneg]
    have hvanish : 0 ≤ x.value ↔ x.sizeBits = 0 := by
      rw [hzero, hvalue, Left.nonneg_neg_iff]
      refine ⟨fun hle => ?_, fun hm => by simp [hm]⟩
      have hm := (mul_eq_zero.1 (hle.antisymm hsize)).resolve_right (by positivity)
      exact_mod_cast hm
    have hlt : x.value < 1 := by linarith
    simp only [isRate, hneg, Bool.not_true, Bool.false_or, Bool.and_eq_true, decide_eq_true_eq,
      beq_iff_eq, hvanish]
    exact ⟨fun h => ⟨hfinite h.1, h.2, hlt⟩, fun h => ⟨by rw [h.2.1]; decide, h.2.1⟩⟩
  · have hvalue : x.value = (x.parts.1 : ℚ) * 2 ^ x.parts.2 := by simp [value, hneg]
    rw [Bool.not_eq_true] at hneg
    simp only [isRate, hneg, Bool.not_false, Bool.true_or, Bool.and_true, decide_eq_true_eq]
    rw [hvalue, ← hone]
    exact ⟨fun h => ⟨hfinite h, hsize, h⟩, fun h => h.2.2⟩

end Tourney.Double
