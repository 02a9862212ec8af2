import Tourney.Proofs.Number.Value

/-!
# Rounding

The double nearest to a quotient is the one whose half steps up and down the quotient lies between
(`nearestBits_eq`): its magnitude gives the exponent (`magnitude_eq`), or the one below where the
significand is the least of its binade, and rounding gives the significand (`roundDiv_eq`).
-/

namespace Tourney.Double

/-! ## Quotients -/

/-- A power with its exponent split into what is above and what is below the line. -/
theorem pow_div_pow (b : ℚ) (e : ℤ) : b ^ e.toNat / b ^ (-e).toNat = b ^ e := by
  rcases le_total 0 e with he | he
  · rw [Int.toNat_of_nonpos (neg_nonpos.2 he), pow_zero, div_one, ← zpow_natCast,
      Int.toNat_of_nonneg he]
  · rw [Int.toNat_of_nonpos he, pow_zero, one_div, ← zpow_natCast,
      Int.toNat_of_nonneg (neg_nonneg.2 he), zpow_neg, inv_inv]

section Magnitude

variable {num den : ℕ} (hn : 0 < num) (hd : 0 < den)

include hn hd

/-- The lengths of two numbers in binary tell the magnitude of their quotient but for one. -/
theorem quotient_bounds : (2 : ℚ) ^ ((num.log2 : ℤ) - den.log2 - 1) ≤ num / den ∧
    (num / den : ℚ) < 2 ^ ((num.log2 : ℤ) - den.log2 + 1) := by
  have hden : (0 : ℚ) < den := by exact_mod_cast hd
  have h1 : (2 : ℚ) ^ (num.log2 : ℤ) ≤ num := by
    exact_mod_cast Nat.log2_self_le hn.ne'
  have h2 : (num : ℚ) < 2 ^ ((num.log2 : ℤ) + 1) := by
    exact_mod_cast @Nat.lt_log2_self num
  have h3 : (2 : ℚ) ^ (den.log2 : ℤ) ≤ den := by
    exact_mod_cast Nat.log2_self_le hd.ne'
  have h4 : (den : ℚ) < 2 ^ ((den.log2 : ℤ) + 1) := by
    exact_mod_cast @Nat.lt_log2_self den
  have hpos : ∀ k : ℤ, (0 : ℚ) < 2 ^ k := fun k => by positivity
  constructor
  · rw [le_div_iff₀ hden]
    calc (2 : ℚ) ^ ((num.log2 : ℤ) - den.log2 - 1) * den
        ≤ 2 ^ ((num.log2 : ℤ) - den.log2 - 1) * 2 ^ ((den.log2 : ℤ) + 1) :=
          mul_le_mul_of_nonneg_left h4.le (hpos _).le
      _ = 2 ^ (num.log2 : ℤ) := by rw [← zpow_add₀ (by norm_num)]; congr 1; ring
      _ ≤ num := h1
  · rw [div_lt_iff₀ hden]
    calc (num : ℚ) < 2 ^ ((num.log2 : ℤ) + 1) := h2
      _ = 2 ^ ((num.log2 : ℤ) - den.log2 + 1) * 2 ^ (den.log2 : ℤ) := by
          rw [← zpow_add₀ (by norm_num)]; congr 1; ring
      _ ≤ 2 ^ ((num.log2 : ℤ) - den.log2 + 1) * den := mul_le_mul_of_nonneg_left h3 (hpos _).le

/-- A number lies in the binade of its magnitude. -/
theorem magnitude_spec :
    (2 : ℚ) ^ magnitude num den ≤ num / den ∧ (num / den : ℚ) < 2 ^ (magnitude num den + 1) := by
  have hden : (0 : ℚ) < den := by exact_mod_cast hd
  have hfits : ∀ t : ℤ, (if 0 ≤ t then den * 2 ^ t.toNat ≤ num else den ≤ num * 2 ^ (-t).toNat) ↔
      (2 : ℚ) ^ t ≤ num / den := fun t => by
    have hpow : (0 : ℚ) < 2 ^ (-t).toNat := by positivity
    rw [← pow_div_pow, div_le_div_iff₀ hpow hden]
    split_ifs with ht
    · rw [Int.toNat_of_nonpos (neg_nonpos.2 ht), pow_zero, mul_one, mul_comm]
      exact_mod_cast Iff.rfl
    · rw [Int.toNat_of_nonpos (not_le.1 ht).le, pow_zero, one_mul]
      exact_mod_cast Iff.rfl
  obtain ⟨hlow, hhigh⟩ := quotient_bounds hn hd
  unfold magnitude
  dsimp only
  simp only [hfits]
  split_ifs with h
  · exact ⟨h, hhigh⟩
  · exact ⟨hlow, by rw [sub_add_cancel]; exact not_le.1 h⟩

theorem magnitude_eq {t : ℤ} (hlow : (2 : ℚ) ^ t ≤ num / den)
    (hhigh : (num / den : ℚ) < 2 ^ (t + 1)) : magnitude num den = t := by
  obtain ⟨h, h'⟩ := magnitude_spec hn hd
  have h1 := (zpow_lt_zpow_iff_right₀ (show (1 : ℚ) < 2 by norm_num)).1 (hlow.trans_lt h')
  have h2 := (zpow_lt_zpow_iff_right₀ (show (1 : ℚ) < 2 by norm_num)).1 (h.trans_lt hhigh)
  omega

end Magnitude

/-- Rounding in whole numbers: twice the quotient lies between the odd numbers beside `2 * r`, and
for an odd `r` it is neither. -/
theorem roundDiv_eq_of_le {num den r : ℕ} (hd : 0 < den) (hlow : (2 * r - 1 : ℤ) * den ≤ 2 * num)
    (hhigh : (2 * num : ℤ) ≤ (2 * r + 1) * den)
    (hties : r % 2 = 1 → (2 * r - 1 : ℤ) * den ≠ 2 * num ∧ (2 * num : ℤ) ≠ (2 * r + 1) * den) :
    roundDiv num den = r := by
  -- the quotient rounded down, and the remainder
  obtain ⟨q, hq⟩ : ∃ q, num / den = q := ⟨_, rfl⟩
  obtain ⟨s, hs⟩ : ∃ s, num % den = s := ⟨_, rfl⟩
  have hlt : s < den := hs ▸ Nat.mod_lt num hd
  have hnum : (num : ℤ) = q * den + s := by
    have h := Nat.div_add_mod num den
    rw [hq, hs, mul_comm] at h
    exact_mod_cast h.symm
  rw [hnum] at hlow hhigh hties
  have hle : q ≤ r := by
    by_contra hc
    have : ((r : ℤ) + 1) * den ≤ q * den :=
      mul_le_mul_of_nonneg_right (by omega) (by omega)
    linarith
  have hge : r ≤ q + 1 := by
    by_contra hc
    have : ((q : ℤ) + 2) * den ≤ r * den :=
      mul_le_mul_of_nonneg_right (by omega) (by omega)
    linarith
  unfold roundDiv
  rw [hq, hs]
  rcases Nat.eq_or_lt_of_le hle with rfl | hlt
  · have hdown : 2 * s ≤ den := by linarith
    have htie : q % 2 = 1 → 2 * s ≠ den := fun hodd h => (hties hodd).2 (by
      have : (den : ℤ) = 2 * s := by exact_mod_cast h.symm
      linarith)
    dsimp only
    split_ifs <;> omega
  · obtain rfl : r = q + 1 := by omega
    push_cast at hlow hties
    have hup : den ≤ 2 * s := by linarith
    have htie : (q + 1) % 2 = 1 → 2 * s ≠ den := fun hodd h => (hties hodd).1 (by
      have : (den : ℤ) = 2 * s := by exact_mod_cast h.symm
      linarith)
    dsimp only
    split_ifs <;> omega

/-- Rounding finds the whole number that is no further away than a half, if it is even, and the
one that is nearer than a half in any case. -/
theorem roundDiv_eq {num den r : ℕ} (hd : 0 < den) (hlow : (r - 1 / 2 : ℚ) ≤ num / den)
    (hhigh : (num / den : ℚ) ≤ r + 1 / 2)
    (hodd : r % 2 = 1 → (r - 1 / 2 : ℚ) < num / den ∧ (num / den : ℚ) < r + 1 / 2) :
    roundDiv num den = r := by
  have hden : (0 : ℚ) < den := by exact_mod_cast hd
  refine roundDiv_eq_of_le hd ?_ ?_ fun hr => ?_
  · rw [le_div_iff₀ hden] at hlow
    have : (2 * r - 1 : ℚ) * den ≤ 2 * num := by linarith
    exact_mod_cast this
  · rw [div_le_iff₀ hden] at hhigh
    have : (2 * num : ℚ) ≤ (2 * r + 1) * den := by linarith
    exact_mod_cast this
  · obtain ⟨h1, h2⟩ := hodd hr
    rw [lt_div_iff₀ hden] at h1
    rw [div_lt_iff₀ hden] at h2
    refine ⟨fun h => ?_, fun h => ?_⟩
    · have : (2 * r - 1 : ℚ) * den = 2 * num := by exact_mod_cast h
      linarith
    · have : (2 * num : ℚ) = (2 * r + 1) * den := by exact_mod_cast h
      linarith

/-! ## The nearest double -/

/-- The numbers that round to a significand and an exponent: half a step up, and half a step down
or a quarter where the steps below are half as wide. The ends are among them for an even
significand only. -/
structure Near (m : ℕ) (e : ℤ) (q : ℚ) : Prop where
  low : ((m : ℚ) - if m = 2 ^ 52 ∧ minExponent < e then 1 / 4 else 1 / 2) * 2 ^ e ≤ q
  high : q ≤ ((m : ℚ) + 1 / 2) * 2 ^ e
  odd : m % 2 = 1 → ((m : ℚ) - 1 / 2) * 2 ^ e < q ∧ q < ((m : ℚ) + 1 / 2) * 2 ^ e

section Near

variable {m num den : ℕ} {e : ℤ} {q : ℚ}

theorem Near.half (h : Near m e q) : ((m : ℚ) - 1 / 2) * 2 ^ e ≤ q := by
  refine (mul_le_mul_of_nonneg_right ?_ (by positivity)).trans h.low
  split_ifs <;> linarith

theorem Near.pos (h : Near m e q) (hm : 0 < m) : 0 < q := by
  have hone : (1 : ℚ) ≤ m := by exact_mod_cast hm
  have hpos : (0 : ℚ) < (m - 1 / 2) * 2 ^ e := mul_pos (by linarith) (by positivity)
  exact hpos.trans_le h.half

/-- Rounding at an exponent. -/
theorem roundAt_eq {r : ℕ} (hd : 0 < den) (hlow : ((r : ℚ) - 1 / 2) * 2 ^ e ≤ num / den)
    (hhigh : (num / den : ℚ) ≤ ((r : ℚ) + 1 / 2) * 2 ^ e)
    (hodd : r % 2 = 1 → ((r : ℚ) - 1 / 2) * 2 ^ e < num / den ∧
      (num / den : ℚ) < ((r : ℚ) + 1 / 2) * 2 ^ e) :
    (if 0 ≤ e then roundDiv num (den * 2 ^ e.toNat) else roundDiv (num * 2 ^ (-e).toNat) den) =
      r := by
  have hpow : (0 : ℚ) < 2 ^ e := by positivity
  rw [← le_div_iff₀ hpow] at hlow
  rw [← div_le_iff₀ hpow] at hhigh
  rw [← lt_div_iff₀ hpow, ← div_lt_iff₀ hpow] at hodd
  split_ifs with he
  · have htwo : (2 : ℚ) ^ e.toNat = 2 ^ e := by rw [← zpow_natCast, Int.toNat_of_nonneg he]
    have hq : (num / den : ℚ) / 2 ^ e = num / (den * 2 ^ e.toNat : ℕ) := by
      push_cast
      rw [htwo, div_div]
    rw [hq] at hlow hhigh hodd
    exact roundDiv_eq (by positivity) hlow hhigh hodd
  · have htwo : (2 : ℚ) ^ (-e).toNat = (2 ^ e)⁻¹ := by
      rw [← zpow_natCast, Int.toNat_of_nonneg (by omega), zpow_neg]
    have hq : (num / den : ℚ) / 2 ^ e = (num * 2 ^ (-e).toNat : ℕ) / den := by
      push_cast
      rw [htwo, mul_div_right_comm, div_eq_mul_inv (num / den : ℚ)]
    rw [hq] at hlow hhigh hodd
    exact roundDiv_eq hd hlow hhigh hodd

/-- The bits put together from an exponent and what the number is rounded to there. -/
theorem nearestBits_of_round {r : ℕ} (hn : 0 < num)
    (he : max (magnitude num den - 52) minExponent = e)
    (hr : (if 0 ≤ e then roundDiv num (den * 2 ^ e.toNat)
      else roundDiv (num * 2 ^ (-e).toNat) den) = r)
    (hle : (r : ℤ) + (e - minExponent) * 2 ^ 52 ≤ infinityBits) :
    (nearestBits num den : ℤ) = r + (e - minExponent) * 2 ^ 52 := by
  have hleast : minExponent ≤ e := he ▸ le_max_right ..
  unfold nearestBits
  rw [if_neg hn.ne']
  dsimp only
  rw [he, hr, Nat.min_eq_left (by omega)]
  push_cast
  rw [Int.toNat_of_nonneg (by omega)]

theorem magnitude_scaled {t : ℤ} (hn : 0 < num) (hd : 0 < den)
    (hlow : (2 : ℚ) ^ t * 2 ^ e ≤ num / den) (hhigh : (num / den : ℚ) < 2 ^ (t + 1) * 2 ^ e) :
    magnitude num den = t + e := by
  rw [← zpow_add₀ (by norm_num)] at hlow hhigh
  exact magnitude_eq hn hd hlow (by rwa [add_right_comm])

/-- Below a power of two the steps are half as wide, and a number close to it is rounded up. -/
theorem nearestBits_narrow (hn : 0 < num) (hd : 0 < den) (hleast : minExponent < e)
    (hfinite : (2 ^ 52 : ℤ) + (e - minExponent) * 2 ^ 52 ≤ infinityBits)
    (hlow : ((2 : ℚ) ^ 52 - 1 / 4) * 2 ^ e ≤ num / den)
    (hbelow : (num / den : ℚ) < 2 ^ 52 * 2 ^ e) :
    (nearestBits num den : ℤ) = 2 ^ 52 + (e - minExponent) * 2 ^ 52 := by
  have hpow : (0 : ℚ) < 2 ^ e := by positivity
  have hbinade : magnitude num den = 51 + e := by
    refine magnitude_scaled hn hd (le_trans ?_ hlow) (by norm_num at hbelow ⊢; exact hbelow)
    exact mul_le_mul_of_nonneg_right (by norm_num) hpow.le
  have hstep : (2 : ℚ) ^ (e - 1) = 2 ^ e / 2 := by rw [zpow_sub_one₀ (by norm_num)]; ring
  have hround : (if 0 ≤ e - 1 then roundDiv num (den * 2 ^ (e - 1).toNat)
      else roundDiv (num * 2 ^ (-(e - 1)).toNat) den) = 2 ^ 53 := by
    refine roundAt_eq hd ?_ ?_ (by norm_num)
    · rw [hstep]
      push_cast
      linarith
    · rw [hstep]
      push_cast
      linarith
  rw [nearestBits_of_round hn (by omega) hround (by push_cast; omega)]
  push_cast
  ring

/-- A number in the reach of a finite double is rounded to it. -/
theorem nearestBits_eq (hc : Canonical m e) (hm : 0 < m)
    (hfinite : (m : ℤ) + (e - minExponent) * 2 ^ 52 ≤ infinityBits) (hd : 0 < den)
    (h : Near m e (num / den)) :
    (nearestBits num den : ℤ) = m + (e - minExponent) * 2 ^ 52 := by
  have hq := h.pos hm
  have hn : 0 < num := by
    rcases Nat.eq_zero_or_pos num with rfl | hn
    · simp at hq
    · exact hn
  have hpow : (0 : ℚ) < 2 ^ e := by positivity
  by_cases hnarrow : (m = 2 ^ 52 ∧ minExponent < e) ∧ (num / den : ℚ) < 2 ^ 52 * 2 ^ e
  · obtain ⟨⟨rfl, hleast⟩, hbelow⟩ := hnarrow
    have hlow := h.low
    rw [if_pos ⟨rfl, hleast⟩] at hlow
    push_cast at hlow hfinite ⊢
    exact nearestBits_narrow hn hd hleast hfinite hlow hbelow
  · refine nearestBits_of_round hn ?_ (roundAt_eq hd h.half h.high h.odd) hfinite
    have habove : (num / den : ℚ) < 2 ^ (53 : ℤ) * 2 ^ e := by
      refine h.high.trans_lt (mul_lt_mul_of_pos_right ?_ hpow)
      have hshort : (m : ℚ) + 1 ≤ 2 ^ 53 := by exact_mod_cast hc.short
      norm_num at hshort ⊢
      linarith
    rcases hc.least.eq_or_lt with rfl | hleast
    · have hle : magnitude num den < 53 + minExponent := by
        have hlt := (magnitude_spec hn hd).1.trans_lt habove
        rw [← zpow_add₀ (by norm_num)] at hlt
        exact (zpow_lt_zpow_iff_right₀ (by norm_num)).1 hlt
      omega
    · have hreach : (2 : ℚ) ^ (52 : ℤ) * 2 ^ e ≤ num / den := by
        by_cases hm' : m = 2 ^ 52
        · exact not_lt.1 fun hlt => hnarrow ⟨⟨hm', hleast⟩, by exact_mod_cast hlt⟩
        · have hnormal := hc.normal hleast
          have hone : 2 ^ 52 + 1 ≤ m := by omega
          have hone : (2 ^ 52 + 1 : ℚ) ≤ m := by exact_mod_cast hone
          refine le_trans (mul_le_mul_of_nonneg_right ?_ hpow.le) h.half
          norm_num
          linarith
      rw [magnitude_scaled hn hd hreach habove]
      omega

end Near

end Tourney.Double
