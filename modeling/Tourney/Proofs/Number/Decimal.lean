import Tourney.Number.Numeral
import Tourney.Proofs.Number.Digits
import Tourney.Proofs.Number.Shortest

/-!
# Decimals read back

Digits and a point are written in one of four forms, and each is read as the same number
(`meant_place`). A number read from a text is rounded once (`scaled_eq`), so the shortest text of
a finite double is read as that double (`double?_text`).
-/

namespace Tourney

open Double Shortest

namespace Numeral

/-- The number a decimal stands for. -/
def Decimal.number (d : Decimal) : ℚ :=
  value (d.before ++ d.after) * 10 ^ (d.exponent - d.after.length)

/-- The point and the digits after it, where there are any. -/
def fraction (after : List Char) : List Char := if after = [] then [] else '.' :: after

/-- A decimal as JSON has it: its text has no point without digits and its whole part no zero in
front. -/
structure Written (cs : List Char) (d : Decimal) : Prop where
  text : ∃ tail, exponent? tail = some d.exponent ∧
    (∀ c ∈ tail, c.isDigit ∨ c ∈ ['e', '+', '-']) ∧ cs = d.before ++ fraction d.after ++ tail
  nonempty : d.before ≠ []
  before : ∀ c ∈ d.before, c.isDigit
  after : ∀ c ∈ d.after, c.isDigit
  lead : d.before = ['0'] ∨ d.before.head? ≠ some '0'

theorem mark_of_exponent? {c : Char} {tail : List Char} {e : ℤ}
    (h : exponent? (c :: tail) = some e) : c = 'e' ∨ c = 'E' := by
  by_contra hc
  unfold exponent? at h
  dsimp only at h
  rw [if_neg hc] at h
  cases h

theorem Written.head_isDigit {cs : List Char} {d : Decimal} (h : Written cs d) :
    ∃ c rest, cs = c :: rest ∧ c.isDigit := by
  obtain ⟨tail, -, -, rfl⟩ := h.text
  obtain ⟨c, before, hb⟩ := List.exists_cons_of_ne_nil h.nonempty
  exact ⟨c, before ++ fraction d.after ++ tail, by simp [hb], h.before c (by simp [hb])⟩

/-- A decimal is taken apart at its point and its exponent. -/
theorem Written.decimal? {cs : List Char} {d : Decimal} (h : Written cs d) :
    decimal? cs = some d := by
  obtain ⟨tail, he, -, rfl⟩ := h.text
  have hstop : Stops Char.isDigit tail := fun c hc => by
    obtain ⟨rest, rfl⟩ : ∃ rest, tail = c :: rest := by
      cases tail with
      | nil => cases hc
      | cons c' rest => exact ⟨rest, by rw [Option.mem_some_iff.1 hc]⟩
    rcases mark_of_exponent? he with rfl | rfl <;> rfl
  rcases hafter : d.after with - | ⟨c, after⟩
  · rw [fraction, if_pos rfl, List.append_nil, Numeral.decimal?]
    rw [takeWhile_append_stop h.before hstop, dropWhile_append_stop h.before hstop]
    split
    · rename_i more hpoint
      split at hpoint
      · cases mark_of_exponent? he <;> contradiction
      · cases hpoint
        rw [he, ← hafter]
        rfl
  · have hpoint : Stops Char.isDigit ('.' :: (c :: after ++ tail)) := stops_cons (by decide)
    have hdigits : ∀ x ∈ c :: after, x.isDigit := hafter ▸ h.after
    rw [fraction, if_neg (by simp), List.append_assoc, List.cons_append,
      Numeral.decimal?, takeWhile_append_stop h.before hpoint, dropWhile_append_stop h.before hpoint]
    simp only [takeWhile_append_stop hdigits hstop, dropWhile_append_stop hdigits hstop, he,
      Option.map_some]
    rw [← hafter]

/-! ## Rounding -/

theorem signed_sizeBits (x : Double) : signed x.isNegative x.sizeBits = x := by
  obtain ⟨bits⟩ := x
  have hlt := bits.toNat_lt
  rw [signed, Double.mk.injEq, ← UInt64.toNat_inj, UInt64.toNat_ofNat']
  by_cases h : signBit ≤ bits.toNat
  · rw [Double.isNegative, decide_eq_true h, if_pos rfl, sizeBits]
    simp only [signBit] at *
    omega
  · rw [Double.isNegative, decide_eq_false h, if_neg (by decide), sizeBits]
    simp only [signBit] at *
    omega

/-- No double is so small or so large that its decimals are not multiplied out. -/
theorem two_pow_lt : (2 : ℚ) ^ 1075 < 10 ^ 400 := by
  have hlt : ((2 : ℚ) ^ 43) ^ 25 < (10 ^ 16) ^ 25 :=
    pow_lt_pow_left₀ (by norm_num) (by norm_num) (by norm_num)
  rwa [← pow_mul, ← pow_mul] at hlt

/-- The number of places of a number that rounds to a finite double. -/
theorem places_bounds {m : ℕ} {e : ℤ} (hc : Canonical m e) (hlast : e ≤ 971) (hm : 0 < m) {n : ℕ}
    {k : ℤ} (hn : 0 < n) (h : Near m e (n * 10 ^ k)) :
    -400 ≤ k + (Nat.toDigits 10 n).length ∧ k + (Nat.toDigits 10 n).length ≤ 400 := by
  obtain ⟨hlow, hhigh⟩ := toDigits_bounds hn
  obtain ⟨places, hplaces⟩ : ∃ places, (Nat.toDigits 10 n).length = places := ⟨_, rfl⟩
  rw [hplaces] at hlow hhigh ⊢
  have hten : (0 : ℚ) < 10 ^ k := by positivity
  constructor
  · by_contra hlt
    have hone : (1 : ℚ) ≤ m := by exact_mod_cast hm
    have hleast := hc.least
    have hfirst : (2 : ℚ) ^ (-1075 : ℤ) ≤ n * 10 ^ k := calc
      (2 : ℚ) ^ (-1075 : ℤ) ≤ 2 ^ (e - 1) :=
          zpow_le_zpow_right₀ (by norm_num) (by rw [minExponent] at hleast; omega)
      _ = 1 / 2 * 2 ^ e := by rw [zpow_sub_one₀ (by norm_num)]; ring
      _ ≤ (m - 1 / 2) * 2 ^ e := mul_le_mul_of_nonneg_right (by linarith) (by positivity)
      _ ≤ n * 10 ^ k := h.half
    have hsecond : (n : ℚ) * 10 ^ k < 10 ^ (-400 : ℤ) := calc
      (n : ℚ) * 10 ^ k < 10 ^ (places : ℤ) * 10 ^ k := mul_lt_mul_of_pos_right hhigh hten
      _ = 10 ^ (k + places) := by rw [← zpow_add₀ (by norm_num), add_comm]
      _ ≤ 10 ^ (-400 : ℤ) := zpow_le_zpow_right₀ (by norm_num) (by omega)
    have hthird : (10 : ℚ) ^ (-400 : ℤ) < 2 ^ (-1075 : ℤ) := by
      rw [zpow_neg, zpow_neg]
      exact inv_strictAnti₀ (by positivity) two_pow_lt
    exact absurd (hfirst.trans_lt hsecond) (not_lt.2 hthird.le)
  · by_contra hlt
    have hshort : (m : ℚ) + 1 / 2 ≤ 2 ^ (54 : ℤ) := by
      have hlt : (m : ℚ) < 2 ^ 53 := by exact_mod_cast hc.short
      rw [show (2 : ℚ) ^ (54 : ℤ) = 2 * 2 ^ 53 by norm_num]
      linarith
    have hfirst : (n : ℚ) * 10 ^ k ≤ 2 ^ 1075 := calc
      (n : ℚ) * 10 ^ k ≤ (m + 1 / 2) * 2 ^ e := h.high
      _ ≤ 2 ^ (54 : ℤ) * 2 ^ e := mul_le_mul_of_nonneg_right hshort (by positivity)
      _ = 2 ^ (54 + e) := (zpow_add₀ (by norm_num) ..).symm
      _ ≤ 2 ^ (1075 : ℤ) := zpow_le_zpow_right₀ (by norm_num) (by omega)
    have hsecond : (10 : ℚ) ^ 400 ≤ n * 10 ^ k := calc
      (10 : ℚ) ^ (400 : ℤ) ≤ 10 ^ ((places : ℤ) - 1 + k) :=
          zpow_le_zpow_right₀ (by norm_num) (by omega)
      _ = 10 ^ ((places : ℤ) - 1) * 10 ^ k := zpow_add₀ (by norm_num) ..
      _ ≤ n * 10 ^ k := mul_le_mul_of_nonneg_right hlow hten.le
    exact absurd (hsecond.trans hfirst) (not_le.2 two_pow_lt)

/-- A number that rounds to a finite double is read as that double. -/
theorem scaled_eq {x : Double} (hx : x.isFinite) (hm : 0 < x.parts.1) {n : ℕ} {k : ℤ}
    (h : Near x.parts.1 x.parts.2 (n * 10 ^ k)) : scaled x.isNegative n k = x := by
  have hc := x.parts_canonical
  have hbits := x.sizeBits_eq
  have hfinite : (x.sizeBits : ℤ) < infinityBits := by
    rw [isFinite, decide_eq_true_eq] at hx
    exact_mod_cast hx
  have hnormal := hc.normal
  have hlast : x.parts.2 ≤ 971 := by
    simp only [minExponent, infinityBits] at *
    omega
  have hn : 0 < n := by
    refine Nat.pos_of_ne_zero fun h0 => ?_
    have hpos := h.pos hm
    simp [h0] at hpos
  obtain ⟨hsmall, hlarge⟩ := places_bounds hc hlast hm hn h
  rw [scaled, if_neg (by omega), if_neg (by omega), nearest]
  have hnearest := nearestBits_eq hc hm (by omega) (by positivity)
    (by rwa [grid_eq] : Near x.parts.1 x.parts.2
      (((n * 10 ^ k.toNat : ℕ) : ℚ) / (10 ^ (-k).toNat : ℕ)))
  rw [← hbits, Int.natCast_inj] at hnearest
  rw [hnearest, signed_sizeBits]

theorem scaled_zero {x : Double} (hm : x.parts.1 = 0) (k : ℤ) : scaled x.isNegative 0 k = x := by
  have hsize : x.sizeBits = 0 := by
    have hbits := x.sizeBits_eq
    have hc := x.parts_canonical
    have hleast := hc.least
    have hnormal := hc.normal
    rw [hm] at hbits hnormal
    have : x.parts.2 = minExponent := by
      by_contra hne
      have := hnormal (by omega)
      omega
    rw [this] at hbits
    omega
  rw [scaled, if_pos (Or.inl rfl), nearest, nearestBits, if_pos rfl, ← hsize, signed_sizeBits]

/-- A decimal near a finite double is read as that double. -/
theorem toDouble_eq {x : Double} (hx : x.isFinite) (hm : 0 < x.parts.1) {d : Decimal}
    (h : Near x.parts.1 x.parts.2 d.number) : d.toDouble x.isNegative = x :=
  scaled_eq hx hm h

/-! ## Forms -/

section Place

variable {ds : List Char}

theorem value_append (cs cs' : List Char) :
    value (cs ++ cs') = 10 ^ cs'.length * value cs + value cs' := by
  rw [value, Nat.ofDigitChars_append, Nat.ofDigitChars_eq_ofDigitChars_zero]
  rfl

theorem value_replicate (n : ℕ) : value (List.replicate n '0') = 0 := by
  rw [value, Nat.ofDigitChars_replicate_zero, Nat.mul_zero]

theorem isDigit_replicate (n : ℕ) : ∀ c ∈ List.replicate n '0', c.isDigit := fun _ hc =>
  List.eq_of_mem_replicate hc ▸ rfl

/-- Zeros behind the digits move the point. -/
theorem Decimal.number_eq {d : Decimal} {n z : ℕ} {k : ℤ}
    (hvalue : value (d.before ++ d.after) = 10 ^ z * n)
    (hplaces : d.exponent - d.after.length + z = k) : d.number = n * 10 ^ k := by
  rw [Decimal.number, hvalue, ← hplaces, zpow_add₀ (by norm_num), zpow_natCast]
  push_cast
  ring

/-- A text that is read as a number of these digits at this point. -/
def Meant (ds : List Char) (point : ℤ) (cs : List Char) : Prop :=
  ∃ d, Written cs d ∧ d.number = value ds * 10 ^ (point - ds.length)

variable (hne : ds ≠ []) (hds : ∀ c ∈ ds, c.isDigit) (hlead : ds.head? ≠ some '0')

include hne hds hlead

theorem meant_whole (z : ℕ) :
    Meant ds (ds.length + z) (ds ++ List.replicate z '0' ++ ['.', '0']) := by
  refine ⟨⟨ds ++ List.replicate z '0', ['0'], 0⟩, ⟨⟨[], rfl, nofun, ?_⟩, ?_, ?_, ?_, ?_⟩,
    Decimal.number_eq (z := z + 1) ?_ ?_⟩
  · simp [fraction]
  · simp [hne]
  · exact fun c hc => (List.mem_append.1 hc).elim (hds c) (isDigit_replicate z c)
  · exact isDigit_replicate 1
  · exact .inr (by rwa [List.head?_append_of_ne_nil _ hne])
  · rw [List.append_assoc, value_append, ← List.replicate_succ', value_replicate,
      List.length_replicate, Nat.add_zero]
  · simp

theorem meant_among {n : ℕ} (hpos : 0 < n) (hn : n < ds.length) :
    Meant ds n (ds.take n ++ ['.'] ++ ds.drop n) := by
  have hdrop : ds.drop n ≠ [] := by
    rw [ne_eq, List.drop_eq_nil_iff]
    omega
  refine ⟨⟨ds.take n, ds.drop n, 0⟩, ⟨⟨[], rfl, nofun, ?_⟩, ?_, ?_, ?_, ?_⟩,
    Decimal.number_eq (z := 0) ?_ ?_⟩
  · simp [fraction, hdrop]
  · rw [ne_eq, List.take_eq_nil_iff]
    exact not_or.2 ⟨by omega, hne⟩
  · exact fun c hc => hds c (List.mem_of_mem_take hc)
  · exact fun c hc => hds c (List.mem_of_mem_drop hc)
  · exact .inr (by rwa [List.head?_take, if_neg (by omega)])
  · rw [List.take_append_drop, Nat.pow_zero, Nat.one_mul]
  · dsimp only
    rw [List.length_drop]
    omega

omit hlead in
theorem meant_below (z : ℕ) : Meant ds (-z) (['0', '.'] ++ List.replicate z '0' ++ ds) := by
  refine ⟨⟨['0'], List.replicate z '0' ++ ds, 0⟩, ⟨⟨[], rfl, nofun, ?_⟩, ?_, ?_, ?_, ?_⟩,
    Decimal.number_eq (z := 0) ?_ ?_⟩
  · simp [fraction, hne]
  · exact List.cons_ne_nil _ _
  · exact isDigit_replicate 1
  · exact fun c hc => (List.mem_append.1 hc).elim (isDigit_replicate z c) (hds c)
  · exact .inl rfl
  · dsimp only
    rw [← List.append_assoc, value_append, List.singleton_append, ← List.replicate_succ,
      value_replicate]
    simp
  · dsimp only
    rw [List.length_append, List.length_replicate]
    push_cast
    ring

omit hne hds hlead in
theorem exponent?_mark (e : ℤ) :
    exponent? (['e', if e < 0 then '-' else '+'] ++ Nat.toDigits 10 e.natAbs) = some e := by
  have hdigits : (Nat.toDigits 10 e.natAbs).all Char.isDigit :=
    List.all_eq_true.2 (isDigit_toDigits _)
  have hvalue : value (Nat.toDigits 10 e.natAbs) = e.natAbs := Nat.ofDigitChars_ten_toDigits
  split_ifs with he
  · simp [exponent?, Nat.toDigits_ne_nil, hdigits, hvalue, abs_of_neg he]
  · simp [exponent?, Nat.toDigits_ne_nil, hdigits, hvalue, abs_of_nonneg (not_lt.1 he)]

omit hne hds hlead in
theorem meant_mark {c : Char} {cs : List Char} (hds : ∀ x ∈ c :: cs, x.isDigit)
    (hlead : (c :: cs).head? ≠ some '0') (point : ℤ) : Meant (c :: cs) point
      ([c] ++ fraction cs ++ (['e', if point - 1 < 0 then '-' else '+'] ++
        Nat.toDigits 10 (point - 1).natAbs)) := by
  refine ⟨⟨[c], cs, point - 1⟩, ⟨⟨_, exponent?_mark (point - 1), ?_, rfl⟩, ?_, ?_, ?_, ?_⟩,
    Decimal.number_eq (z := 0) ?_ ?_⟩
  · intro x hx
    rcases List.mem_append.1 hx with hx | hx
    · right
      split_ifs at hx <;> simp at hx ⊢ <;> tauto
    · exact .inl (isDigit_toDigits _ x hx)
  · exact List.cons_ne_nil _ _
  · exact fun x hx => hds x (List.mem_singleton.1 hx ▸ List.mem_cons_self)
  · exact fun x hx => hds x (List.mem_cons_of_mem _ hx)
  · exact .inr hlead
  · rw [List.singleton_append, Nat.pow_zero, Nat.one_mul]
  · dsimp only
    rw [List.length_cons]
    push_cast
    ring

/-- Digits and a point are read as they were meant in each of their forms. -/
theorem meant_place (point : ℤ) : Meant ds point (place ⟨ds, point⟩) := by
  unfold place
  dsimp only
  by_cases hwithin : 0 < point ∧ point ≤ 16
  · rw [if_pos hwithin]
    split_ifs with hlong
    · have h := meant_whole hne hds hlead (point - ds.length).toNat
      rwa [Int.toNat_of_nonneg (by omega), add_sub_cancel] at h
    · have h := meant_among hne hds hlead (n := point.toNat) (by omega) (by omega)
      rwa [Int.toNat_of_nonneg (by omega)] at h
  · rw [if_neg hwithin]
    by_cases hsmall : -5 < point ∧ point ≤ 0
    · rw [if_pos hsmall]
      have h := meant_below hne hds (-point).toNat
      rwa [Int.toNat_of_nonneg (by omega), neg_neg] at h
    · rw [if_neg hsmall]
      obtain ⟨c, cs, rfl⟩ := List.exists_cons_of_ne_nil hne
      have h := meant_mark hds hlead point
      rw [← List.append_assoc] at h
      cases cs <;> exact h

end Place

/-! ## Shortest texts -/

/-- Stripping leaves all but the zeros at the end. -/
theorem exists_strip (cs : List Char) : ∃ z, cs = strip cs ++ List.replicate z '0' := by
  refine ⟨(cs.reverse.takeWhile (· = '0')).length, ?_⟩
  have hzeros : cs.reverse.takeWhile (· = '0') =
      List.replicate (cs.reverse.takeWhile (· = '0')).length '0' :=
    List.eq_replicate_of_mem fun c hc => by simpa using List.mem_takeWhile_imp hc
  have hsplit := congrArg List.reverse
    (List.takeWhile_append_dropWhile (p := (· = '0')) (l := cs.reverse))
  rw [List.reverse_append, List.reverse_reverse, hzeros, List.reverse_replicate] at hsplit
  exact hsplit.symm

theorem exists_digits {x : Double} (hm : 0 < x.parts.1) : ∃ d, Written (place (digits x)) d ∧
    Near x.parts.1 x.parts.2 d.number := by
  obtain ⟨n, k, hn, hnear, hdigits⟩ := digits_spec hm
  obtain ⟨z, hz⟩ := exists_strip (Nat.toDigits 10 n)
  obtain ⟨ds, hds⟩ : ∃ ds, strip (Nat.toDigits 10 n) = ds := ⟨_, rfl⟩
  rw [hds] at hz hdigits
  have hvalue : value ds * 10 ^ z = n := by
    have hten : value (Nat.toDigits 10 n) = n := Nat.ofDigitChars_ten_toDigits
    rw [hz, value_append, value_replicate, List.length_replicate] at hten
    rw [← hten]
    ring
  have hne : ds ≠ [] := by
    rintro rfl
    rw [← hvalue, show value [] = 0 from rfl, Nat.zero_mul] at hn
    exact hn.false
  have hmem : ∀ c ∈ ds, c.isDigit := fun c hc =>
    isDigit_toDigits n c (hz ▸ List.mem_append_left _ hc)
  have hlead : ds.head? ≠ some '0' := by
    have h := head?_toDigits hn
    rwa [hz, List.head?_append_of_ne_nil _ hne] at h
  obtain ⟨d, hd, hnumber⟩ := meant_place hne hmem hlead ((Nat.toDigits 10 n).length + k)
  have hplaces : ((Nat.toDigits 10 n).length : ℤ) + k - ds.length = z + k := by
    rw [hz, List.length_append, List.length_replicate]
    push_cast
    ring
  refine ⟨d, hdigits ▸ hd, ?_⟩
  rw [hnumber, hplaces, zpow_add₀ (by norm_num), zpow_natCast, ← mul_assoc]
  have hcast : (value ds : ℚ) * 10 ^ z = n := by exact_mod_cast hvalue
  rwa [hcast]

theorem text_written {x : Double} (hx : x.isFinite) : ∃ cs d,
    text x = (if x.isNegative then ['-'] else []) ++ cs ∧ Written cs d ∧
      d.toDouble x.isNegative = x := by
  unfold text
  dsimp only
  by_cases hm : x.parts.1 = 0
  · refine ⟨['0', '.', '0'], ⟨['0'], ['0'], 0⟩, ?_, ⟨⟨[], rfl, nofun, rfl⟩, ?_, ?_, ?_, .inl rfl⟩,
      scaled_zero hm _⟩
    · rw [if_pos hm]
      split_ifs <;> rfl
    · exact List.cons_ne_nil _ _
    · exact isDigit_replicate 1
    · exact isDigit_replicate 1
  · obtain ⟨d, hd, hnear⟩ := exists_digits (Nat.pos_of_ne_zero hm)
    refine ⟨_, d, ?_, hd, toDouble_eq hx (Nat.pos_of_ne_zero hm) hnear⟩
    rw [if_neg hm]
    split_ifs <;> rfl

/-- A word that starts with a digit is not one of those that stand for no number. -/
theorem lower_ne {c : Char} (hc : c.isDigit) (rest : List Char) {w : String}
    (hw : w.toList.head?.all fun c => !c.isDigit) : lower (c :: rest) ≠ w := by
  have hfix : c.toLower = c := by
    simp only [Char.isDigit, Bool.and_eq_true, decide_eq_true_eq] at hc
    rw [Char.toLower, dif_neg]
    rintro ⟨hge, -⟩
    exact absurd (UInt32.le_trans hge hc.2) (by decide)
  rintro rfl
  rw [lower, String.toList_ofList, List.map_cons, hfix, List.head?_cons, Option.all_some, hc] at hw
  cases hw

/-- A decimal is read as a double, with a sign in front or without. -/
theorem double?_written {cs : List Char} {d : Decimal} (hd : Written cs d) :
    double? (String.ofList cs) = some (d.toDouble false) ∧
      double? (String.ofList ('-' :: cs)) = some (d.toDouble true) := by
  obtain ⟨c, rest, rfl, hc⟩ := hd.head_isDigit
  have hinf : lower (c :: rest) ∉ ["inf", "infinity"] := by
    simp only [List.mem_cons, List.not_mem_nil, or_false, not_or]
    exact ⟨lower_ne hc rest rfl, lower_ne hc rest rfl⟩
  have hbody : ∀ negative, (if lower (c :: rest) ∈ ["inf", "infinity"] then
      some (Double.infinity negative)
    else if lower (c :: rest) = "nan" then some (Double.nan negative)
    else (decimal? (c :: rest)).bind fun d =>
      if d.before ++ d.after = [] then none else some (d.toDouble negative)) =
      some (d.toDouble negative) := fun negative => by
    rw [if_neg hinf, if_neg (lower_ne hc rest rfl), hd.decimal?]
    exact if_neg (by simp [hd.nonempty])
  unfold double?
  rw [String.toList_ofList, String.toList_ofList]
  refine ⟨?_, hbody true⟩
  split
  rename_i negative cs hsign
  split at hsign
  · simp_all
  · simp_all
  · cases hsign
    exact hbody false

/-- The shortest text of a finite double is read as that double. -/
theorem double?_text {x : Double} (hx : x.isFinite) :
    double? (String.ofList (text x)) = some x := by
  obtain ⟨cs, d, htext, hd, hvalue⟩ := text_written hx
  obtain ⟨hpositive, hnegative⟩ := double?_written hd
  rw [htext]
  cases hsign : x.isNegative with
  | true => rw [if_pos rfl, List.singleton_append, hnegative, ← hsign, hvalue]
  | false => rw [if_neg (by decide), List.nil_append, hpositive, ← hsign, hvalue]

end Numeral

end Tourney
