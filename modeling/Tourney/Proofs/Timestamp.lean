import Tourney.Number.Double
import Tourney.Proofs.Calendar
import Tourney.Proofs.Number.Digits

/-!
# Timestamps read back

Each part of a timestamp reads what has been written for it and leaves the rest: numbers of a fixed
width (`field_padded`), the year (`year_yearText`), the fraction (`fraction_fractionText`). So a
moment that a calendar of these years can keep is read from its text, and no other is
(`read?_text_iff`).
-/

namespace Tourney.Timestamp

/-- A moment that can be kept: its year is one of the calendar, and its second is no longer than a
second, but for the last of a minute, which may be a leap second. -/
structure Kept (t : Timestamp) : Prop where
  first : firstYear ≤ (Date.ofDays (t.seconds / 86400)).year
  last : (Date.ofDays (t.seconds / 86400)).year ≤ lastYear
  nanos : t.nanos < 1000000000 ∨ t.seconds % 60 = 59 ∧ t.nanos < 2000000000

/-! ## Digits -/

section Padded

variable {width n : Nat}

theorem isDigit_padded (width n : Nat) : ∀ c ∈ padded width n, c.isDigit := fun c hc => by
  rcases List.mem_append.1 hc with hc | hc
  · rw [(List.mem_replicate.1 hc).2]
    decide
  · exact isDigit_toDigits n c hc

theorem padded_ne_nil (width n : Nat) : padded width n ≠ [] :=
  List.append_ne_nil_of_right_ne_nil _ Nat.toDigits_ne_nil

theorem length_padded (hw : 0 < width) (hn : n < 10 ^ width) : (padded width n).length = width := by
  have hlen := (Nat.length_toDigits_le_iff (show 1 < 10 by decide) hw).2 hn
  rw [padded, List.length_append, List.length_replicate]
  omega

theorem value_padded (width n : Nat) : Nat.ofDigitChars 10 (padded width n) 0 = n := by
  rw [padded, Nat.ofDigitChars_append, Nat.ofDigitChars_replicate_zero, Nat.mul_zero,
    Nat.ofDigitChars_ten_toDigits]

end Padded

section Parts

variable {ds rest : List Char}

/-- Digits are read up to the width, or up to where they end. -/
theorem digits_append {width : Nat} (hds : ∀ c ∈ ds, c.isDigit) (hne : ds ≠ [])
    (hlen : ds.length ≤ width) (hstop : ds.length = width ∨ Stops Char.isDigit rest) :
    digits width (ds ++ rest) = some (Nat.ofDigitChars 10 ds 0, rest) := by
  have htake : ((ds ++ rest).take width).takeWhile Char.isDigit = ds := by
    rw [List.take_append, List.take_of_length_le hlen]
    refine takeWhile_append_stop hds ?_
    rcases hstop with hlen | hstop
    · rw [hlen, Nat.sub_self, List.take_zero]
      exact stops_nil
    · intro c hc
      cases rest with
      | nil => simp at hc
      | cons d rest =>
        rcases hk : width - ds.length with _ | k
        · simp [hk] at hc
        · rw [hk, List.take_succ_cons] at hc
          exact hstop c hc
  simp only [digits, htake, if_neg hne, List.drop_left]

theorem not_isBlankChar_of_isDigit {c : Char} (h : c.isDigit) : isBlankChar c = false := by
  have hrange : 48 ≤ c.toNat ∧ c.toNat ≤ 57 := by
    simpa [Char.isDigit, UInt32.le_iff_toNat_le] using h
  simp only [isBlankChar, Blank.ranges, List.any_cons, List.any_nil, Bool.or_false,
    Bool.or_eq_false_iff, Bool.and_eq_false_iff, decide_eq_false_iff_not]
  omega

theorem trimStart_of_not_blank {c : Char} {cs : List Char} (h : isBlankChar c = false) :
    trimStart (c :: cs) = c :: cs :=
  List.dropWhile_cons_of_neg (by simp [h])

theorem trimStart_digits (hds : ∀ c ∈ ds, c.isDigit) (hne : ds ≠ []) :
    trimStart (ds ++ rest) = ds ++ rest := by
  obtain ⟨c, cs, rfl⟩ := List.exists_cons_of_ne_nil hne
  exact trimStart_of_not_blank (not_isBlankChar_of_isDigit (hds c List.mem_cons_self))

theorem field_padded {least most n : Nat} (hleast : least ≤ n) (hmost : n ≤ most)
    (hn : n < 100) : field least most (padded 2 n ++ rest) = some (n, rest) := by
  have hread : digits 2 (padded 2 n ++ rest) = some (n, rest) := by
    have hlen := length_padded (show 0 < 2 by decide) hn
    rw [digits_append (isDigit_padded 2 n) (padded_ne_nil 2 n) hlen.le (.inl hlen), value_padded]
  rw [field, trimStart_digits (isDigit_padded 2 n) (padded_ne_nil 2 n), hread]
  exact if_pos ⟨hleast, hmost⟩

theorem separator_cons {c : Char} (h : isBlankChar c = false) :
    separator c (c :: rest) = some ((), rest) := by
  rw [separator, trimStart_of_not_blank h]
  exact if_pos rfl

theorem isDigit_of_append (hds : ∀ c ∈ ds, c.isDigit) (hne : ds ≠ []) {c : Char} {cs : List Char}
    (h : ds ++ rest = c :: cs) : c.isDigit := by
  obtain ⟨d, ds, rfl⟩ := List.exists_cons_of_ne_nil hne
  rw [List.cons_append, List.cons.injEq] at h
  exact h.1 ▸ hds d List.mem_cons_self

/-- A year is read with its sign, if it has one. -/
theorem year_yearText (y : Int) : year (yearText y ++ '-' :: rest) = some (y, '-' :: rest) := by
  have hread : ∀ width n, (padded 4 n).length ≤ width →
      ((padded 4 n).length = width ∨ Stops Char.isDigit ('-' :: rest)) →
      digits width (padded 4 n ++ '-' :: rest) = some (n, '-' :: rest) := fun width n hlen hstop => by
    rw [digits_append (isDigit_padded 4 n) (padded_ne_nil 4 n) hlen hstop, value_padded]
  have hstop : Stops Char.isDigit ('-' :: rest) := stops_cons (by decide)
  have hsigned : ∀ n, digits (padded 4 n ++ '-' :: rest).length (padded 4 n ++ '-' :: rest) =
      some (n, '-' :: rest) := fun n => hread _ n (by simp) (.inr hstop)
  unfold yearText
  split_ifs with hshort hneg
  · have hdigits := hread 4 y.toNat (length_padded (by decide) (by omega)).le
      (.inl (length_padded (by decide) (by omega)))
    rw [year, trimStart_digits (isDigit_padded 4 _) (padded_ne_nil 4 _)]
    split
    · exact absurd (isDigit_of_append (isDigit_padded 4 _) (padded_ne_nil 4 _) ‹_›) (by decide)
    · exact absurd (isDigit_of_append (isDigit_padded 4 _) (padded_ne_nil 4 _) ‹_›) (by decide)
    · rw [hdigits]
      change some ((y.toNat : Int), '-' :: rest) = _
      rw [Int.toNat_of_nonneg hshort.1]
  · rw [List.cons_append, year, trimStart_of_not_blank (by decide)]
    change (digits _ _).map _ = _
    rw [hsigned]
    change some (-(y.natAbs : Int), '-' :: rest) = _
    rw [Int.ofNat_natAbs_of_nonpos hneg.le, neg_neg]
  · rw [List.cons_append, year, trimStart_of_not_blank (by decide)]
    change (digits _ _).map _ = _
    rw [hsigned]
    change some ((y.natAbs : Int), '-' :: rest) = _
    rw [Int.natAbs_of_nonneg (not_lt.1 hneg)]

theorem fraction_digits (hds : ∀ c ∈ ds, c.isDigit) (hne : ds ≠ []) (hlen : ds.length ≤ 9)
    (hstop : Stops Char.isDigit rest) : fraction ('.' :: ds ++ rest) =
      some (10 ^ (9 - ds.length) * Nat.ofDigitChars 10 ds 0, rest) := by
  rw [List.cons_append, fraction, takeWhile_append_stop hds hstop]
  simp only [if_neg hne, List.take_of_length_le hlen, List.drop_left, Nat.ofDigitChars_append,
    Nat.ofDigitChars_replicate_zero]

theorem fraction_fractionText {f : Nat} (hf : f < 1000000000) :
    fraction (fractionText f ++ ['Z']) = some (f, ['Z']) := by
  have hstop : Stops Char.isDigit ['Z'] := stops_cons (by decide)
  have hread : ∀ width n, 0 < width → width ≤ 9 → n < 10 ^ width →
      fraction ('.' :: padded width n ++ ['Z']) = some (10 ^ (9 - width) * n, ['Z']) :=
    fun width n hw hw' hn => by
      have hlen := length_padded hw hn
      rw [fraction_digits (isDigit_padded _ _) (padded_ne_nil _ _) (by omega) hstop, hlen,
        value_padded]
  unfold fractionText
  split_ifs with h0 h3 h6
  · rw [h0]
    rfl
  · rw [hread 3 _ (by decide) (by decide) (by omega)]
    congr 2
    omega
  · rw [hread 6 _ (by decide) (by decide) (by omega)]
    congr 2
    omega
  · rw [hread 9 _ (by decide) (by decide) (by omega)]
    congr 2
    omega

/-- A date of the calendar is read from its text. -/
theorem date_append {d : Date} (h : d.exists) : date (yearText d.year ++ '-' ::
    (padded 2 d.month ++ '-' :: (padded 2 d.day ++ rest))) = some (d, rest) := by
  have hexists := h
  simp only [Date.exists, Bool.and_eq_true, decide_eq_true_eq] at h
  obtain ⟨⟨⟨⟨-, hmonth⟩, hmonth'⟩, hday⟩, hday'⟩ := h
  have hlen : daysInMonth d.year d.month ≤ 31 := by
    unfold daysInMonth
    split <;> first | (split_ifs <;> decide) | decide
  have hdash : isBlankChar '-' = false := by decide
  simp only [date, year_yearText, Option.bind_eq_bind, Option.bind_some, separator_cons hdash,
    field_padded hmonth hmonth' (by omega), field_padded hday (hday'.trans hlen) (by omega)]
  exact if_pos hexists

/-- A time of day is read from its text; the second after the last of a minute is a leap second. -/
theorem time_append {inDay leap f : Nat} (hday : inDay < 86400)
    (hleap : leap = 0 ∨ leap = 1 ∧ inDay % 60 = 59) (hf : f < 1000000000) :
    time (padded 2 (inDay / 3600) ++ ':' :: (padded 2 (inDay / 60 % 60) ++ ':' ::
      (padded 2 (inDay % 60 + leap) ++ (fractionText f ++ ['Z'])))) =
        some ((inDay, f + leap * 1000000000), ['Z']) := by
  have hcolon : isBlankChar ':' = false := by decide
  have hhour : inDay / 3600 ≤ 23 := by omega
  have hminute : inDay / 60 % 60 ≤ 59 := by omega
  have hsecond : inDay % 60 + leap ≤ 60 := by omega
  simp only [time, Option.bind_eq_bind, Option.bind_some, separator_cons hcolon,
    field_padded (Nat.zero_le _) hhour (by omega), field_padded (Nat.zero_le _) hminute (by omega),
    field_padded (Nat.zero_le _) hsecond (by omega), fraction_fractionText hf]
  split_ifs with hsixty <;> rw [Option.some.injEq, Prod.mk.injEq, Prod.mk.injEq] <;>
    exact ⟨⟨by omega, by omega⟩, rfl⟩

end Parts

/-- A moment that can be kept is read from its text. -/
theorem read?_text {t : Timestamp} (h : t.Kept) : read? (String.ofList t.text) = some t := by
  have hnanos := h.nanos
  have hdate := @date_append
    ('T' :: (padded 2 ((t.seconds % 86400).toNat / 3600) ++ ':' ::
      (padded 2 ((t.seconds % 86400).toNat / 60 % 60) ++ ':' ::
        (padded 2 ((t.seconds % 86400).toNat % 60 + t.nanos / 1000000000) ++
          (fractionText (t.nanos % 1000000000) ++ ['Z'])))))
    _ (ofDays_exists h.first h.last)
  have htime := @time_append (t.seconds % 86400).toNat (t.nanos / 1000000000)
    (t.nanos % 1000000000) (by omega) (by omega) (by omega)
  have hZ : offset (trimStart ['Z']) = some (0, []) := by decide
  have hsum : (t.seconds / 86400) * 86400 + ((t.seconds % 86400).toNat : Int) - 0 = t.seconds := by
    omega
  have hfraction : t.nanos % 1000000000 + t.nanos / 1000000000 * 1000000000 = t.nanos := by omega
  simp only [read?, String.toList_ofList, text, List.append_assoc, List.cons_append,
    List.nil_append, hdate, Option.bind_eq_bind, Option.bind_some, htime, hZ, toDays_ofDays,
    hsum, hfraction]
  exact if_pos ⟨rfl, h.first, h.last⟩

/-! ## What can be read -/

theorem ofDigitChars_lt {cs : List Char} (h : ∀ c ∈ cs, c.isDigit) :
    Nat.ofDigitChars 10 cs 0 < 10 ^ cs.length := by
  induction cs with
  | nil => decide
  | cons c cs ih =>
    have hdigit := h c List.mem_cons_self
    have hrest := ih fun d hd => h d (List.mem_cons_of_mem _ hd)
    have hc : c.toNat - '0'.toNat ≤ 9 := by
      have hrange : 48 ≤ c.toNat ∧ c.toNat ≤ 57 := by
        simpa [Char.isDigit, UInt32.le_iff_toNat_le] using hdigit
      exact Nat.sub_le_iff_le_add.2 hrange.2
    rw [Nat.ofDigitChars_cons, Nat.ofDigitChars_eq_ofDigitChars_zero, List.length_cons,
      Nat.pow_succ, Nat.mul_zero, Nat.zero_add]
    have := Nat.mul_le_mul_left (10 ^ cs.length) hc
    omega

theorem fraction_lt {cs rest : List Char} {n : Nat} (h : fraction cs = some (n, rest)) :
    n < 1000000000 := by
  unfold fraction at h
  split at h
  · simp only [] at h
    split_ifs at h with hds
    cases h
    rename_i cs
    have hlen : ((cs.takeWhile Char.isDigit).take 9 ++
        List.replicate (9 - (cs.takeWhile Char.isDigit).length) '0').length = 9 := by
      rw [List.length_append, List.length_take, List.length_replicate]
      omega
    have hlt := @ofDigitChars_lt ((cs.takeWhile Char.isDigit).take 9 ++
        List.replicate (9 - (cs.takeWhile Char.isDigit).length) '0') fun c hc => by
      rcases List.mem_append.1 hc with hc | hc
      · exact List.all_eq_true.1 List.all_takeWhile c (List.mem_of_mem_take hc)
      · rw [List.eq_of_mem_replicate hc]
        rfl
    rwa [hlen] at hlt
  · cases h
    decide

theorem time_bounds {cs rest : List Char} {inDay nanos : Nat}
    (h : time cs = some ((inDay, nanos), rest)) :
    nanos < 1000000000 ∨ inDay % 60 = 59 ∧ nanos < 2000000000 := by
  simp only [time, Option.bind_eq_bind, Option.bind_eq_some_iff, Prod.exists] at h
  obtain ⟨hour, _, -, _, _, -, minute, _, -, _, _, -, s, _, -, n, _, hn, h⟩ := h
  have hlt := fraction_lt hn
  split_ifs at h with hs <;> cases h
  · right
    omega
  · exact .inl hlt

theorem offsetSize_mod {cs rest : List Char} {n : Nat} (h : offsetSize cs = some (n, rest)) :
    n % 60 = 0 := by
  unfold offsetSize at h
  split at h
  · simp only [Option.bind_eq_bind, Option.bind_eq_some_iff] at h
    obtain ⟨hours, -, h⟩ := h
    split at h
    · simp only [Option.bind_eq_some_iff] at h
      obtain ⟨minutes, -, h⟩ := h
      split_ifs at h
      cases h
      omega
    · cases h
  · cases h

theorem signed_mod {cs rest : List Char} {east : Int} (h : offset.signed cs = some (east, rest)) :
    east % 60 = 0 := by
  unfold offset.signed at h
  split at h
  case h_1 | h_2 =>
    cases h
    rfl
  case h_3 | h_4 | h_5 =>
    obtain ⟨⟨n, _⟩, hn, h⟩ := Option.map_eq_some_iff.1 h
    have hmod := offsetSize_mod hn
    cases h
    omega
  case h_6 => cases h

/-- An offset is one of whole minutes. -/
theorem offset_mod {cs rest : List Char} {east : Int} (h : offset cs = some (east, rest)) :
    east % 60 = 0 := by
  unfold offset at h
  split at h
  · split_ifs at h
    · cases h
      rfl
    · exact signed_mod h
  · exact signed_mod h

/-- What is read can be kept. -/
theorem kept_of_read? {s : String} {t : Timestamp} (h : read? s = some t) : t.Kept := by
  have hend : ∀ {d : Date} {cs : List Char},
      ((time cs).bind fun a => (offset (trimStart a.2)).bind fun a' =>
        if a'.2.all isBlankChar ∧
            firstYear ≤ (Date.ofDays ((d.toDays * 86400 + a.1.1 - a'.1) / 86400)).year ∧
            (Date.ofDays ((d.toDays * 86400 + a.1.1 - a'.1) / 86400)).year ≤ lastYear then
          some (⟨d.toDays * 86400 + a.1.1 - a'.1, a.1.2⟩ : Timestamp)
        else none) = some t → t.Kept := fun h => by
    simp only [Option.bind_eq_some_iff, Prod.exists] at h
    obtain ⟨inDay, nanos, _, htime, east, _, hoffset, h⟩ := h
    have hbounds := time_bounds htime
    have hmod := offset_mod hoffset
    split_ifs at h with hyears
    cases h
    refine ⟨hyears.2.1, hyears.2.2, hbounds.imp_right fun h => ⟨?_, h.2⟩⟩
    dsimp only
    omega
  simp only [read?, Option.bind_eq_bind, Option.bind_eq_some_iff, Prod.exists] at h
  obtain ⟨d, _, -, h⟩ := h
  split at h
  · exact hend h
  · exact hend h
  · exact hend h
  · cases h

/-- A moment is read from its text exactly if it can be kept. -/
theorem read?_text_iff {t : Timestamp} : read? (String.ofList t.text) = some t ↔ t.Kept :=
  ⟨kept_of_read?, read?_text⟩

end Tourney.Timestamp
