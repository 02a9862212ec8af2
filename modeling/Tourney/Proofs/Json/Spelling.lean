import Tourney.Json.Reader
import Tourney.Proofs.Number.Decimal

/-!
# Spellings read back

A text is spelled so that the scanner finds its end (`spelled_spell`) and that it reads back as it
was (`unspell?_spell`), and a number likewise (`natBelow?_ofNat`, `double?_ofDouble`).
-/

namespace Tourney.Json

open Token

/-! ## Texts -/

/-- A spelling whose closing quote the scanner finds. -/
def Spelled (spelling : String) : Prop :=
  ∀ rest, quotedText? (spelling.toList ++ '"' :: rest) = some (spelling.toList, rest)

/-- The three ways of writing a character. -/
inductive Escaped (c : Char) : Prop
  | short (e : Char) (he : shortEscape? e = some c) (hu : e ≠ 'u') (h : escape c = ['\\', e])
  | long (hc : c.toNat < 32) (h : escape c = '\\' :: 'u' :: hex4 c.toNat)
  | plain (hq : c ≠ '"') (hb : c ≠ '\\') (hc : ¬c < ' ') (h : escape c = [c])

theorem escaped (c : Char) : Escaped c := by
  by_cases hshort : c ∈ ['"', '\\', '\x08', '\t', '\n', '\x0c', '\r']
  · simp only [List.mem_cons, List.not_mem_nil, or_false] at hshort
    rcases hshort with rfl | rfl | rfl | rfl | rfl | rfl | rfl
    · exact .short '"' rfl (by decide) rfl
    · exact .short '\\' rfl (by decide) rfl
    · exact .short 'b' rfl (by decide) rfl
    · exact .short 't' rfl (by decide) rfl
    · exact .short 'n' rfl (by decide) rfl
    · exact .short 'f' rfl (by decide) rfl
    · exact .short 'r' rfl (by decide) rfl
  · simp only [List.mem_cons, List.not_mem_nil, or_false, not_or] at hshort
    have h : escape c = if c < ' ' then '\\' :: 'u' :: hex4 c.toNat else [c] := by
      unfold escape
      split <;> simp_all
    split_ifs at h with hc
    · exact .long hc h
    · exact .plain hshort.1 hshort.2.1 hc h

theorem hex4_control : ∀ n < 32,
    (hex4 n).length = 4 ∧ hexValue? (hex4 n) = some n ∧ (hex4 n).all isHex := by decide

theorem exists_hex4 {n : Nat} (hn : n < 32) : ∃ a b c d, hex4 n = [a, b, c, d] ∧
    hexValue? [a, b, c, d] = some n ∧ [a, b, c, d].all isHex := by
  obtain ⟨hlen, hvalue, hhex⟩ := hex4_control n hn
  obtain ⟨a, b, c, d, h⟩ := List.length_eq_four.1 hlen
  rw [h] at hvalue hhex
  exact ⟨a, b, c, d, h, hvalue, hhex⟩

theorem codes?_escape (c : Char) (rest : List Char) :
    codes? (escape c ++ rest) = (codes? rest).map (c.toNat :: ·) := by
  cases escaped c with
  | short e he hu h =>
    rw [h]
    simp [codes?, he, hu]
  | long hc h =>
    obtain ⟨a, b, c', d, hhex, hvalue, -⟩ := exists_hex4 hc
    rw [h, hhex]
    simp [codes?, hvalue]
  | plain hq hb hc h =>
    rw [h]
    simp [codes?, hb]

theorem quotedText?_escape (c : Char) (rest : List Char) : quotedText? (escape c ++ rest) =
    (quotedText? rest).map fun r => (escape c ++ r.1, r.2) := by
  cases escaped c with
  | short e he hu h =>
    rw [h]
    simp [quotedText?, he, hu]
  | long hc h =>
    obtain ⟨a, b, c', d, hhex, -, hall⟩ := exists_hex4 hc
    rw [h, hhex]
    simp only [List.all_cons, List.all_nil, Bool.and_true, Bool.and_eq_true] at hall
    simp [quotedText?, hall]
  | plain hq hb hc h =>
    rw [h]
    simp [quotedText?, hb, hc]

theorem codes?_flatMap_escape (cs : List Char) :
    codes? (cs.flatMap escape) = some (cs.map Char.toNat) := by
  induction cs with
  | nil => rfl
  | cons c cs ih => rw [List.flatMap_cons, codes?_escape, ih, Option.map_some, List.map_cons]

/-- The code points of characters are those characters. -/
theorem characters?_map_toNat (cs : List Char) : characters? (cs.map Char.toNat) = some cs := by
  have hchar : ∀ c : Char, c.toNat.isValidChar ∧ isHighSurrogate c.toNat = false := fun c => by
    have hvalid : c.toNat.isValidChar := c.valid
    refine ⟨hvalid, ?_⟩
    unfold Nat.isValidChar at hvalid
    simp only [isHighSurrogate, Bool.and_eq_false_iff, decide_eq_false_iff_not]
    omega
  induction cs with
  | nil => rfl
  | cons c cs ih =>
    obtain ⟨hvalid, hhigh⟩ := hchar c
    cases cs with
    | nil => simp [characters?, hvalid]
    | cons c' cs =>
      rw [List.map_cons] at ih
      simp [characters?, hvalid, hhigh, ih]

theorem unspell?_spell (s : String) : unspell? (spell s) = some s := by
  rw [unspell?, spell, String.toList_ofList, codes?_flatMap_escape, Option.bind_some,
    characters?_map_toNat, Option.map_some, String.ofList_toList]

theorem spelled_spell (s : String) : Spelled (spell s) := by
  intro rest
  rw [spell, String.toList_ofList]
  induction s.toList with
  | nil => rfl
  | cons c cs ih =>
    rw [List.flatMap_cons, List.append_assoc, quotedText?_escape, ih]
    rfl

theorem string?_ofString (s : String) : string? (ofString s) = some s := unspell?_spell s

/-- A name that needs no escapes. -/
def isPlain (name : String) : Bool := name.toList.all fun c => escape c == [c]

theorem spell_of_isPlain {name : String} (h : isPlain name) : spell name = name := by
  have hcs : name.toList.flatMap escape = name.toList := by
    rw [isPlain, List.all_eq_true] at h
    generalize name.toList = cs at h ⊢
    induction cs with
    | nil => rfl
    | cons c cs ih =>
      have hc := beq_iff_eq.1 (h c List.mem_cons_self)
      rw [List.flatMap_cons, hc, ih fun a ha => h a (List.mem_cons_of_mem _ ha)]
      rfl
  rw [spell, hcs, String.ofList_toList]

theorem unspell?_of_isPlain {name : String} (h : isPlain name) : unspell? name = some name := by
  have hread := unspell?_spell name
  rwa [spell_of_isPlain h] at hread

theorem spelled_of_isPlain {name : String} (h : isPlain name) : Spelled name :=
  spell_of_isPlain h ▸ spelled_spell name

/-! ## Numbers -/

/-- A spelling that the scanner takes for a number. -/
structure NumberSpelled (spelling : String) : Prop where
  nonempty : spelling.toList ≠ []
  chars : ∀ c ∈ spelling.toList, isNumberChar c
  numeral : isNumeral spelling.toList

section Written

variable {cs : List Char} {d : Numeral.Decimal} (h : Numeral.Written cs d)

include h

theorem isNumberChar_of_written : ∀ c ∈ cs, isNumberChar c := by
  have hdigit : ∀ c : Char, c.isDigit → Token.isNumberChar c := fun c hc => by
    simp [Token.isNumberChar, hc]
  obtain ⟨tail, -, htail, rfl⟩ := h.text
  intro c hc
  simp only [List.mem_append] at hc
  rcases hc with (hc | hc) | hc
  · exact hdigit c (h.before c hc)
  · rw [Numeral.fraction] at hc
    split_ifs at hc
    · cases hc
    · rcases List.mem_cons.1 hc with rfl | hc
      · rfl
      · exact hdigit c (h.after c hc)
  · rcases htail c hc with hc | hc
    · exact hdigit c hc
    · simp only [List.mem_cons, List.not_mem_nil, or_false] at hc
      rcases hc with rfl | rfl | rfl <;> rfl

/-- A decimal of that kind is a number in JSON, with a minus sign or without. -/
theorem isNumeral_of_written : isNumeral cs ∧ isNumeral ('-' :: cs) := by
  have hparts : (isWhole d.before &&
      !((cs.drop d.before.length).head? = some '.' && d.after.isEmpty)) = true := by
    have hwhole : isWhole d.before := by
      rcases h.lead with hzero | hlead
      · rw [hzero]
        rfl
      · simp [isWhole, h.nonempty, hlead]
    rw [hwhole, Bool.true_and, Bool.not_eq_true', Bool.and_eq_false_imp]
    intro hpoint
    rw [List.isEmpty_eq_false_iff]
    intro hafter
    obtain ⟨tail, he, -, rfl⟩ := h.text
    rw [hafter, Numeral.fraction, if_pos rfl, List.append_nil, List.drop_left,
      decide_eq_true_eq] at hpoint
    obtain ⟨rest, rfl⟩ := List.head?_eq_some_iff.1 hpoint
    cases Numeral.mark_of_exponent? he <;> contradiction
  obtain ⟨c, rest, rfl, hc⟩ := h.head_isDigit
  have hsign : c ≠ '-' := by
    rintro rfl
    cases hc
  constructor
  · simp only [Token.isNumeral, List.head?_cons, Option.some.injEq, hsign, if_false, h.decimal?]
    exact hparts
  · simp only [Token.isNumeral, List.head?_cons, if_true, List.tail_cons, h.decimal?]
    exact hparts

end Written

theorem written_toDigits (n : Nat) :
    Numeral.Written (Nat.toDigits 10 n) ⟨Nat.toDigits 10 n, [], 0⟩ := by
  refine ⟨⟨[], rfl, nofun, ?_⟩, Nat.toDigits_ne_nil, isDigit_toDigits n, nofun, ?_⟩
  · simp [Numeral.fraction]
  · rcases Nat.eq_zero_or_pos n with rfl | hn
    · exact .inl rfl
    · exact .inr (head?_toDigits hn)

theorem numberSpelled_toString (n : Nat) : NumberSpelled (toString n) := by
  constructor <;> rw [toList_toString]
  · exact Nat.toDigits_ne_nil
  · exact isNumberChar_of_written (written_toDigits n)
  · exact (isNumeral_of_written (written_toDigits n)).1

theorem numberSpelled_text {x : Double} (hx : x.isFinite) :
    NumberSpelled (String.ofList (Shortest.text x)) := by
  obtain ⟨cs, d, htext, hd, -⟩ := Numeral.text_written hx
  obtain ⟨hpositive, hnegative⟩ := isNumeral_of_written hd
  have hchars := isNumberChar_of_written hd
  have hne : cs ≠ [] := by
    obtain ⟨c, rest, rfl, -⟩ := hd.head_isDigit
    exact List.cons_ne_nil _ _
  constructor <;> rw [String.toList_ofList, htext] <;> cases x.isNegative
  · simpa using hne
  · simp
  · simpa using hchars
  · simpa using ⟨rfl, hchars⟩
  · exact hpositive
  · exact hnegative

theorem natBelow?_ofNat {limit n : Nat} (h : n < limit) : natBelow? limit (ofNat n) = some n := by
  have hvalue : Numeral.value (Nat.toDigits 10 n) = n := Nat.ofDigitChars_ten_toDigits
  have hdigits : (Nat.toDigits 10 n).all Char.isDigit := List.all_eq_true.2 (isDigit_toDigits n)
  simp only [natBelow?, ofNat, toList_toString, hvalue]
  exact if_pos ⟨Nat.toDigits_ne_nil, hdigits, h⟩

theorem uint32?_ofUInt32 (n : UInt32) : uint32? (ofUInt32 n) = some n := by
  rw [uint32?, ofUInt32, natBelow?_ofNat n.toNat_lt, Option.map_some, UInt32.ofNat_toNat]

theorem uint64?_ofUInt64 (n : UInt64) : uint64? (ofUInt64 n) = some n := by
  rw [uint64?, ofUInt64, natBelow?_ofNat n.toNat_lt, Option.map_some, UInt64.ofNat_toNat]

theorem double?_ofDouble {x : Double} (hx : x.isFinite) : double? (ofDouble x) = some x := by
  rw [ofDouble, if_pos hx, double?, Numeral.double?_text hx]
  exact if_pos hx

end Tourney.Json
