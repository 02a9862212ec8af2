import Tourney.Json.Printer
import Tourney.Proofs.Json.Spelling

/-!
# What is printed is read back

The tokens of a value (`tokens`) are what the scanner makes of its lines (`scan_lines`), and what
the reader puts together to that value again (`readValue_tokens`). So a value whose spellings the
scanner understands is read from its print (`read?_pretty`).
-/

namespace Tourney.Json

open Token

/-- A value whose spellings the scanner understands. -/
inductive WellSpelled : Json → Prop
  | null : WellSpelled .null
  | bool (b : Bool) : WellSpelled (.bool b)
  | number (spelling : String) (h : NumberSpelled spelling) : WellSpelled (.number spelling)
  | text (spelling : String) (h : Spelled spelling) : WellSpelled (.text spelling)
  | array (items : List Json) (h : ∀ v ∈ items, WellSpelled v) : WellSpelled (.array items)
  | object (entries : List (String × Json)) (hnames : ∀ e ∈ entries, Spelled e.1)
      (h : ∀ e ∈ entries, WellSpelled e.2) : WellSpelled (.object entries)

/-! ## Tokens -/

mutual

/-- The tokens of a value. -/
def tokens : Json → List Token
  | .null => [.null]
  | .bool b => [.bool b]
  | .number spelling => [.number spelling]
  | .text spelling => [.text spelling]
  | .array [] => [.openArray, .closeArray]
  | .array (v :: vs) => .openArray :: tokens v ++ itemTokens vs ++ [.closeArray]
  | .object [] => [.openObject, .closeObject]
  | .object ((name, v) :: es) =>
    .openObject :: .text name :: .colon :: tokens v ++ entryTokens es ++ [.closeObject]

def itemTokens : List Json → List Token
  | [] => []
  | v :: vs => .comma :: tokens v ++ itemTokens vs

def entryTokens : List (String × Json) → List Token
  | [] => []
  | (name, v) :: es => .comma :: .text name :: .colon :: tokens v ++ entryTokens es

end

/-! ## Scanning -/

/-- A character that a number or a word goes on with. -/
def isRunChar (c : Char) : Bool := isNumberChar c || c.isAlpha

section Scan

variable {c : Char} {cs rest : List Char}

theorem scan_space (h : isSpace c) : scan (c :: rest) = scan rest := by
  rw [scan]
  simp only [h, if_true]

theorem scan_punctuation {t : Token} (hs : isSpace c = false) (h : punctuation? c = some t) :
    scan (c :: rest) = (scan rest).map (t :: ·) := by
  rw [scan]
  simp only [hs, h, Bool.false_eq_true, if_false]

theorem scan_indent (depth : Nat) : scan (indent depth ++ rest) = scan rest := by
  have hblanks : ∀ n, scan (List.replicate n ' ' ++ rest) = scan rest := fun n => by
    induction n with
    | zero => rfl
    | succ n ih =>
      rw [List.replicate_succ, List.cons_append, scan_space rfl]
      exact ih
  rw [indent, List.cons_append, scan_space rfl]
  exact hblanks _

theorem scan_quoted {spelling : String} (h : Spelled spelling) :
    scan ('"' :: spelling.toList ++ '"' :: rest) = (scan rest).map (.text spelling :: ·) := by
  rw [List.cons_append, scan]
  have hs : isSpace '"' = false := by decide
  have hp : punctuation? '"' = none := by decide
  simp only [hs, hp, Bool.false_eq_true, if_false, if_true]
  split
  · rename_i hnone
    rw [h rest] at hnone
    cases hnone
  · rename_i s rest' hsome
    rw [h rest] at hsome
    cases hsome
    rw [String.ofList_toList]

/-- The name of an entry, up to its value. -/
theorem scan_name {name : String} (h : Spelled name) :
    scan ('"' :: (name.toList ++ '"' :: ':' :: ' ' :: rest)) =
      (scan rest).map (.text name :: .colon :: ·) := by
  have hcolon : scan (':' :: ' ' :: rest) = (scan rest).map (.colon :: ·) := by
    rw [scan_punctuation rfl rfl, scan_space rfl]
  rw [← List.cons_append, scan_quoted h, hcolon, Option.map_map]
  rfl

theorem isNumberChar_apart (h : isNumberChar c) :
    isSpace c = false ∧ punctuation? c = none ∧ c ≠ '"' := by
  refine ⟨?_, ?_, ?_⟩
  · by_contra hs
    simp only [isSpace, Bool.not_eq_false, Bool.or_eq_true, decide_eq_true_eq] at hs
    rcases hs with ((rfl | rfl) | rfl) | rfl <;> revert h <;> decide
  · unfold punctuation?
    split <;> first | rfl | (revert h; decide)
  · rintro rfl
    revert h
    decide

theorem scan_number {spelling : String} (h : NumberSpelled spelling)
    (hstop : Stops isRunChar rest) :
    scan (spelling.toList ++ rest) = (scan rest).map (.number spelling :: ·) := by
  have hstop' : Stops isNumberChar rest := fun c hc => (Bool.or_eq_false_iff.1 (hstop c hc)).1
  obtain ⟨c, cs, hcs⟩ := List.exists_cons_of_ne_nil h.nonempty
  have hchars := h.chars
  rw [hcs] at hchars ⊢
  have hc := hchars c List.mem_cons_self
  have hrest : ∀ d ∈ cs, isNumberChar d := fun d hd => hchars d (List.mem_cons_of_mem _ hd)
  obtain ⟨hs, hp, hq⟩ := isNumberChar_apart hc
  rw [List.cons_append, scan]
  simp only [hs, hp, hq, hc, Bool.false_eq_true, if_false, if_true,
    takeWhile_append_stop hrest hstop', dropWhile_append_stop hrest hstop', ← hcs, h.numeral,
    String.ofList_toList]

theorem scan_word {t : Token} (hs : isSpace c = false) (hp : punctuation? c = none) (hq : c ≠ '"')
    (hn : isNumberChar c = false) (hcs : ∀ d ∈ cs, d.isAlpha)
    (hword : word? (String.ofList (c :: cs)) = some t) (hstop : Stops isRunChar rest) :
    scan (c :: cs ++ rest) = (scan rest).map (t :: ·) := by
  have hstop' : Stops Char.isAlpha rest := fun c hc => (Bool.or_eq_false_iff.1 (hstop c hc)).2
  rw [List.cons_append, scan]
  simp only [hs, hp, hq, hn, Bool.false_eq_true, if_false, takeWhile_append_stop hcs hstop',
    dropWhile_append_stop hcs hstop', hword]

theorem stops_indent (depth : Nat) : Stops isRunChar (indent depth ++ rest) :=
  stops_cons (by decide)

theorem stops_itemLines (depth : Nat) (vs : List Json) (h : Stops isRunChar rest) :
    Stops isRunChar (itemLines depth vs ++ rest) := by
  cases vs with
  | nil => exact h
  | cons v vs => exact stops_cons (by decide)

theorem stops_entryLines (depth : Nat) (es : List (String × Json)) (h : Stops isRunChar rest) :
    Stops isRunChar (entryLines depth es ++ rest) := by
  cases es with
  | nil => exact h
  | cons e es => exact stops_cons (by decide)

end Scan

mutual

/-- The scanner makes the tokens of a value of its lines. -/
theorem scan_lines (depth : Nat) (j : Json) (h : WellSpelled j) (rest : List Char)
    (hstop : Stops isRunChar rest) :
    scan (lines depth j ++ rest) = (scan rest).map (tokens j ++ ·) := by
  match j with
  | .null =>
    exact scan_word rfl rfl (by decide) rfl (List.all_eq_true.1 rfl) rfl hstop
  | .bool true =>
    exact scan_word rfl rfl (by decide) rfl (List.all_eq_true.1 rfl) rfl hstop
  | .bool false =>
    exact scan_word rfl rfl (by decide) rfl (List.all_eq_true.1 rfl) rfl hstop
  | .number spelling =>
    cases h with
    | number _ h => exact scan_number h hstop
  | .text spelling =>
    cases h with
    | text _ h =>
      rw [lines, List.append_assoc, List.singleton_append]
      exact scan_quoted h
  | .array [] =>
    rw [lines, List.cons_append, List.singleton_append, scan_punctuation rfl rfl,
      scan_punctuation rfl rfl, Option.map_map]
    rfl
  | .array (v :: vs) =>
    cases h with
    | array _ h =>
      have hv := scan_lines (depth + 1) v (h v List.mem_cons_self)
      have hvs := scan_itemLines (depth + 1) vs fun a ha => h a (List.mem_cons_of_mem _ ha)
      simp only [lines, tokens, List.append_assoc, List.cons_append, List.nil_append]
      rw [scan_punctuation rfl rfl, scan_indent, hv _ (stops_itemLines _ _ (stops_indent _)),
        hvs _ (stops_indent _), scan_indent, scan_punctuation rfl rfl]
      simp only [Option.map_map, Function.comp_def]
  | .object [] =>
    rw [lines, List.cons_append, List.singleton_append, scan_punctuation rfl rfl,
      scan_punctuation rfl rfl, Option.map_map]
    rfl
  | .object ((name, v) :: es) =>
    cases h with
    | object _ hnames h =>
      have hname := hnames _ List.mem_cons_self
      have hv := scan_lines (depth + 1) v (h _ List.mem_cons_self)
      have hes := scan_entryLines (depth + 1) es
        (fun a ha => hnames a (List.mem_cons_of_mem _ ha))
        fun a ha => h a (List.mem_cons_of_mem _ ha)
      simp only [lines, tokens, List.append_assoc, List.cons_append, List.nil_append]
      rw [scan_punctuation rfl rfl, scan_indent, scan_name hname,
        hv _ (stops_entryLines _ _ (stops_indent _)), hes _ (stops_indent _), scan_indent,
        scan_punctuation rfl rfl]
      simp only [Option.map_map, Function.comp_def]

theorem scan_itemLines (depth : Nat) (vs : List Json) (h : ∀ v ∈ vs, WellSpelled v)
    (rest : List Char) (hstop : Stops isRunChar rest) :
    scan (itemLines depth vs ++ rest) = (scan rest).map (itemTokens vs ++ ·) := by
  match vs with
  | [] => simp [itemLines, itemTokens]
  | v :: vs =>
    have hv := scan_lines depth v (h v List.mem_cons_self)
    have hvs := scan_itemLines depth vs fun a ha => h a (List.mem_cons_of_mem _ ha)
    simp only [itemLines, itemTokens, List.append_assoc, List.cons_append]
    rw [scan_punctuation rfl rfl, scan_indent, hv _ (stops_itemLines _ _ hstop), hvs _ hstop]
    simp only [Option.map_map, Function.comp_def]

theorem scan_entryLines (depth : Nat) (es : List (String × Json))
    (hnames : ∀ e ∈ es, Spelled e.1) (h : ∀ e ∈ es, WellSpelled e.2)
    (rest : List Char) (hstop : Stops isRunChar rest) :
    scan (entryLines depth es ++ rest) = (scan rest).map (entryTokens es ++ ·) := by
  match es with
  | [] => simp [entryLines, entryTokens]
  | (name, v) :: es =>
    have hname := hnames _ List.mem_cons_self
    have hv := scan_lines depth v (h _ List.mem_cons_self)
    have hes := scan_entryLines depth es (fun a ha => hnames a (List.mem_cons_of_mem _ ha))
      fun a ha => h a (List.mem_cons_of_mem _ ha)
    simp only [entryLines, entryTokens, List.append_assoc, List.cons_append]
    rw [scan_punctuation rfl rfl, scan_indent, scan_name hname,
      hv _ (stops_entryLines _ _ hstop), hes _ hstop]
    simp only [Option.map_map, Function.comp_def]

end

/-! ## Reading -/

/-- No value starts with a closing bracket. -/
theorem exists_tokens (j : Json) : ∃ t ts, tokens j = t :: ts ∧ t ≠ .closeArray := by
  match j with
  | .null => exact ⟨_, _, rfl, nofun⟩
  | .bool b => exact ⟨_, _, rfl, nofun⟩
  | .number s => exact ⟨_, _, rfl, nofun⟩
  | .text s => exact ⟨_, _, rfl, nofun⟩
  | .array [] => exact ⟨_, _, rfl, nofun⟩
  | .array (v :: vs) => exact ⟨_, _, rfl, nofun⟩
  | .object [] => exact ⟨_, _, rfl, nofun⟩
  | .object ((name, v) :: es) => exact ⟨_, _, rfl, nofun⟩

theorem readValue_openArray {t : Token} (h : t ≠ .closeArray) (stack : List Frame)
    (ts : List Token) :
    readValue stack (.openArray :: t :: ts) = readValue (.array [] :: stack) (t :: ts) := by
  rw [readValue]
  rintro ts' hts
  exact h (List.cons.inj hts).1

mutual

/-- The reader puts the tokens of a value together again. -/
theorem readValue_tokens (j : Json) (stack : List Frame) (ts : List Token) :
    readValue stack (tokens j ++ ts) = readAfter stack j ts := by
  match j with
  | .null => rfl
  | .bool b => rfl
  | .number s => rfl
  | .text s => rfl
  | .array [] => rfl
  | .array (v :: vs) =>
    obtain ⟨t, ts', hv, hne⟩ := exists_tokens v
    have hread := readValue_tokens v (.array [] :: stack) (itemTokens vs ++ .closeArray :: ts)
    rw [hv, List.cons_append] at hread
    simp only [tokens, List.append_assoc, List.cons_append, List.nil_append, hv]
    rw [readValue_openArray hne, hread, readAfter_itemTokens]
    rfl
  | .object [] => rfl
  | .object ((name, v) :: es) =>
    simp only [tokens, List.append_assoc, List.cons_append, List.nil_append]
    rw [readValue, readValue_tokens v, readAfter_entryTokens]
    rfl

theorem readAfter_itemTokens (vs : List Json) (v : Json) (items : List Json) (stack : List Frame)
    (ts : List Token) :
    readAfter (.array items :: stack) v (itemTokens vs ++ .closeArray :: ts) =
      readAfter stack (.array (items.reverse ++ v :: vs)) ts := by
  match vs with
  | [] =>
    rw [itemTokens, List.nil_append, readAfter, List.reverse_cons]
  | v' :: vs =>
    simp only [itemTokens, List.append_assoc, List.cons_append]
    rw [readAfter, readValue_tokens v', readAfter_itemTokens vs, List.reverse_cons,
      List.append_assoc]
    rfl

theorem readAfter_entryTokens (es : List (String × Json)) (name : String) (v : Json)
    (entries : List (String × Json)) (stack : List Frame) (ts : List Token) :
    readAfter (.object entries name :: stack) v (entryTokens es ++ .closeObject :: ts) =
      readAfter stack (.object (entries.reverse ++ (name, v) :: es)) ts := by
  match es with
  | [] =>
    rw [entryTokens, List.nil_append, readAfter, List.reverse_cons]
  | (name', v') :: es =>
    simp only [entryTokens, List.append_assoc, List.cons_append]
    rw [readAfter, readValue_tokens v', readAfter_entryTokens es, List.reverse_cons,
      List.append_assoc]
    rfl

end

/-- A value whose spellings the scanner understands is read from its print. -/
theorem read?_pretty {j : Json} (h : WellSpelled j) : read? j.pretty = some j := by
  have hscan := scan_lines 0 j h [] stops_nil
  have hread := readValue_tokens j [] []
  rw [List.append_nil] at hscan hread
  rw [read?, pretty, String.toList_ofList, hscan, scan, Option.map_some, Option.bind_some,
    List.append_nil, hread]
  rfl

end Tourney.Json
