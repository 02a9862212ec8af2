import Mathlib.Tactic
import Tourney.Uuid

/-!
# Identifiers read back

The text of an identifier is its 32 digits in groups; taking the hyphens out again
(`unhyphenate?_hyphenate`) and reading the digits (`mapM_hexDigit?_toDigits`) gives the identifier
back (`read?_text`).
-/

namespace Tourney.Uuid

/-! ## Digits -/

theorem hexDigit?_digitChar : ∀ d < 16, hexDigit? (Nat.digitChar d) = some d := by decide

theorem exists_digitChar {n : Nat} {c : Char} (hc : c ∈ Nat.toDigits 16 n) :
    ∃ d < 16, c = Nat.digitChar d := by
  induction n using Nat.strong_induction_on with
  | _ n ih =>
    by_cases hlt : n < 16
    · rw [Nat.toDigits_of_lt_base hlt, List.mem_singleton] at hc
      exact ⟨n, hlt, hc⟩
    · rw [Nat.toDigits_of_base_le (by decide) (by omega), List.mem_append,
        List.mem_singleton] at hc
      rcases hc with hc | hc
      · exact ih (n / 16) (by omega) hc
      · exact ⟨n % 16, by omega, hc⟩

theorem mapM_append_some {α β : Type} {f : α → Option β} {as as' : List α} {bs bs' : List β}
    (h : as.mapM f = some bs) (h' : as'.mapM f = some bs') :
    (as ++ as').mapM f = some (bs ++ bs') := by
  rw [List.mapM_append, h, h']
  rfl

theorem mapM_hexDigit?_toDigits (n : Nat) : ∃ ds, (Nat.toDigits 16 n).mapM hexDigit? = some ds ∧
    ds.foldl (fun n d => 16 * n + d) 0 = n := by
  induction n using Nat.strong_induction_on with
  | _ n ih =>
    by_cases hlt : n < 16
    · refine ⟨[n], ?_, by simp⟩
      rw [Nat.toDigits_of_lt_base hlt]
      simp [hexDigit?_digitChar n hlt]
    · obtain ⟨ds, hds, hvalue⟩ := ih (n / 16) (by omega)
      refine ⟨ds ++ [n % 16], ?_, ?_⟩
      · rw [Nat.toDigits_of_base_le (by decide) (by omega)]
        exact mapM_append_some hds (by simp [hexDigit?_digitChar (n % 16) (by omega)])
      · rw [List.foldl_append, hvalue, List.foldl_cons, List.foldl_nil]
        omega

theorem mapM_hexDigit?_zeros (k : Nat) :
    (List.replicate k '0').mapM hexDigit? = some (List.replicate k 0) := by
  induction k with
  | zero => rfl
  | succ k ih => rw [List.replicate_succ, List.mapM_cons, ih]; rfl

theorem foldl_zeros (k : Nat) :
    (List.replicate k 0).foldl (fun n d => 16 * n + d) 0 = 0 := by
  induction k with
  | zero => rfl
  | succ k ih => rw [List.replicate_succ, List.foldl_cons, ih]

theorem length_hexDigits (u : Uuid) : u.hexDigits.length = 32 := by
  have hlen := (Nat.length_toDigits_le_iff (show 1 < 16 by decide) (show 0 < 32 by decide)).2
    (show u.value.toNat < 16 ^ 32 from u.value.isLt)
  rw [hexDigits, List.length_append, List.length_replicate]
  omega

theorem ofHexDigits?_hexDigits (u : Uuid) : ofHexDigits? u.hexDigits = some u := by
  obtain ⟨ds, hds, hvalue⟩ := mapM_hexDigit?_toDigits u.value.toNat
  have hall := mapM_append_some (mapM_hexDigit?_zeros (32 - (Nat.toDigits 16 u.value.toNat).length))
    hds
  rw [ofHexDigits?, if_pos u.length_hexDigits, hexDigits, hall, Option.map_some,
    List.foldl_append, foldl_zeros, hvalue, BitVec.ofNat_toNat, BitVec.setWidth_eq]

/-! ## Groups -/

theorem unhyphenate?_hyphenate {ns : List Nat} {cs : List Char} (hns : ns ≠ [])
    (h : cs.length = ns.sum) : unhyphenate? ns (hyphenate ns cs) = some cs := by
  induction ns generalizing cs with
  | nil => exact absurd rfl hns
  | cons n ns ih =>
    cases ns with
    | nil => simp_all [hyphenate, unhyphenate?]
    | cons n' ns =>
      rw [List.sum_cons] at h
      have htake : (cs.take n).length = n := by
        rw [List.length_take]
        omega
      have hlen : (cs.drop n).length = (n' :: ns).sum := by
        rw [List.length_drop]
        omega
      have hrest := ih nofun hlen
      rw [hyphenate, unhyphenate?, List.drop_left' htake, List.take_left' htake]
      · simp [hrest]
      · exact nofun
      · exact nofun

theorem length_hyphenate {cs : List Char} (h : cs.length = 32) :
    (hyphenate groups cs).length = 36 := by
  simp only [groups, hyphenate, List.length_append, List.length_cons, List.length_take,
    List.length_drop]
  omega

/-- An identifier starts with a digit, so neither with a brace nor as a URN does. -/
theorem exists_text (u : Uuid) :
    ∃ c cs, u.text = c :: cs ∧ c ≠ '\x7b' ∧ c.toLower ≠ 'u' := by
  have happart : ∀ d < 16, Nat.digitChar d ≠ '\x7b' ∧ (Nat.digitChar d).toLower ≠ 'u' := by decide
  have hdigit : ∀ c ∈ u.hexDigits, ∃ d < 16, c = Nat.digitChar d := fun c hc => by
    rcases List.mem_append.1 hc with hc | hc
    · exact ⟨0, by decide, (List.mem_replicate.1 hc).2⟩
    · exact exists_digitChar hc
  obtain ⟨c, cs, hcs⟩ : ∃ c cs, u.hexDigits = c :: cs := List.exists_cons_of_length_pos
    (by rw [length_hexDigits]; decide)
  obtain ⟨d, hd, rfl⟩ := hdigit c (by rw [hcs]; exact List.mem_cons_self)
  exact ⟨_, _, by rw [text, hcs]; rfl, happart d hd⟩

theorem read?_text (u : Uuid) : read? (String.ofList u.text) = some u := by
  obtain ⟨c, cs, hcs, hbrace, hurn⟩ := u.exists_text
  have hlen : u.text.length = 36 := length_hyphenate u.length_hexDigits
  have hnone : afterUrn? u.text = none := by
    have hprefix : urn = 'u' :: "rn:uuid:".toList := by decide
    rw [afterUrn?, hcs, List.map_cons, hprefix, List.isPrefixOf, if_neg]
    simp [Ne.symm hurn]
  have hbare : ¬(u.text.head? = some '\x7b' ∧ u.text.getLast? = some '\x7d') := by
    rw [hcs]
    exact fun h => hbrace (Option.some.inj h.1)
  have hgroups : unhyphenate? groups u.text = some u.hexDigits :=
    unhyphenate?_hyphenate nofun u.length_hexDigits
  have hne : ¬u.text.length = 32 := by
    rw [hlen]
    decide
  simp only [read?, String.toList_ofList, if_neg hne, if_neg hbare, hnone, Option.getD_none,
    hgroups, Option.bind_some, ofHexDigits?_hexDigits]

end Tourney.Uuid
