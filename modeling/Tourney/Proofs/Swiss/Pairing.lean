import Mathlib.Data.List.Perm.Basic
import Tourney.Swiss.Pairing

/-!
# Pairings leave nobody out

What is said of a search is proved step by step, of the search and its partner searches at once
(`search_induction`). Whether it is found by search or paired greedily, a pairing is dealt out from
the top of the table down (`exists_dealt`), so it has everybody once, in a pair or as the one who
sits out (`pairNextRound_perm`).
-/

namespace Tourney.Swiss

section Pairs

variable {α : Type} {met : α → α → Bool}

/-- The players of some pairs. -/
def paired (pairs : List (α × α)) : List α := pairs.flatMap fun (a, b) => [a, b]

theorem paired_cons (a b : α) (pairs : List (α × α)) :
    paired ((a, b) :: pairs) = a :: b :: paired pairs := rfl

theorem length_paired (pairs : List (α × α)) : (paired pairs).length = 2 * pairs.length := by
  induction pairs with
  | nil => rfl
  | cons p pairs ih =>
    rw [paired_cons, List.length_cons, List.length_cons, ih, List.length_cons]
    omega

/-- A pairing written from the top down: the best player left leads the next pair. -/
inductive Dealt : List α → List (α × α) → Prop
  | nil : Dealt [] []
  | pair {top partner : α} {rest before after : List α} {pairs : List (α × α)}
      (hrest : rest = before ++ partner :: after) (h : Dealt (before ++ after) pairs) :
      Dealt (top :: rest) ((top, partner) :: pairs)

theorem Dealt.perm {field : List α} {pairs : List (α × α)} (h : Dealt field pairs) :
    (paired pairs).Perm field := by
  induction h with
  | nil => exact .nil
  | pair hrest h ih => exact hrest ▸ .cons _ ((ih.cons _).trans List.perm_middle.symm)

/-- Whatever every step of a search passes on holds of the search and what comes of it. The partner
search of a player has passed over `passed` and still has `rest` before it. -/
theorem search_induction {P : Nat → List α → Nat × Option (List (α × α)) → Prop}
    {Q : Nat → α → List α → List α → Nat × Option (List (α × α)) → Prop}
    (empty : ∀ budget, P budget [] (budget, some []))
    (lead : ∀ budget top rest r, Q budget top [] rest r → P budget (top :: rest) r)
    (nobody : ∀ budget top passed, Q budget top passed [] (budget, none))
    (spent : ∀ top passed next rest, Q 0 top passed (next :: rest) (0, none))
    (old : ∀ budget top passed next rest r, met top next = true →
      Q budget top (next :: passed) rest r → Q (budget + 1) top passed (next :: rest) r)
    (found : ∀ budget top passed next rest left pairs, met top next = false →
      P budget (passed.reverse ++ rest) (left, some pairs) →
      Q (budget + 1) top passed (next :: rest) (left, some ((top, next) :: pairs)))
    (failed : ∀ budget top passed next rest left r, met top next = false →
      search met budget (passed.reverse ++ rest) = (left, none) →
      P budget (passed.reverse ++ rest) (left, none) →
      searchPartner met left top (next :: passed) rest = r →
      Q left top (next :: passed) rest r → Q (budget + 1) top passed (next :: rest) r)
    (budget : Nat) (field : List α) : P budget field (search met budget field) := by
  refine search.induct met (fun budget field => P budget field (search met budget field))
    (fun budget top passed rest =>
      Q budget top passed rest (searchPartner met budget top passed rest))
    ?empty ?lead ?nobody ?spent ?old ?found ?failed budget field
  case empty =>
    intro budget
    rw [search]
    exact empty budget
  case lead =>
    intro budget top rest ih
    rw [search]
    exact lead budget top rest _ ih
  case nobody =>
    intro budget top passed
    rw [searchPartner]
    exact nobody budget top passed
  case spent =>
    intro top passed next rest
    rw [searchPartner, if_pos rfl]
    exact spent top passed next rest
  case old =>
    intro budget top passed next rest hb hm ih
    obtain ⟨budget, rfl⟩ := Nat.exists_eq_succ_of_ne_zero hb
    rw [searchPartner, if_neg hb, if_pos hm]
    exact old budget top passed next rest _ hm ih
  case found =>
    intro budget top passed next rest hb hm left pairs hs ih
    obtain ⟨budget, rfl⟩ := Nat.exists_eq_succ_of_ne_zero hb
    rw [searchPartner, if_neg hb, if_neg hm, hs]
    exact found budget top passed next rest left pairs (by simpa using hm) (hs ▸ ih)
  case failed =>
    intro budget top passed next rest hb hm left hs ih₁ ih₂
    obtain ⟨budget, rfl⟩ := Nat.exists_eq_succ_of_ne_zero hb
    rw [searchPartner, if_neg hb, if_neg hm, hs]
    exact failed budget top passed next rest left _ (by simpa using hm) hs (hs ▸ ih₁) rfl ih₂

/-- What a search finds is dealt out from the top down, and no leader has met the partner. -/
theorem dealt_of_search {budget : Nat} {field : List α} {pairs : List (α × α)}
    (h : (search met budget field).2 = some pairs) :
    Dealt field pairs ∧ ∀ p ∈ pairs, met p.1 p.2 = false := by
  refine search_induction
    (P := fun _ field r => ∀ pairs, r.2 = some pairs →
      Dealt field pairs ∧ ∀ p ∈ pairs, met p.1 p.2 = false)
    (Q := fun _ top passed rest r => ∀ pairs, r.2 = some pairs →
      Dealt (top :: (passed.reverse ++ rest)) pairs ∧ ∀ p ∈ pairs, met p.1 p.2 = false)
    ?empty ?lead ?nobody ?spent ?old ?found ?failed budget field pairs h
  case empty =>
    rintro _ _ ⟨⟩
    exact ⟨.nil, by simp⟩
  case lead => exact fun _ _ _ _ ih => ih
  case nobody => exact fun _ _ _ _ h => nomatch h
  case spent => exact fun _ _ _ _ _ h => nomatch h
  case old => exact fun _ _ _ _ _ _ _ ih pairs h => by simpa using ih pairs h
  case found =>
    rintro _ top passed next rest _ others hnew ih _ ⟨⟩
    obtain ⟨hdealt, hunmet⟩ := ih others rfl
    exact ⟨.pair rfl hdealt, List.forall_mem_cons.2 ⟨hnew, hunmet⟩⟩
  case failed => exact fun _ _ _ _ _ _ _ _ _ _ _ ih pairs h => by simpa using ih pairs h

theorem greedyPartner_lt {top : α} {rest : List α} (h : rest ≠ []) :
    greedyPartner met top rest < rest.length := by
  unfold greedyPartner
  rcases hf : rest.findIdx? fun b => !met top b with _ | i
  · exact List.length_pos_iff.2 h
  · exact (List.findIdx?_eq_some_iff_findIdx_eq.1 hf).1

theorem eq_nil_of_greedyPartner {top : α} {rest : List α}
    (h : rest[greedyPartner met top rest]? = none) : rest = [] := by
  by_contra hne
  exact absurd (List.getElem?_eq_none_iff.1 h) (Nat.not_le.2 (greedyPartner_lt hne))

/-- The greedy pairing of an even field is dealt out from the top down as well. -/
theorem greedy_dealt {field : List α} (h : field.length % 2 = 0) :
    Dealt field (greedy met field) := by
  induction field using greedy.induct met with
  | case1 =>
    rw [greedy]
    exact .nil
  | case2 top rest partner hp ih =>
    obtain ⟨hlt, rfl⟩ := List.getElem?_eq_some_iff.1 hp
    have hlen := List.length_eraseIdx_of_lt hlt
    rw [List.length_cons] at h
    have hrest := ih (by omega)
    rw [greedy, hp]
    rw [List.eraseIdx_eq_take_drop_succ] at hrest ⊢
    exact .pair (by simp) hrest
  | case3 top rest hp =>
    obtain rfl := eq_nil_of_greedyPartner hp
    simp at h

end Pairs

/-! ## Sitting out -/

theorem foldl_min_mem (ss : List Standing) (n : Nat) :
    ss.foldl (fun n s => min n s.byes.toNat) n = n ∨
      ∃ s ∈ ss, s.byes.toNat = ss.foldl (fun n s => min n s.byes.toNat) n := by
  induction ss generalizing n with
  | nil => exact .inl rfl
  | cons s ss ih =>
    rw [List.foldl_cons]
    rcases ih (min n s.byes.toNat) with h | ⟨t, ht, hb⟩
    · rw [h]
      rcases Nat.le_total n s.byes.toNat with hle | hle
      · exact .inl (Nat.min_eq_left hle)
      · exact .inr ⟨s, List.mem_cons_self, (Nat.min_eq_right hle).symm⟩
    · exact .inr ⟨t, List.mem_cons_of_mem _ ht, hb⟩

/-- Somebody has the fewest byes. -/
theorem exists_fewestByes {ss : List Standing} (h : ss ≠ []) :
    ∃ s ∈ ss, s.byes.toNat = fewestByes ss := by
  cases ss with
  | nil => exact absurd rfl h
  | cons s ss =>
    rcases foldl_min_mem ss s.byes.toNat with hm | ⟨t, ht, hb⟩
    · exact ⟨s, List.mem_cons_self, hm.symm⟩
    · exact ⟨t, List.mem_cons_of_mem _ ht, hb⟩

theorem byeChoices_ne_nil (field : List Standing) : byeChoices field ≠ [] := by
  unfold byeChoices
  split_ifs with h
  · simp
  · have hne : field ≠ [] := by
      rintro rfl
      simp at h
    obtain ⟨s, hs, hb⟩ := exists_fewestByes hne
    obtain ⟨i, hi, rfl⟩ := List.getElem_of_mem hs
    have hmem : (field[i], i) ∈ field.zipIdx.reverse :=
      List.mem_reverse.2 (List.mk_mem_zipIdx_iff_getElem?.2 (List.getElem?_eq_getElem hi))
    intro hnil
    have hnone := List.map_eq_nil_iff.1 hnil
    rw [List.filter_eq_nil_iff] at hnone
    exact absurd (hnone _ hmem) (by simp [hb])

/-- A choice takes at most one player out, and leaves an even field. -/
theorem of_mem_byeChoices {field rest : List Standing} {bye : Option Standing}
    (h : (bye, rest) ∈ byeChoices field) :
    (bye.toList ++ rest).Perm field ∧ rest.length % 2 = 0 := by
  unfold byeChoices at h
  split_ifs at h with heven
  · simp only [List.mem_singleton, Prod.mk.injEq] at h
    obtain ⟨rfl, rfl⟩ := h
    exact ⟨.refl _, heven⟩
  · obtain ⟨⟨s, i⟩, hmem, heq⟩ := List.mem_map.1 h
    simp only [Prod.mk.injEq] at heq
    obtain ⟨rfl, rfl⟩ := heq
    have hs := List.mem_reverse.1 (List.mem_filter.1 hmem).1
    obtain ⟨hi, rfl⟩ := List.getElem?_eq_some_iff.1 (List.mk_mem_zipIdx_iff_getElem?.1 hs)
    have hlen := List.length_eraseIdx_of_lt hi
    exact ⟨List.getElem_cons_eraseIdx_perm hi, by omega⟩

/-! ## The pairing of a round -/

/-- Everybody in a pairing. -/
def Pairing.field (p : Pairing) : List Player := paired p.pairs ++ p.bye.toList

theorem field_toPairing {pairs : List (Standing × Standing)} {bye : Option Standing} {b : Bool} :
    (toPairing pairs bye b).field = (paired pairs ++ bye.toList).map Standing.player := by
  rw [Pairing.field, toPairing, List.map_append]
  congr 1
  · simp [paired, List.map_flatMap, List.flatMap_map]
  · cases bye <;> rfl

theorem firstFresh?_eq_some {choices : List (Option Standing × List Standing)} {p : Pairing}
    (h : firstFresh? choices = some p) : ∃ c ∈ choices, ∃ pairs,
      (search met searchBudget c.2).2 = some pairs ∧ p = toPairing pairs c.1 false := by
  induction choices with
  | nil => cases h
  | cons c choices ih =>
    rw [firstFresh?] at h
    split at h
    · rename_i pairs hs
      exact ⟨c, List.mem_cons_self, pairs, hs, (Option.some.inj h).symm⟩
    · obtain ⟨d, hd, hrest⟩ := ih h
      exact ⟨d, List.mem_cons_of_mem _ hd, hrest⟩

/-- Whether a search succeeds or none does, the round is a choice of who sits out and the rest dealt
out from the top down, and it says whether a leader has met the partner. -/
theorem exists_dealt (ss : List Standing) : ∃ c ∈ byeChoices (ranked ss), ∃ pairs,
    Dealt c.2 pairs ∧
      pairNextRound ss = toPairing pairs c.1 (pairs.any fun p => met p.1 p.2) := by
  rw [pairNextRound]
  rcases hf : firstFresh? (byeChoices (ranked ss)) with _ | p
  · rcases hc : byeChoices (ranked ss) with _ | ⟨c, choices⟩
    · exact absurd hc (byeChoices_ne_nil _)
    · have hmem : c ∈ byeChoices (ranked ss) := hc ▸ List.mem_cons_self
      exact ⟨c, List.mem_cons_self, _, greedy_dealt (of_mem_byeChoices hmem).2, rfl⟩
  · obtain ⟨c, hc, pairs, hs, rfl⟩ := firstFresh?_eq_some hf
    obtain ⟨hdealt, hunmet⟩ := dealt_of_search hs
    refine ⟨c, hc, pairs, hdealt, ?_⟩
    rw [Option.getD_some, List.any_eq_false.2 fun p hp => by simp [hunmet p hp]]

/-- A pairing has everybody once. -/
theorem pairNextRound_perm (ss : List Standing) :
    (pairNextRound ss).field.Perm (ss.map Standing.player) := by
  obtain ⟨c, hc, pairs, hpairs, heq⟩ := exists_dealt ss
  have hranked : (ranked ss).Perm ss := List.mergeSort_perm ..
  rw [heq, field_toPairing]
  refine List.Perm.map _ (((hpairs.perm.append_right _).trans ?_).trans hranked)
  exact List.perm_append_comm.trans (of_mem_byeChoices hc).1

end Tourney.Swiss
