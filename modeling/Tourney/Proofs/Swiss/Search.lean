import Mathlib.Order.Monotone.Basic
import Tourney.Proofs.Swiss.Pairing

/-!
# What a search finds

If a field can be dealt out into pairs that have not met at all, a search that comes back with
nothing has used up its budget (`search_complete`), which a small field never does (`search_pos`).
So unless a search gives up, the first round that can be paired without a rematch is the one that is
played (`exists_fresh_pairing`).
-/

namespace Tourney.Swiss

section Search

variable {α : Type} {met : α → α → Bool}

/-- Nobody in these pairs has met, whichever of the two is asked. -/
def Fresh (met : α → α → Bool) (pairs : List (α × α)) : Prop :=
  ∀ p ∈ pairs, met p.1 p.2 = false ∧ met p.2 p.1 = false

/-- The field can be dealt out into pairs that have not met. -/
def Pairable (met : α → α → Bool) (field : List α) : Prop :=
  ∃ pairs, (paired pairs).Perm field ∧ Fresh met pairs

theorem paired_append (ps qs : List (α × α)) : paired (ps ++ qs) = paired ps ++ paired qs :=
  List.flatMap_append

theorem paired_middle (ps qs : List (α × α)) (a b : α) :
    (paired (ps ++ (a, b) :: qs)).Perm (a :: b :: paired (ps ++ qs)) := by
  rw [paired_append, paired_cons, paired_append]
  exact List.perm_middle.trans (List.perm_middle.cons a)

/-- The first player has a partner who leaves the others a pairing. -/
theorem Pairable.exists_partner {top : α} {rest : List α} (h : Pairable met (top :: rest)) :
    ∃ pre b post, rest = pre ++ b :: post ∧ met top b = false ∧ Pairable met (pre ++ post) := by
  obtain ⟨pairs, hperm, hfresh⟩ := h
  have key : ∀ {b : α} {others : List (α × α)}, (paired pairs).Perm (top :: b :: paired others) →
      met top b = false → Fresh met others →
      ∃ pre b post, rest = pre ++ b :: post ∧ met top b = false ∧ Pairable met (pre ++ post) := by
    intro b others hsplit hb hothers
    have hrest : (b :: paired others).Perm rest := (hsplit.symm.trans hperm).cons_inv
    obtain ⟨pre, post, rfl⟩ := List.append_of_mem (hrest.mem_iff.1 List.mem_cons_self)
    exact ⟨pre, b, post, rfl, hb, others, (hrest.trans List.perm_middle).cons_inv, hothers⟩
  obtain ⟨⟨a, b⟩, hmem, htop⟩ := List.mem_flatMap.1 (hperm.mem_iff.2 List.mem_cons_self)
  obtain ⟨ps, qs, rfl⟩ := List.append_of_mem hmem
  have hothers : Fresh met (ps ++ qs) := fun p hp => hfresh p (by
    rcases List.mem_append.1 hp with hp | hp
    · exact List.mem_append_left _ hp
    · exact List.mem_append_right _ (List.mem_cons_of_mem _ hp))
  obtain ⟨hab, hba⟩ := hfresh (a, b) hmem
  rcases List.mem_cons.1 htop with rfl | htop
  · exact key (paired_middle ps qs top b) hab hothers
  · obtain rfl := List.mem_singleton.1 htop
    exact key ((paired_middle ps qs a top).trans (.swap ..)) hba hothers

theorem searchPartner_zero (top : α) (passed rest : List α) :
    searchPartner met 0 top passed rest = (0, none) := by
  cases rest <;> rw [searchPartner]
  rw [if_pos rfl]

/-- A search that finds nothing where there is something has no budget left. -/
theorem search_complete {budget : Nat} {field : List α} (hp : Pairable met field)
    (h : (search met budget field).2 = none) : (search met budget field).1 = 0 := by
  -- a partner search fails a player who has yet to be offered a partner that leaves a pairing
  refine search_induction (P := fun _ field r => Pairable met field → r.2 = none → r.1 = 0)
    (Q := fun _ top passed rest r => (∃ pre b post, rest = pre ++ b :: post ∧ met top b = false ∧
      Pairable met (passed.reverse ++ (pre ++ post))) → r.2 = none → r.1 = 0)
    ?empty ?lead ?nobody ?spent ?old ?found ?failed budget field hp h
  case empty => exact fun _ _ h => nomatch h
  case lead => exact fun _ _ _ _ ih hp => ih hp.exists_partner
  case nobody =>
    rintro budget top passed ⟨pre, b, post, heq, -⟩
    simp at heq
  case spent => exact fun _ _ _ _ _ _ => rfl
  case old =>
    rintro budget top passed next rest r hm ih ⟨_ | ⟨next', pre⟩, b, post, heq, hfresh, hp⟩ h <;>
      cases heq
    · rw [hm] at hfresh
      cases hfresh
    · exact ih ⟨pre, b, post, rfl, hfresh, by simpa using hp⟩ h
  case found => exact fun _ _ _ _ _ _ _ _ _ _ h => nomatch h
  case failed =>
    rintro budget top passed next rest left r - - ih₁ hr ih₂
      ⟨_ | ⟨next', pre⟩, b, post, heq, hfresh, hp⟩ h <;> cases heq
    · obtain rfl : left = 0 := ih₁ hp rfl
      rw [← hr, searchPartner_zero]
    · exact ih₂ ⟨pre, b, post, rfl, hfresh, by simpa using hp⟩ h

/-! ## What a search costs -/

/-- The most steps a search of so many players takes. -/
def steps : Nat → Nat
  | 0 => 0
  | 1 => 0
  | n + 2 => (n + 1) * (1 + steps n)

theorem search_left (budget : Nat) (field : List α) :
    budget ≤ (search met budget field).1 + steps field.length := by
  refine search_induction (P := fun budget field r => budget ≤ r.1 + steps field.length)
    (Q := fun budget top passed rest r => budget ≤ r.1 +
      rest.length * (1 + steps (passed.length + rest.length - 1)))
    ?empty ?lead ?nobody ?spent ?old ?found ?failed budget field
  case empty => exact fun _ => Nat.le_add_right _ _
  case lead =>
    intro budget top rest r ih
    cases rest with
    | nil => simpa [steps] using ih
    | cons next rest => simpa [steps] using ih
  case nobody => exact fun _ _ _ => Nat.le_add_right _ _
  case spent => exact fun _ _ _ _ => Nat.zero_le _
  case old =>
    intro budget top passed next rest r _ ih
    simp only [List.length_cons, Nat.succ_mul] at ih ⊢
    rw [show passed.length + 1 + rest.length - 1 = passed.length + (rest.length + 1) - 1 by omega]
      at ih
    omega
  case found =>
    intro budget top passed next rest left pairs _ ih
    simp only [List.length_append, List.length_reverse, List.length_cons, Nat.succ_mul] at ih ⊢
    rw [show passed.length + (rest.length + 1) - 1 = passed.length + rest.length by omega]
    omega
  case failed =>
    intro budget top passed next rest left r _ _ ih₁ _ ih₂
    simp only [List.length_append, List.length_reverse, List.length_cons, Nat.succ_mul]
      at ih₁ ih₂ ⊢
    rw [show passed.length + 1 + rest.length - 1 = passed.length + rest.length by omega] at ih₂
    rw [show passed.length + (rest.length + 1) - 1 = passed.length + rest.length by omega]
    omega

theorem steps_mono {m n : Nat} (h : m ≤ n) : steps m ≤ steps n := by
  have hstep : ∀ n, steps n ≤ steps (n + 1) := fun n => by
    induction n using steps.induct with
    | case1 => exact Nat.le_refl _
    | case2 => exact Nat.zero_le _
    | case3 n ih => exact Nat.mul_le_mul (by omega) (by omega)
  exact monotone_nat_of_le_succ hstep h

/-- Twelve players are too few to use up the budget of a search. -/
theorem search_pos {field : List α} (h : field.length ≤ 12) :
    (search met searchBudget field).1 ≠ 0 := by
  have hleft : searchBudget ≤ (search met searchBudget field).1 + steps field.length :=
    search_left searchBudget field
  have hsteps := steps_mono h
  have htwelve : steps 12 = 25058 := rfl
  unfold searchBudget at *
  omega

end Search

/-! ## Choosing who sits out -/

/-- One of the searches that are tried comes back with nothing and no budget. -/
def GivesUp : List (Option Standing × List Standing) → Prop
  | [] => False
  | (_, field) :: choices =>
    (search met searchBudget field).2 = none ∧
      ((search met searchBudget field).1 = 0 ∨ GivesUp choices)

theorem not_givesUp_of_length_le {choices : List (Option Standing × List Standing)}
    (h : ∀ c ∈ choices, c.2.length ≤ 12) : ¬GivesUp choices := by
  induction choices with
  | nil => exact id
  | cons c choices ih =>
    rw [List.forall_mem_cons] at h
    rintro ⟨-, hzero | hrest⟩
    · exact search_pos h.1 hzero
    · exact ih h.2 hrest

/-- As long as no search gives up, a pairing that is there is found. -/
theorem firstFresh?_ne_none {choices : List (Option Standing × List Standing)}
    (hp : ∃ c ∈ choices, Pairable met c.2) (hg : ¬GivesUp choices) :
    firstFresh? choices ≠ none := by
  induction choices with
  | nil => simp at hp
  | cons c choices ih =>
    obtain ⟨bye, field⟩ := c
    rw [firstFresh?]
    rcases hs : (search met searchBudget field).2 with _ | pairs
    · simp only [GivesUp, hs, true_and, not_or] at hg
      refine ih ?_ hg.2
      obtain ⟨d, hd, hpair⟩ := hp
      rcases List.mem_cons.1 hd with rfl | hd
      · exact absurd (search_complete hpair hs) hg.1
      · exact ⟨d, hd, hpair⟩
    · simp

/-- The round that is played follows a choice of who sits out, and nobody in it has met. -/
def FreshlyPaired (ss : List Standing) : Prop :=
  ∃ c ∈ byeChoices (ranked ss), ∃ pairs, (paired pairs).Perm c.2 ∧
    (∀ p ∈ pairs, met p.1 p.2 = false) ∧ pairNextRound ss = toPairing pairs c.1 false

theorem exists_fresh_pairing {ss : List Standing}
    (hp : ∃ c ∈ byeChoices (ranked ss), Pairable met c.2)
    (hg : ¬GivesUp (byeChoices (ranked ss))) : FreshlyPaired ss := by
  obtain ⟨p, hfirst⟩ := Option.ne_none_iff_exists'.1 (firstFresh?_ne_none hp hg)
  obtain ⟨c, hc, pairs, hs, rfl⟩ := firstFresh?_eq_some hfirst
  obtain ⟨hdealt, hunmet⟩ := dealt_of_search hs
  refine ⟨c, hc, pairs, hdealt.perm, hunmet, ?_⟩
  rw [pairNextRound, hfirst]
  rfl

end Tourney.Swiss
