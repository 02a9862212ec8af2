import Mathlib.Data.List.Nodup
import Tourney.Proofs.Swiss.Byes
import Tourney.Proofs.Swiss.Search

/-!
# The first pairing

Pairings of a field are compared from the top down: of two pairings the one comes first that gives
the better partner to the best player on whom they differ. What a search finds is the first of all
pairings without a rematch (`isFirst_of_search`), which is the greedy one where that has no rematch
(`isFirst_greedy`). So, unless a search gives up, the one to sit out is the lowest-ranked of those
with the fewest byes who can be spared (`search_exact`).
-/

namespace Tourney.Swiss

section Pairings

variable {α : Type} {met : α → α → Bool} {rank : α → Nat}

/-- No leader of a pair has met the partner. -/
def Unmet (met : α → α → Bool) (pairs : List (α × α)) : Prop := ∀ p ∈ pairs, met p.1 p.2 = false

/-- A pairing without a rematch that comes before every other, by the ranks of the partners. -/
structure IsFirst (met : α → α → Bool) (rank : α → Nat) (field : List α)
    (pairs : List (α × α)) : Prop where
  dealt : Dealt field pairs
  unmet : Unmet met pairs
  least : ∀ others, Dealt field others → Unmet met others → others ≠ pairs →
    List.Lex (· < ·) (pairs.map fun p => rank p.2) (others.map fun p => rank p.2)

/-- The players of a field agree on who has met whom. -/
def Mutual (met : α → α → Bool) (field : List α) : Prop :=
  ∀ a ∈ field, ∀ b ∈ field, met a b = met b a

theorem Mutual.subset {field field' : List α} (hm : Mutual met field) (h : field' ⊆ field) :
    Mutual met field' := fun a ha b hb => hm a (h ha) b (h hb)

theorem Mutual.pairable {field : List α} (hm : Mutual met field) {pairs : List (α × α)}
    (hp : (paired pairs).Perm field) (hu : Unmet met pairs) : Pairable met field := by
  refine ⟨pairs, hp, fun p hmem => ⟨hu p hmem, ?_⟩⟩
  have hfield : ∀ a ∈ [p.1, p.2], a ∈ field := fun a ha =>
    hp.mem_iff.1 (List.mem_flatMap.2 ⟨p, hmem, ha⟩)
  rw [hm _ (hfield _ (by simp)) _ (hfield _ (by simp))]
  exact hu p hmem

theorem IsFirst.unique {field : List α} {ps qs : List (α × α)} (h : IsFirst met rank field ps)
    (h' : IsFirst met rank field qs) : ps = qs := by
  by_contra hne
  exact (List.Lex.asymm (α := Nat) (· < ·)).asymm _ _ (h.least qs h'.dealt h'.unmet (Ne.symm hne))
    (h'.least ps h.dealt h.unmet hne)

/-- The first player is paired with the best possible partner who leaves the others a pairing, and
the others are paired likewise. -/
theorem IsFirst.cons {top b : α} {before after : List α} {pairs : List (α × α)}
    (hrank : (top :: (before ++ b :: after)).Pairwise fun x y => rank x < rank y)
    (hb : met top b = false) (h : IsFirst met rank (before ++ after) pairs)
    (hno : ∀ pre c post, before = pre ++ c :: post → met top c = false → ∀ others,
      Dealt (pre ++ (post ++ b :: after)) others → ¬Unmet met others) :
    IsFirst met rank (top :: (before ++ b :: after)) ((top, b) :: pairs) := by
  refine ⟨.pair rfl h.dealt, List.forall_mem_cons.2 ⟨hb, h.unmet⟩, ?_⟩
  intro others hdealt hunmet hne
  cases hdealt with
  | @pair _ c _ pre post qs hrest hqs =>
    obtain ⟨hc, hothers⟩ := List.forall_mem_cons.1 hunmet
    rcases List.append_eq_append_iff.1 hrest with ⟨mid, rfl, hmid⟩ | ⟨mid, rfl, hmid⟩
    · rcases mid with _ | ⟨_, mid⟩ <;> cases hmid
      · rw [List.append_nil] at hqs
        exact .cons (h.least qs hqs hothers fun heq => hne (heq ▸ rfl))
      · have hlt := (List.pairwise_append.1 (List.pairwise_cons.1 hrank).2).2.1
        exact .rel ((List.pairwise_cons.1 hlt).1 c (by simp))
    · rcases mid with _ | ⟨_, mid⟩ <;> cases hmid
      · rw [List.append_nil] at h
        exact .cons (h.least qs hqs hothers fun heq => hne (heq ▸ rfl))
      · exact absurd hothers (hno pre c mid rfl hc qs hqs)

/-- The partner of the first pair is the first candidate who is new and leaves the others a pairing,
and the others are paired likewise. The candidates before `rest` have been passed over. -/
inductive FirstPartner (met : α → α → Bool) (rank : α → Nat) (top : α) :
    List α → List α → List (α × α) → Prop
  | here {passed rest : List α} {next : α} {others : List (α × α)} (hnext : met top next = false)
      (h : IsFirst met rank (passed ++ rest) others) :
      FirstPartner met rank top passed (next :: rest) ((top, next) :: others)
  | pass {passed rest : List α} {next : α} {pairs : List (α × α)}
      (hnext : met top next = false → ¬Pairable met (passed ++ rest))
      (h : FirstPartner met rank top (passed ++ [next]) rest pairs) :
      FirstPartner met rank top passed (next :: rest) pairs

theorem FirstPartner.exists_split {top : α} {passed rest : List α} {pairs : List (α × α)}
    (h : FirstPartner met rank top passed rest pairs) : ∃ before b after others,
      rest = before ++ b :: after ∧ pairs = (top, b) :: others ∧ met top b = false ∧
      IsFirst met rank (passed ++ (before ++ after)) others ∧
      ∀ pre c post, before = pre ++ c :: post → met top c = false →
        ¬Pairable met (passed ++ (pre ++ (post ++ b :: after))) := by
  induction h with
  | @here passed rest next others hnext h =>
    exact ⟨[], next, rest, others, rfl, rfl, hnext, h, by simp⟩
  | @pass passed rest next pairs hnext h ih =>
    obtain ⟨before, b, after, others, rfl, rfl, hb, hothers, hno⟩ := ih
    refine ⟨next :: before, b, after, others, rfl, rfl, hb, by simpa using hothers, ?_⟩
    rintro (_ | ⟨next', pre⟩) c post heq hc <;> cases heq
    · exact hnext hc
    · simpa using hno pre c post rfl hc

theorem FirstPartner.isFirst {top : α} {rest : List α} {pairs : List (α × α)}
    (h : FirstPartner met rank top [] rest pairs)
    (hrank : (top :: rest).Pairwise fun x y => rank x < rank y) (hm : Mutual met rest) :
    IsFirst met rank (top :: rest) pairs := by
  obtain ⟨before, b, after, others, rfl, rfl, hb, hothers, hno⟩ := h.exists_split
  refine .cons hrank hb hothers fun pre c post heq hc qs hqs hunmet => ?_
  refine hno pre c post heq hc ((hm.subset ?_).pairable hqs.perm hunmet)
  rw [heq]
  simp

/-- A search that succeeds has found the first pairing. -/
theorem isFirst_of_search {budget left : Nat} {field : List α} {pairs : List (α × α)}
    (hrank : field.Pairwise fun x y => rank x < rank y) (hm : Mutual met field)
    (h : search met budget field = (left, some pairs)) : IsFirst met rank field pairs := by
  -- whoever a partner search has passed over leaves no pairing, or there would be no budget left
  refine search_induction
    (P := fun _ field r => field.Pairwise (fun x y => rank x < rank y) → Mutual met field →
      ∀ pairs, r.2 = some pairs → IsFirst met rank field pairs)
    (Q := fun _ top passed rest r =>
      (passed.reverse ++ rest).Pairwise (fun x y => rank x < rank y) →
      Mutual met (passed.reverse ++ rest) →
      ∀ pairs, r.2 = some pairs → FirstPartner met rank top passed.reverse rest pairs)
    ?empty ?lead ?nobody ?spent ?old ?found ?failed budget field hrank hm pairs (by rw [h])
  case empty =>
    rintro _ - - _ ⟨⟩
    exact ⟨.nil, by simp [Unmet], fun others ho _ hne => absurd (by cases ho; rfl) hne⟩
  case lead =>
    intro budget top rest r ih hrank hm pairs h
    have hrest : Mutual met rest := hm.subset (List.subset_cons_self top rest)
    exact (ih (List.pairwise_cons.1 hrank).2 hrest pairs h).isFirst hrank hrest
  case nobody => exact fun _ _ _ _ _ _ h => nomatch h
  case spent => exact fun _ _ _ _ _ _ _ h => nomatch h
  case old =>
    intro budget top passed next rest r hmet ih hrank hm pairs h
    refine .pass (fun hnew => ?_) ?_
    · rw [hmet] at hnew
      cases hnew
    · simpa using ih (by simpa using hrank) (by simpa using hm) pairs h
  case found =>
    rintro budget top passed next rest left others hnew ih hrank hm _ ⟨⟩
    have hsub : (passed.reverse ++ rest).Sublist (passed.reverse ++ next :: rest) :=
      (List.sublist_cons_self next rest).append_left _
    exact .here hnew (ih (hrank.sublist hsub) (hm.subset hsub.subset) others rfl)
  case failed =>
    intro budget top passed next rest left r hnew hs _ hr ih hrank hm pairs h
    refine .pass (fun _ hpair => ?_) ?_
    · have hzero := search_complete hpair (show (search met budget _).2 = none by rw [hs])
      rw [hs] at hzero
      rw [← hr, show left = 0 from hzero, searchPartner_zero] at h
      cases h
    · simpa using ih (by simpa using hrank) (by simpa using hm) pairs h

/-- A greedy partner that is new comes after none but old opponents. -/
theorem exists_of_greedyPartner {top partner : α} {rest : List α}
    (h : rest[greedyPartner met top rest]? = some partner) (hnew : met top partner = false) :
    ∃ before after, rest = before ++ partner :: after ∧
      rest.eraseIdx (greedyPartner met top rest) = before ++ after ∧
      ∀ c ∈ before, met top c = true := by
  obtain ⟨hlt, rfl⟩ := List.getElem?_eq_some_iff.1 h
  refine ⟨rest.take (greedyPartner met top rest), rest.drop (greedyPartner met top rest + 1),
    by simp, List.eraseIdx_eq_take_drop_succ .., fun c hc => ?_⟩
  rcases hf : rest.findIdx? fun b => !met top b with _ | i
  · simp [greedyPartner, hf] at hc
  · have hi : greedyPartner met top rest = i := by simp [greedyPartner, hf]
    rw [hi] at hc
    obtain ⟨j, hj, rfl⟩ := List.mem_iff_getElem.1 hc
    rw [List.length_take, Nat.lt_min] at hj
    have hold := (List.findIdx?_eq_some_iff_getElem.1 hf).2.2 j hj.1
    simpa using hold

/-- Where the greedy pairing has no rematch, no pairing comes before it. -/
theorem isFirst_greedy {field : List α} (heven : field.length % 2 = 0)
    (hrank : field.Pairwise fun x y => rank x < rank y) (hu : Unmet met (greedy met field)) :
    IsFirst met rank field (greedy met field) := by
  induction field using greedy.induct met with
  | case1 =>
    rw [greedy]
    exact ⟨.nil, by simp [Unmet], fun others ho _ hne => absurd (by cases ho; rfl) hne⟩
  | case2 top rest partner hp ih =>
    rw [greedy, hp] at hu ⊢
    obtain ⟨hnew, hu⟩ := List.forall_mem_cons.1 hu
    obtain ⟨before, after, hrest, herase, hold⟩ := exists_of_greedyPartner hp hnew
    rw [herase] at hu ih ⊢
    have hlen := congrArg List.length hrest
    rw [List.length_append, List.length_cons] at hlen
    rw [List.length_cons] at heven
    have hsub : (before ++ after).Sublist (before ++ partner :: after) :=
      (List.sublist_cons_self partner after).append_left _
    rw [hrest] at hrank ⊢
    refine .cons hrank hnew
      (ih (by rw [List.length_append]; omega) ((List.pairwise_cons.1 hrank).2.sublist hsub) hu) ?_
    intro pre c post heq hc
    rw [hold c (by simp [heq])] at hc
    cases hc
  | case3 top rest hp =>
    obtain rfl := eq_nil_of_greedyPartner hp
    simp at heven

end Pairings

/-! ## Who sits out -/

/-- One search that succeeds is used, and by then no field that could be paired has been missed. -/
theorem exists_first_choice {choices : List (Option Standing × List Standing)}
    (hp : ∃ c ∈ choices, Pairable met c.2) (hg : ¬GivesUp choices) :
    ∃ before c after left pairs, choices = before ++ c :: after ∧
      (∀ d ∈ before, ¬Pairable met d.2) ∧
      search met searchBudget c.2 = (left, some pairs) ∧
      firstFresh? choices = some (toPairing pairs c.1 false) := by
  induction choices with
  | nil => simp at hp
  | cons c choices ih =>
    rcases hs : search met searchBudget c.2 with ⟨left, _ | pairs⟩
    · have hnone : (search met searchBudget c.2).2 = none := by rw [hs]
      have hno : ¬Pairable met c.2 := fun hpair =>
        hg ⟨hnone, .inl (search_complete hpair hnone)⟩
      have hg' : ¬GivesUp choices := fun h => hg ⟨hnone, .inr h⟩
      obtain ⟨d, hd, hpair⟩ := hp
      have hd' := (List.mem_cons.1 hd).resolve_left fun heq => hno (heq ▸ hpair)
      obtain ⟨before, e, after, left, pairs, rfl, hbefore, he, hfirst⟩ := ih ⟨d, hd', hpair⟩ hg'
      have hpassed : ∀ d ∈ c :: before, ¬Pairable met d.2 :=
        List.forall_mem_cons.2 ⟨hno, hbefore⟩
      refine ⟨c :: before, e, after, left, pairs, rfl, hpassed, he, ?_⟩
      rw [firstFresh?, hs]
      exact hfirst
    · exact ⟨[], c, choices, left, pairs, rfl, by simp, hs, by rw [firstFresh?, hs]⟩

/-- The player of a rank can be spared: nobody has had fewer byes, and the others can be paired
without a rematch. -/
structure Spared (field : List Standing) (i : Nat) (s : Standing) : Prop where
  place : field[i]? = some s
  fewest : ∀ s' ∈ field, s.byes.toNat ≤ s'.byes.toNat
  others : Pairable met (field.eraseIdx i)

theorem Spared.odd {field : List Standing} {i : Nat} {s : Standing} (h : Spared field i s) :
    field.length % 2 ≠ 0 := by
  obtain ⟨pairs, hp, -⟩ := h.others
  obtain ⟨hi, -⟩ := List.getElem?_eq_some_iff.1 h.place
  have hlen := hp.length_eq
  rw [length_paired, List.length_eraseIdx_of_lt hi] at hlen
  omega

theorem Spared.mem {field : List Standing} {i : Nat} {s : Standing} (h : Spared field i s) :
    (s, i) ∈ field.zipIdx.reverse.filter fun (s, _) => s.byes.toNat = fewestByes field := by
  refine List.mem_filter.2 ⟨List.mem_reverse.2 (List.mk_mem_zipIdx_iff_getElem?.2 h.place), ?_⟩
  have hs := List.mem_of_getElem? h.place
  obtain ⟨s', hs', hfewest⟩ := exists_fewestByes (List.ne_nil_of_mem hs)
  have hle := h.fewest s' hs'
  have hge := fewestByes_le hs
  simp only [decide_eq_true_eq]
  omega

theorem pairwise_idxOf {α : Type} [BEq α] [LawfulBEq α] {field : List α} (h : field.Nodup) :
    field.Pairwise fun a b => field.idxOf a < field.idxOf b := by
  rw [List.pairwise_iff_getElem]
  intro i j hi hj hij
  rw [h.idxOf_getElem, h.idxOf_getElem]
  exact hij

/-- The choices of who sits out come from the bottom of the table up. -/
theorem pairwise_places (field : List Standing) (p : Standing × Nat → Bool) :
    (field.zipIdx.reverse.filter p).Pairwise fun x y => y.2 < x.2 :=
  (List.pairwise_reverse.2 (pairwise_zipIdx field)).filter p

/-- Unless a search gives up, the lowest-ranked player who can be spared sits out. -/
theorem exists_lowest_spared {ss : List Standing} (hm : Mutual met (ranked ss))
    (hg : ¬GivesUp (byeChoices (ranked ss))) (hp : ∃ i s, Spared (ranked ss) i s) :
    ∃ i s left pairs, Spared (ranked ss) i s ∧ (∀ j s', Spared (ranked ss) j s' → j ≤ i) ∧
      search met searchBudget ((ranked ss).eraseIdx i) = (left, some pairs) ∧
      pairNextRound ss = toPairing pairs (some s) false := by
  obtain ⟨i₀, s₀, h₀⟩ := hp
  have hchoices : byeChoices (ranked ss) = _ := if_neg h₀.odd
  obtain ⟨before, c, after, left, pairs, hsplit, hbefore, hc, hfirst⟩ := exists_first_choice
    ⟨_, hchoices ▸ List.mem_map_of_mem h₀.mem, h₀.others⟩ hg
  rw [hchoices] at hsplit
  obtain ⟨places, places', hplaces, rfl, hrest⟩ := List.map_eq_append_iff.1 hsplit
  obtain ⟨⟨s, i⟩, rest, rfl, rfl, rfl⟩ := List.map_eq_cons_iff.1 hrest
  have hmem : (s, i) ∈ _ := hplaces ▸ List.mem_append_right _ List.mem_cons_self
  obtain ⟨hs, hfew⟩ := List.mem_filter.1 hmem
  have hplace := List.mk_mem_zipIdx_iff_getElem?.1 (List.mem_reverse.1 hs)
  have hothers : Mutual met ((ranked ss).eraseIdx i) := hm.subset (List.eraseIdx_sublist ..).subset
  refine ⟨i, s, left, pairs, ⟨hplace, fun s' hs' => ?_, ?_⟩, fun j s' hj => ?_, hc, ?_⟩
  · have := fewestByes_le hs'
    simp only [decide_eq_true_eq] at hfew
    omega
  · have hsome : (search met searchBudget ((ranked ss).eraseIdx i)).2 = some pairs := by rw [hc]
    obtain ⟨hdealt, hunmet⟩ := dealt_of_search hsome
    exact hothers.pairable hdealt.perm hunmet
  · have hjmem := hj.mem
    rw [hplaces, List.mem_append, List.mem_cons] at hjmem
    rcases hjmem with hjmem | heq | hjmem
    · exact absurd hj.others (hbefore _ (List.mem_map_of_mem hjmem))
    · cases heq
      exact le_refl _
    · have horder := pairwise_places (ranked ss) fun (s, _) =>
        s.byes.toNat = fewestByes (ranked ss)
      rw [hplaces] at horder
      exact ((List.pairwise_cons.1 (List.pairwise_append.1 horder).2.1).1 _ hjmem).le
  · rw [pairNextRound, hfirst]
    rfl

/-- The search does what it is for at every field that is tried: what it finds is the first pairing
without a rematch, it finds the greedy one where that has none, and with budget left it misses
none. The one who sits out is the lowest-ranked who can be spared, unless a search gives up. -/
structure ExactlyPaired (ss : List Standing) : Prop where
  found : ∀ choice ∈ byeChoices (ranked ss), ∀ left pairs,
    search met searchBudget choice.2 = (left, some pairs) →
      IsFirst met (fun s => choice.2.idxOf s) choice.2 pairs
  greedy : ∀ choice ∈ byeChoices (ranked ss), ∀ left pairs,
    search met searchBudget choice.2 = (left, some pairs) →
      Unmet met (greedy met choice.2) → pairs = greedy met choice.2
  missed : ∀ choice ∈ byeChoices (ranked ss), ∀ left,
    search met searchBudget choice.2 = (left, none) → left ≠ 0 → ¬Pairable met choice.2
  sitsOut : ¬GivesUp (byeChoices (ranked ss)) → (∃ i s, Spared (ranked ss) i s) →
    ∃ i s left pairs, Spared (ranked ss) i s ∧ (∀ j s', Spared (ranked ss) j s' → j ≤ i) ∧
      search met searchBudget ((ranked ss).eraseIdx i) = (left, some pairs) ∧
      pairNextRound ss = toPairing pairs (some s) false

/-- Distinct players who agree on whom they have met are paired exactly. -/
theorem search_exact {ss : List Standing} (hnd : (ss.map Standing.player).Nodup)
    (hm : ∀ a ∈ ss, ∀ b ∈ ss, b.player ∈ a.opponents ↔ a.player ∈ b.opponents) :
    ExactlyPaired ss := by
  have hranked : (ranked ss).Perm ss := List.mergeSort_perm ..
  have hmutual : Mutual met (ranked ss) := fun a ha b hb => by
    rw [Bool.eq_iff_iff]
    simpa [met, Standing.hasPlayed] using hm a (hranked.mem_iff.1 ha) b (hranked.mem_iff.1 hb)
  have hfirst : ∀ choice ∈ byeChoices (ranked ss), ∀ left pairs,
      search met searchBudget choice.2 = (left, some pairs) →
        choice.2.Pairwise (fun a b => choice.2.idxOf a < choice.2.idxOf b) ∧
        IsFirst met (fun s => choice.2.idxOf s) choice.2 pairs := by
    intro choice hc left pairs hs
    obtain ⟨hperm, -⟩ := of_mem_byeChoices hc
    have hnodup := (hperm.trans hranked).nodup_iff.2 (.of_map _ hnd)
    have hrank := pairwise_idxOf (List.nodup_append.1 hnodup).2.1
    have hsub : choice.2 ⊆ ranked ss := fun s hs => hperm.mem_iff.1 (List.mem_append_right _ hs)
    exact ⟨hrank, isFirst_of_search hrank (hmutual.subset hsub) hs⟩
  refine ⟨fun choice hc left pairs hs => (hfirst choice hc left pairs hs).2,
    fun choice hc left pairs hs hu => ?_, fun choice hc left hs hleft hpair => hleft ?_,
    exists_lowest_spared hmutual⟩
  · obtain ⟨hrank, hleast⟩ := hfirst choice hc left pairs hs
    exact hleast.unique (isFirst_greedy (of_mem_byeChoices hc).2 hrank hu)
  · have hzero := search_complete hpair (by rw [hs])
    rwa [hs] at hzero

/-- Greedily A would meet C, which leaves B and D, who have met. -/
def deadEnd : List Standing := [
  { player := "A", wins := 2, opponents := ["B"] },
  { player := "B", wins := 1, opponents := ["A", "D"] },
  { player := "C", wins := 1 },
  { player := "D", opponents := ["B"] },
  { player := "E" }]

theorem search_exact_deadEnd : (deadEnd.map Standing.player).Nodup ∧
    (∀ a ∈ deadEnd, ∀ b ∈ deadEnd, b.player ∈ a.opponents ↔ a.player ∈ b.opponents) ∧
    ExactlyPaired deadEnd := by
  have hnd : (deadEnd.map Standing.player).Nodup := by decide
  have hm : ∀ a ∈ deadEnd, ∀ b ∈ deadEnd,
      b.player ∈ a.opponents ↔ a.player ∈ b.opponents := by decide
  exact ⟨hnd, hm, search_exact hnd hm⟩

example : pairNextRound deadEnd = ⟨[("A", "D"), ("B", "C")], some "E", false⟩ := by cbv

end Tourney.Swiss
