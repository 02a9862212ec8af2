import Tourney.Proofs.Swiss.First

/-!
# Pairings follow the table

A pairing that is dealt out from the top down puts the better player of every pair first and the
pairs in the order of their leaders (`Dealt.ordered`). So does the pairing of a round, by the places
of the table, and it tells a rematch by the records of the leaders (`pairNextRound_wellPaired`).
-/

namespace Tourney.Swiss

theorem Dealt.ordered {α : Type} {better : α → α → Prop} {field : List α} {pairs : List (α × α)}
    (h : Dealt field pairs) (hb : field.Pairwise better) :
    (∀ p ∈ pairs, better p.1 p.2) ∧ pairs.Pairwise fun p q => better p.1 q.1 := by
  induction h with
  | nil => simp
  | @pair top partner rest before after pairs hrest h ih =>
    subst hrest
    obtain ⟨htop, hb⟩ := List.pairwise_cons.1 hb
    have hsub : (before ++ after).Sublist (before ++ partner :: after) :=
      (List.sublist_cons_self partner after).append_left _
    obtain ⟨hlead, hpairs⟩ := ih (hb.sublist hsub)
    refine ⟨List.forall_mem_cons.2 ⟨htop _ (by simp), hlead⟩,
      List.pairwise_cons.2 ⟨fun p hp => htop _ (hsub.subset ?_), hpairs⟩⟩
    exact h.perm.mem_iff.1 (List.mem_flatMap.2 ⟨p, hp, by simp⟩)

/-! ## The table -/

/-- The players in the order of `ranking`. -/
def table (ss : List Standing) : List Player :=
  (ranking ss).filterMap fun i => ss[i]?.map Standing.player

/-- The place of a player in the table. -/
def rankOf (ss : List Standing) (p : Player) : Nat := (table ss).idxOf p

theorem table_eq (ss : List Standing) : table ss = (ranked ss).map Standing.player := by
  have hplace : ∀ x ∈ ss.zipIdx.mergeSort fun a b => (a.1.compare b.1).isLE,
      ss[x.2]?.map Standing.player = some x.1.player := fun x hx => by
    rw [List.mk_mem_zipIdx_iff_getElem?.1 (List.mem_mergeSort.1 hx), Option.map_some]
  have hfst : (ss.zipIdx.mergeSort fun a b => (a.1.compare b.1).isLE).map Prod.fst = ranked ss := by
    rw [ranked]
    nth_rewrite 2 [← List.zipIdx_map_fst 0 ss]
    exact List.map_mergeSort fun _ _ _ _ => rfl
  rw [table, ranking, List.filterMap_map, ← hfst, List.map_map]
  exact (List.filterMap_congr hplace).trans (congrFun List.filterMap_eq_map' _)

theorem pairwise_rankOf {ss : List Standing} (h : (ss.map Standing.player).Nodup) :
    (ranked ss).Pairwise fun a b => rankOf ss a.player < rankOf ss b.player := by
  have hranked : (ranked ss).Perm ss := List.mergeSort_perm ..
  have hnd : (table ss).Nodup := table_eq ss ▸ (hranked.map _).nodup_iff.2 h
  have hplaces := pairwise_idxOf hnd
  rw [table_eq, List.pairwise_map] at hplaces
  simpa only [rankOf, table_eq] using hplaces

/-! ## The pairing of a round -/

/-- A choice of who sits out leaves the others as they stood. -/
theorem sublist_of_mem_byeChoices {field rest : List Standing} {bye : Option Standing}
    (h : (bye, rest) ∈ byeChoices field) : rest.Sublist field := by
  unfold byeChoices at h
  split_ifs at h
  · simp only [List.mem_singleton, Prod.mk.injEq] at h
    exact h.2 ▸ .refl _
  · obtain ⟨⟨s, i⟩, -, heq⟩ := List.mem_map.1 h
    obtain ⟨-, rfl⟩ := Prod.mk.inj heq
    exact List.eraseIdx_sublist ..

/-- Somebody sits out of an odd field, and of no other. -/
theorem isSome_of_mem_byeChoices {field rest : List Standing} {bye : Option Standing}
    (h : (bye, rest) ∈ byeChoices field) : bye.isSome ↔ field.length % 2 = 1 := by
  obtain ⟨hperm, heven⟩ := of_mem_byeChoices h
  have hlen := hperm.length_eq
  cases bye <;> simp at hlen ⊢ <;> omega

/-- A round in which everybody has one place, and the pairs follow the table. -/
structure WellPaired (ss : List Standing) (p : Pairing) : Prop where
  everybody : p.field.Perm (ss.map Standing.player)
  bye : p.bye.isSome ↔ ss.length % 2 = 1
  fewest : ∀ a, p.bye = some a →
    ∃ s ∈ ss, s.player = a ∧ ∀ t ∈ ss, s.byes.toNat ≤ t.byes.toNat
  leads : ∀ q ∈ p.pairs, rankOf ss q.1 < rankOf ss q.2
  ordered : p.pairs.Pairwise fun q r => rankOf ss q.1 < rankOf ss r.1
  /-- A rematch is one by the record of the leader. -/
  rematch : p.hasRematch ↔ ∃ q ∈ p.pairs, ∃ s ∈ ss, s.player = q.1 ∧ q.2 ∈ s.opponents

/-- Distinct players are always well paired, whether a search succeeds or none does. -/
theorem pairNextRound_wellPaired {ss : List Standing} (hnd : (ss.map Standing.player).Nodup) :
    WellPaired ss (pairNextRound ss) := by
  have hranked : (ranked ss).Perm ss := List.mergeSort_perm ..
  obtain ⟨⟨bye, rest⟩, hc, pairs, hpairs, heq⟩ := exists_dealt ss
  have hrest := sublist_of_mem_byeChoices hc
  obtain ⟨hlead, hordered⟩ := hpairs.ordered ((pairwise_rankOf hnd).sublist hrest)
  have hmem : ∀ q ∈ pairs, q.1 ∈ ss := fun q hq => hranked.mem_iff.1 <| hrest.subset <|
    hpairs.perm.mem_iff.1 (List.mem_flatMap.2 ⟨q, hq, by simp⟩)
  refine ⟨pairNextRound_perm ss, ?_, fun a => of_bye_eq_some, ?_, ?_, ?_⟩
  · rw [heq, toPairing, Option.isSome_map, isSome_of_mem_byeChoices hc, hranked.length_eq]
  · rw [heq, toPairing]
    exact List.forall_mem_map.2 hlead
  · rw [heq, toPairing]
    exact List.pairwise_map.2 hordered
  · rw [heq]
    simp only [toPairing, List.any_eq_true, met, Standing.hasPlayed, List.contains_iff_mem]
    constructor
    · rintro ⟨q, hq, hmet⟩
      exact ⟨_, List.mem_map_of_mem hq, q.1, hmem q hq, rfl, hmet⟩
    · rintro ⟨_, hq', s, hs, hsp, hmet⟩
      obtain ⟨q, hq, rfl⟩ := List.mem_map.1 hq'
      -- names are distinct, so the record that tells of the rematch is the leader's own
      obtain rfl := List.inj_on_of_nodup_map hnd hs (hmem q hq) hsp
      exact ⟨q, hq, hmet⟩

/-- Everybody has met everybody, and the leader has had the only bye. -/
def playedOut : List Standing := [
  { player := "A", opponents := ["B", "C"] },
  { player := "B", wins := 1, opponents := ["A", "C"] },
  { player := "C", wins := 2, opponents := ["A", "B"], byes := 1 }]

theorem pairNextRound_wellPaired_playedOut : (playedOut.map Standing.player).Nodup ∧
    WellPaired playedOut (pairNextRound playedOut) := by
  have hnd : (playedOut.map Standing.player).Nodup := by decide
  exact ⟨hnd, pairNextRound_wellPaired hnd⟩

example : pairNextRound playedOut = ⟨[("C", "B")], some "A", true⟩ := by cbv

end Tourney.Swiss
