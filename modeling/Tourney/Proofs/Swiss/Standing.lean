import Tourney.Proofs.Except
import Tourney.Swiss.Standing

/-!
# Folding results into the standings

A result moves each counter by one at most, so standings that have taken in few results can take in
another (`record_ok`). The players and their order stay (`Kept`).
-/

namespace Tourney.Swiss

/-- No counter has passed the bound. -/
def Within (bound : Nat) (ss : List Standing) : Prop :=
  ∀ s ∈ ss, s.wins.toNat ≤ bound ∧ s.losses.toNat ≤ bound ∧ s.byes.toNat ≤ bound

theorem Within.mono {b c : Nat} {ss : List Standing} (h : Within b ss) (hbc : b ≤ c) :
    Within c ss := fun s hs => by
  obtain ⟨h1, h2, h3⟩ := h s hs
  exact ⟨by omega, by omega, by omega⟩

/-- The standings after at most one result more. -/
def Kept (bound : Nat) (ss ss' : List Standing) : Prop :=
  ss'.map Standing.player = ss.map Standing.player ∧ Within (bound + 1) ss'

theorem increment_ok {a : UInt32} {b : Nat} (ha : a.toNat ≤ b) (hb : b + 1 < UInt32.size) :
    ∃ c, Counter.increment a = .ok c ∧ c.toNat = a.toNat + 1 := by
  have hadd : (a + 1).toNat = a.toNat + 1 := by
    rw [UInt32.toNat_add]
    exact Nat.mod_eq_of_lt (show a.toNat + 1 < UInt32.size by omega)
  exact ⟨a + 1, Counter.add_eq_ok.2 hadd, hadd⟩

section Credit

variable {bound : Nat} {s : Standing} (h : Within bound [s]) (hb : bound + 1 < UInt32.size)

include h hb

theorem creditWin_ok (opponent : Player) : ∃ s', s.creditWin opponent = .ok s' ∧
    s'.player = s.player ∧ Within (bound + 1) [s'] := by
  obtain ⟨h1, h2, h3⟩ := h s List.mem_cons_self
  obtain ⟨c, hc, hn⟩ := increment_ok h1 hb
  refine ⟨{ s with wins := c, opponents := s.opponents ++ [opponent] },
    by rw [Standing.creditWin, hc]; rfl, rfl, fun t ht => ?_⟩
  obtain rfl := List.mem_singleton.1 ht
  dsimp only
  omega

theorem creditLoss_ok (opponent : Player) : ∃ s', s.creditLoss opponent = .ok s' ∧
    s'.player = s.player ∧ Within (bound + 1) [s'] := by
  obtain ⟨h1, h2, h3⟩ := h s List.mem_cons_self
  obtain ⟨c, hc, hn⟩ := increment_ok h2 hb
  refine ⟨{ s with losses := c, opponents := s.opponents ++ [opponent] },
    by rw [Standing.creditLoss, hc]; rfl, rfl, fun t ht => ?_⟩
  obtain rfl := List.mem_singleton.1 ht
  dsimp only
  omega

theorem creditBye_ok : ∃ s', s.creditBye = .ok s' ∧
    s'.player = s.player ∧ Within (bound + 1) [s'] := by
  obtain ⟨h1, h2, h3⟩ := h s List.mem_cons_self
  obtain ⟨c, hc, hn⟩ := increment_ok h1 hb
  obtain ⟨d, hd, hm⟩ := increment_ok h3 hb
  refine ⟨{ s with wins := c, byes := d }, by rw [Standing.creditBye, hc, hd]; rfl, rfl,
    fun t ht => ?_⟩
  obtain rfl := List.mem_singleton.1 ht
  dsimp only
  omega

theorem afterMatch_ok (winner loser : Player) : ∃ s', s.afterMatch winner loser = .ok s' ∧
    s'.player = s.player ∧ Within (bound + 1) [s'] := by
  unfold Standing.afterMatch
  split_ifs
  · exact creditWin_ok h hb loser
  · exact creditLoss_ok h hb winner
  · exact ⟨s, rfl, rfl, h.mono (Nat.le_succ _)⟩

end Credit

section Record

variable {bound : Nat} {ss : List Standing}

theorem Kept.refl (h : Within bound ss) : Kept bound ss ss := ⟨rfl, h.mono (Nat.le_succ _)⟩

theorem Kept.refresh {ss' : List Standing} (h : Kept bound ss ss') :
    Kept bound ss (Swiss.refresh ss') := by
  refine ⟨?_, fun s hs => ?_⟩
  · rw [← h.1, Swiss.refresh, List.map_map]
    rfl
  · obtain ⟨t, ht, rfl⟩ := List.mem_map.1 hs
    exact h.2 t ht

theorem kept_of_forall₂ {ss' : List Standing} (h : List.Forall₂ (fun s s' : Standing =>
    s'.player = s.player ∧ Within (bound + 1) [s']) ss ss') : Kept bound ss ss' := by
  induction h with
  | nil => exact ⟨rfl, by simp [Within]⟩
  | cons hs _ ih =>
    refine ⟨by rw [List.map_cons, List.map_cons, hs.1, ih.1], fun t ht => ?_⟩
    rcases List.mem_cons.1 ht with rfl | ht
    · exact hs.2 _ List.mem_cons_self
    · exact ih.2 t ht

theorem recordBye_ok (h : Within bound ss) (hb : bound + 1 < UInt32.size) (winner : Player) :
    ∃ ss', recordBye winner ss = .ok ss' ∧ Kept bound ss ss' := by
  induction ss with
  | nil => exact ⟨[], rfl, Kept.refl h⟩
  | cons s ss ih =>
    have hhead : Within bound [s] := fun t ht =>
      h t (List.mem_cons.2 (.inl (List.mem_singleton.1 ht)))
    have htail : Within bound ss := fun t ht => h t (List.mem_cons_of_mem _ ht)
    unfold recordBye
    split_ifs
    · obtain ⟨s', hs', hp, hw⟩ := creditBye_ok hhead hb
      refine ⟨s' :: ss, by rw [hs']; rfl, kept_of_forall₂ (.cons ⟨hp, hw⟩ ?_)⟩
      exact List.forall₂_same.2 fun t ht =>
        ⟨rfl, fun u hu => (htail.mono (Nat.le_succ _)) u (List.mem_singleton.1 hu ▸ ht)⟩
    · obtain ⟨ss', hss', hk⟩ := ih htail
      refine ⟨s :: ss', by rw [hss']; rfl, by rw [List.map_cons, List.map_cons, hk.1], ?_⟩
      intro t ht
      rcases List.mem_cons.1 ht with rfl | ht
      · exact (h.mono (Nat.le_succ _)) _ List.mem_cons_self
      · exact hk.2 t ht

theorem record_ok (h : Within bound ss) (hb : bound + 1 < UInt32.size) (m : Match) :
    ∃ ss', record ss m = .ok ss' ∧ Kept bound ss ss' := by
  unfold record
  split
  · rename_i winner loser _ _ _
    have hrow : ∀ s ∈ ss, ∃ s', s.afterMatch winner loser = .ok s' ∧
        s'.player = s.player ∧ Within (bound + 1) [s'] := fun s hs =>
      afterMatch_ok (fun t ht => h t (List.mem_singleton.1 ht ▸ hs)) hb winner loser
    obtain ⟨ss', hm, hf⟩ := mapM_ok hrow
    exact ⟨_, map_eq_ok.2 ⟨ss', hm, rfl⟩, (kept_of_forall₂ hf).refresh⟩
  · rename_i winner _ _ _
    obtain ⟨ss', hr, hk⟩ := recordBye_ok h hb winner
    exact ⟨_, map_eq_ok.2 ⟨ss', hr, rfl⟩, hk.refresh⟩
  · exact ⟨ss, rfl, .refl h⟩

/-- Standings can take in as many results as their counters have room for. -/
theorem foldlM_record_ok (ms : List Match) (h : Within bound ss)
    (hb : bound + ms.countP (·.status = .complete) < UInt32.size) :
    ∃ ss', ms.foldlM record ss = .ok ss' ∧ ss'.map Standing.player = ss.map Standing.player ∧
      Within (bound + ms.countP (·.status = .complete)) ss' := by
  induction ms generalizing bound ss with
  | nil => exact ⟨ss, rfl, rfl, h⟩
  | cons m ms ih =>
    rw [List.countP_cons] at hb ⊢
    by_cases hm : m.status = .complete
    · rw [if_pos (by simp [hm])] at hb ⊢
      obtain ⟨ss₁, h₁, hp₁, hw₁⟩ := record_ok h (by omega) m
      obtain ⟨ss₂, h₂, hp₂, hw₂⟩ := ih hw₁ (by omega)
      refine ⟨ss₂, ?_, hp₂.trans hp₁, hw₂.mono (by omega)⟩
      rw [List.foldlM_cons, h₁]
      exact h₂
    · rw [if_neg (by simp [hm]), Nat.add_zero] at hb ⊢
      obtain ⟨ss₂, h₂, hp₂, hw₂⟩ := ih h hb
      refine ⟨ss₂, ?_, hp₂, hw₂⟩
      have hsame : record ss m = .ok ss := by
        unfold record
        split <;> simp_all
      rw [List.foldlM_cons, hsame]
      exact h₂

theorem within_freshStandings (players : List Player) : Within 0 (freshStandings players) := by
  intro s hs
  obtain ⟨p, -, rfl⟩ := List.mem_map.1 hs
  simp

theorem players_freshStandings (players : List Player) :
    (freshStandings players).map Standing.player = players := by
  simp [freshStandings, Function.comp_def]

end Record

end Tourney.Swiss
