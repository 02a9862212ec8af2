import Tourney.Proofs.Tournament.Completion
import Tourney.Proofs.Tournament.Room
import Tourney.Proofs.Tournament.Unheld

/-!
# Modest scores

As long as no result has more than so many points on either side, the points of a player stay within
what a counter holds (`Modest.pointsFit`), so every result that may be recorded is recorded, if
there are ids for the matches that follow from it (`Modest.record`), whether or not devices hold
matches (`Modest.record_held`).
-/

namespace Tourney

/-- A result with at most so many points on either side. -/
def Outcome.Within (k : Nat) (o : Outcome) : Prop :=
  o.figures.score1.toNat ≤ k ∧ o.figures.score2.toNat ≤ k

namespace Tournament

open Arena RoundRobin

/-- A tournament in which no match has been played with more than so many points on either side. -/
structure Modest (k : Nat) (c : Config) (t₀ t : Tournament) : Prop where
  live : Live c t
  counted : c.format = .roundRobin ∨ (∃ plan, c.format = .groups plan) → Counted c t₀ t
  scores : ∀ m ∈ t.arena, m.isPlayed → m.figures.score1.toNat ≤ k ∧ m.figures.score2.toNat ≤ k

theorem scoredBy_le {k : Nat} {m : Match}
    (h : m.figures.score1.toNat ≤ k ∧ m.figures.score2.toNat ≤ k) (p : Player) :
    scoredBy p m ≤ k ∧ concededBy p m ≤ k := by
  unfold scoredBy concededBy
  split_ifs <;> simp [h]

theorem modest_of_create {c : Config} {stamp : Stamp} {draw : Draw} {t : Tournament}
    (h : create c stamp draw = .ok t) (k : Nat) : Modest k c t t :=
  ⟨live_of_create h, counted_of_create h, fun m hm hp => by
    rw [(fresh_of_create h m hm).unplayed] at hp
    cases hp⟩

/-- Room for modest scores in every match leaves ids for every match. -/
theorem fits_of_room {k : Nat} {c : Config}
    (hroom : (matchCount c.format c.players.length + 1) * (k + 1) < UInt32.size) :
    Fits c.format c.players.length := by
  have hle := Nat.le_mul_of_pos_right (matchCount c.format c.players.length + 1) (Nat.succ_pos k)
  exact Nat.lt_of_le_of_lt hle hroom

section Modest

variable {k : Nat} {c : Config} {t₀ t : Tournament} (h : Modest k c t₀ t) (hk : k < 2 ^ 15)

include h hk

/-- Nobody has so many matches to play that modest scores add up to more than a counter holds. -/
theorem Modest.pointsFit {m : Match} {o : Outcome} (ho : o.Within k) : PointsFit t m o := by
  intro hs p hp
  have hwon : ∀ a ∈ wonOf m.stage t.arena, scoredBy p a ≤ (if a.hasPlayer p then k else 0) ∧
      concededBy p a ≤ if a.hasPlayer p then k else 0 := fun a ha => by
    simp only [wonOf, List.mem_filter, decide_eq_true_eq] at ha
    obtain ⟨⟨ha, hstage⟩, hdone⟩ := ha
    have hplayed : a.isPlayed := by
      simp [Match.isPlayed, hdone, h.live.running.isReady ha (hstage ▸ hs)]
    split_ifs with hplays
    · exact scoredBy_le (h.scores a ha hplayed) p
    · rw [Match.hasPlayer, Bool.or_eq_true, beq_iff_eq, beq_iff_eq, not_or] at hplays
      simp [scoredBy, concededBy, hplays]
  have hcount : (wonOf m.stage t.arena).countP (·.hasPlayer p) < 2 ^ 17 :=
    (List.filter_sublist.countP_le.trans_lt (h.live.running.countP_hasPlayer_lt hs hp)).trans_le
      (h.live.running.length_field_le hs)
  have hroom : (wonOf m.stage t.arena).countP (·.hasPlayer p) * k + k < UInt32.size := by
    rw [← Nat.succ_mul]
    exact (Nat.mul_le_mul_right k hcount).trans_lt (Nat.mul_lt_mul_of_pos_left hk (by decide))
  have hscored := sum_le_countP_mul fun a ha => (hwon a ha).1
  have hconceded := sum_le_countP_mul fun a ha => (hwon a ha).2
  have hnew := scoredBy_le (m := m.withOutcome o) ho p
  omega

/-- The tables have room for every modest result. -/
theorem Modest.not_overflows (hs : c.format ≠ .swiss) {id : MatchId} {o : Outcome}
    (ho : o.Within k) : ¬t.Overflows id o := by
  rintro ⟨m, hm, hcheck, htally⟩
  obtain ⟨-, rfl⟩ := mem_of_find? hm
  have hknockout := tally_of_knockout (t := t) (m := m.withOutcome o)
  by_cases hf : c.format = .roundRobin ∨ ∃ plan, c.format = .groups plan
  · have hcounted := h.counted hf
    have hleagues := hcounted.leagues ▸ h.live.leagues_ne_nil hf
    obtain ⟨t', ht'⟩ := (hcounted.exists_tally_iff hleagues hm hcheck).2 (h.pointsFit hk ho)
    rw [htally] at ht'
    cases ht'
  · rw [h.live.format, htally] at hknockout
    cases hformat : c.format <;> simp_all

/-- A modest result that may be recorded is, and leaves the tournament modest, unless the ids run
out. -/
theorem Modest.record {m : Match} (hm : t.match? m.id = some m) {o : Outcome}
    (hcheck : checkOutcome m o = .ok ()) (ho : o.Within k) :
    (∃ t' effects, t.record m.id o = .done t' effects ∧ Modest k c t₀ t' ∧
      (t'.arena.filter Match.isPlayed).Perm (m.withOutcome o :: t.arena.filter Match.isPlayed)) ∨
    ¬Fits c.format c.players.length ∧ (t.record m.id o).answer = .error .outOfRange := by
  cases h.live.running.recorded m.id o with
  | refused f hf hr hno => exact absurd hcheck (hno m hm)
  | overflows m' hm' ho' hwhy hr =>
    refine .inr ⟨?_, hr⟩
    rw [h.live.format, h.live.players] at hwhy
    exact hwhy.resolve_left fun ⟨hs, htally⟩ => h.not_overflows hk hs ho ⟨m', hm', ho', htally⟩
  | done m' ms t' effects hm' ho' htally hms hr hrun he =>
    obtain rfl : m = m' := Option.some.inj (hm.symm.trans hm')
    have hne : (t.record m.id o).answer ≠ .error .outOfRange := by simp [hr, Reply.done]
    have hlive := h.live.record_of_ne hne
    have hcounted := fun hf => (h.counted hf).record
      ((h.counted hf).leagues ▸ h.live.leagues_ne_nil hf) hne
    have hplayed := h.live.running.played_of_done (mem_of_find? hm).1 hms he hcheck
    rw [hr] at hlive hcounted
    refine .inl ⟨t', effects, hr, ⟨hlive, hcounted, fun a ha hp => ?_⟩, hplayed⟩
    rcases List.mem_cons.1 (hplayed.mem_iff.1 (List.mem_filter.2 ⟨ha, hp⟩)) with rfl | ha
    · exact ho
    · obtain ⟨ha, hp⟩ := List.mem_filter.1 ha
      exact h.scores a ha hp

end Modest

/-- A tournament that is modest but for its devices takes every modest result for which there are
ids. -/
theorem Modest.record_held {k : Nat} {c : Config} {t₀ t : Tournament}
    (h : Modest k c t₀ t.unheld) (hk : k < 2 ^ 15)
    (hr : Running t) {m : Match} (hm : t.match? m.id = some m) {o : Outcome}
    (hcheck : checkOutcome m o = .ok ()) (ho : o.Within k) :
    (∃ t' effects, t.record m.id o = .done t' effects ∧ Modest k c t₀ t'.unheld ∧
      (t'.unheld.arena.filter Match.isPlayed).Perm
        (m.withOutcome o :: t.unheld.arena.filter Match.isPlayed)) ∨
    ¬Fits c.format c.players.length ∧ (t.record m.id o).answer = .error .outOfRange := by
  have hfind : t.unheld.match? m.unheld.id = some m.unheld :=
    h.live.running.sound.coherent.wired.ordered.find? (List.mem_map_of_mem (mem_of_find? hm).1)
  cases hr.recorded m.id o with
  | refused f hf hrec hno => exact absurd hcheck (hno m hm)
  | overflows m' hm' ho' hwhy hrec =>
    obtain rfl : m = m' := Option.some.inj (hm.symm.trans hm')
    refine .inr ⟨?_, hrec⟩
    rw [← h.live.format, ← h.live.players]
    refine hwhy.resolve_left fun ⟨hs, htally⟩ => ?_
    have hs : c.format ≠ .swiss := h.live.format ▸ hs
    refine h.not_overflows hk hs ho ⟨m.unheld, hfind, checkOutcome_unheld.2 hcheck, ?_⟩
    exact (tally_arena t (t.arena.map Match.unheld) _).trans
      (by rw [Match.withOutcome_unheld, htally]; rfl)
  | done m' ms t' effects hm' ho' htally hms hrec hrun he =>
    have hsame := hr.record_unheld hrec
    rcases h.record hk hfind (checkOutcome_unheld.2 hcheck) ho with
      ⟨t₁, effects₁, hrec₁, hmodest, hplayed⟩ | ⟨-, hover⟩
    · obtain rfl : t₁ = t'.unheld := congrArg Reply.state (hrec₁.symm.trans hsame)
      exact .inl ⟨t', effects, hrec, hmodest, hplayed⟩
    · have hover : (t.unheld.record m.id o).answer = .error .outOfRange := hover
      rw [hsame] at hover
      cases hover

end Tournament

end Tourney
