import Tourney.Proofs.Tournament.Commute
import Tourney.Proofs.Tournament.Drawn
import Tourney.Proofs.Tournament.OneLoss
import Tourney.Proofs.Tournament.Order
import Tourney.Proofs.Tournament.TwoLosses
import Tourney.Proofs.Tournament.Unheld

/-!
# What a result sets in motion

The effects of a result are what it has changed: the round or the finals that there are since then
(`Running.generated_of_record`), and whether the tournament has ended with it. A tournament is
created with matches to play, none of them played, and nothing but its first stage
(`open_of_create`, `generated_of_create`).
-/

namespace Tourney.Tournament

open Arena Elimination

/-- The rounds and the finals that have been generated since the start. -/
def generated (t : Tournament) : List (Stage × UInt32) :=
  match t.swiss with
  | some e => (List.range' 2 (e.currentRound.toNat - 1)).map fun r => (.main, UInt32.ofNat r)
  | none => if t.groups.any (·.finalsGenerated) then [(.finals, 1)] else []

/-- Most formats generate all their matches at the start. -/
theorem Stages.generated_eq_nil {t : Tournament} (h : Stages t) (hs : t.format ≠ .swiss)
    (hg : ∀ plan, t.format ≠ .groups plan) : t.generated = [] := by
  cases h with
  | whole _ _ hs hg => simp [generated, hs, hg]
  | swiss _ hf => exact absurd hf hs
  | groups plan _ hf => exact absurd hf (hg plan)

/-! ## The effects of an advance -/

section Advance

variable {t t' : Tournament}

theorem generated_congr (hs : t'.swiss.map (·.currentRound) = t.swiss.map (·.currentRound))
    (hg : t'.groups.map (·.finalsGenerated) = t.groups.map (·.finalsGenerated)) :
    t'.generated = t.generated := by
  have hany : t'.groups.any (·.finalsGenerated) = t.groups.any (·.finalsGenerated) := by
    cases h : t.groups <;> cases h' : t'.groups <;> simp_all
  unfold generated
  cases h : t.swiss <;> cases h' : t'.swiss <;> simp_all

/-- A result that is tallied generates nothing. -/
theorem tally_generated {m : Match} (h : t.tally m = .ok t') :
    t'.generated = t.generated ∧ t'.status = t.status ∧ t'.format = t.format ∧
      t'.swiss.map (·.currentRound) = t.swiss.map (·.currentRound) := by
  unfold tally at h
  split at h
  · rename_i e _ hf hs
    obtain ⟨standings, -, h⟩ := bind_eq_ok.1 h
    cases h
    exact ⟨generated_congr (by simp [hs]) rfl, rfl, rfl, by simp [hs]⟩
  · obtain ⟨table, -, h⟩ := bind_eq_ok.1 h
    cases h
    exact ⟨rfl, rfl, rfl, rfl⟩
  · rename_i g hf hg
    obtain ⟨g', hg', h⟩ := bind_eq_ok.1 h
    cases h
    have hgen : g'.finalsGenerated = g.finalsGenerated := by
      unfold recordGroup at hg'
      split at hg'
      · obtain ⟨table, -, hg'⟩ := bind_eq_ok.1 hg'
        cases hg'
        rfl
      · obtain ⟨table, -, hg'⟩ := bind_eq_ok.1 hg'
        cases hg'
        rfl
      · cases hg'
        rfl
    exact ⟨generated_congr rfl (by simp [hg, hgen]), rfl, rfl, rfl⟩
  · cases h
    exact ⟨rfl, rfl, rfl, rfl⟩

theorem generated_of_pairNextRound {rounds : List (Stage × UInt32)}
    (h : t.pairNextRound = .ok (t', rounds))
    (hone : ∀ e, t.swiss = some e → 1 ≤ e.currentRound.toNat) :
    t'.generated = t.generated ++ rounds ∧ t'.status = t.status ∧ t'.format = t.format ∧
      (t.swiss = none → t'.swiss = none) := by
  rcases hs : t.swiss with _ | e
  · rw [pairNextRound_league hs] at h
    cases h
    exact ⟨by simp, rfl, rfl, fun _ => hs⟩
  rw [pairNextRound_eq hs] at h
  split_ifs at h with hheld
  · cases h
    exact ⟨by simp, rfl, rfl, nofun⟩
  obtain ⟨ms, -, h⟩ := bind_eq_ok.1 h
  obtain ⟨standings, -, h⟩ := bind_eq_ok.1 h
  obtain ⟨t₁, happ, h⟩ := bind_eq_ok.1 h
  obtain ⟨next, rfl⟩ := append_eq_ok happ
  cases h
  refine ⟨?_, rfl, rfl, nofun⟩
  obtain ⟨k, hk⟩ := Nat.exists_eq_add_of_le (hone e hs)
  have hlt := (not_or.1 hheld).1
  rw [UInt32.le_iff_toNat_le, Nat.not_le] at hlt
  have hnext : (e.currentRound + 1).toNat = e.currentRound.toNat + 1 := by
    rw [UInt32.toNat_add]
    have := e.totalRounds.toNat_lt
    exact Nat.mod_eq_of_lt (show e.currentRound.toNat + 1 < 2 ^ 32 by omega)
  have hofNat : UInt32.ofNat (2 + k) = e.currentRound + 1 := by
    rw [← UInt32.toNat_inj, hnext, UInt32.toNat_ofNat', Nat.mod_eq_of_lt] <;>
      have := (e.currentRound + 1).toNat_lt <;> omega
  simp only [generated, hs, hnext, hk, Nat.add_sub_cancel, Nat.add_sub_cancel_left]
  rw [Nat.add_comm 1 k, List.range'_1_concat, List.map_append, List.map_singleton, hofNat]

theorem generated_of_drawFinals {finals : List (Stage × UInt32)}
    (h : t.drawFinals = .ok (t', finals))
    (hnone : ∀ plan, t.format = .groups plan → t.swiss = none) :
    t'.generated = t.generated ++ finals ∧ t'.status = t.status := by
  unfold drawFinals at h
  split at h
  · rename_i plan g hf hg
    split_ifs at h with hheld
    · cases h
      exact ⟨by simp, rfl⟩
    · obtain ⟨ms, -, h⟩ := bind_eq_ok.1 h
      obtain ⟨t₁, happ, h⟩ := bind_eq_ok.1 h
      obtain ⟨next, rfl⟩ := append_eq_ok happ
      cases h
      have hgen : g.finalsGenerated = false := by simpa using (not_or.1 hheld).1
      refine ⟨?_, rfl⟩
      simp [generated, hnone plan hf, hg, hgen]
  · cases h
    exact ⟨by simp, rfl⟩

/-- The effects of an advance are what it has changed. -/
theorem generated_of_advance {effects : Effects} (h : t.advance = .done t' effects)
    (hst : t.status = .inProgress) (hone : ∀ e, t.swiss = some e → 1 ≤ e.currentRound.toNat)
    (hnone : ∀ plan, t.format = .groups plan → t.swiss = none) :
    t'.generated = t.generated ++ effects.generated ∧
      (effects.completed ↔ t'.status = .complete) := by
  unfold advance at h
  split at h
  · cases h
  rename_i t₁ rounds hp
  split at h
  · cases h
  rename_i t₂ finals hd
  obtain ⟨hgen₁, hst₁, hf₁, hs₁⟩ := generated_of_pairNextRound hp hone
  obtain ⟨hgen₂, hst₂⟩ := generated_of_drawFinals hd fun plan hf => hs₁ (hnone plan (hf₁ ▸ hf))
  have hgen : t₂.generated = t.generated ++ (rounds ++ finals) := by
    rw [hgen₂, hgen₁, List.append_assoc]
  split_ifs at h with hover
  · cases h
    exact ⟨hgen, by simp⟩
  · cases h
    exact ⟨hgen, by simp [hst₂, hst₁, hst]⟩

end Advance

/-! ## The effects of a result -/

/-- What a result changes is what its effects say, and the match that has been won. -/
theorem Running.generated_of_record {t t' : Tournament} (h : Running t) {id : MatchId}
    {o : Outcome} {effects : Effects} (hr : t.record id o = .done t' effects) :
    t'.generated = t.generated ++ effects.generated ∧
      (effects.completed ↔ t'.status = .complete) := by
  have hok : (t.record id o).answer = .ok effects := by rw [hr]; rfl
  obtain ⟨m, t₁, hm, htakes⟩ := exists_takes h.sound.coherent hok
  obtain ⟨hmem, rfl⟩ := mem_of_find? hm
  have hstatus := h.status_of_open ⟨m, hmem, (checkOutcome_eq_ok_iff.1 htakes.check).1⟩
  obtain ⟨hgen, hst, hf, hround⟩ := tally_generated htakes.tally
  have hgen₁ : t₁.generated = t.generated := hgen
  have hst₁ : t₁.status = t.status := hst
  have hf₁ : t₁.format = t.format := hf
  have hround₁ : t₁.swiss.map (·.currentRound) = t.swiss.map (·.currentRound) := hround
  rw [htakes.record h.sound.coherent] at hr
  rw [← hgen₁]
  refine generated_of_advance hr (hst₁.trans hstatus) (fun e₁ he₁ => ?_) fun plan hf₁' => ?_
  · rw [he₁] at hround₁
    obtain ⟨e, he, hsame⟩ := Option.map_eq_some_iff.1 hround₁.symm
    obtain ⟨hone, hle⟩ := ((h.stages.swissRun he).rounds m.round.toNat).1 ⟨m, hmem, rfl⟩
    have hsame : e.currentRound = e₁.currentRound := hsame
    rw [← hsame]
    omega
  · have hnone := h.stages.swiss_eq_none (by rw [← hf₁, hf₁']; nofun)
    rw [hnone] at hround₁
    exact Option.map_eq_none_iff.1 hround₁

/-- The matches that have been played, each with its winner. -/
def winners (t : Tournament) : List (MatchId × Option Player) :=
  (t.arena.filter Match.isPlayed).map fun m => (m.id, m.winner)

theorem winners_unheld (t : Tournament) : t.unheld.winners = t.winners := by
  have hplayed : Match.isPlayed ∘ Match.unheld = Match.isPlayed := by
    funext m
    unfold Function.comp Match.isPlayed Match.unheld
    cases m.status <;> rfl
  change ((t.arena.map Match.unheld).filter Match.isPlayed).map (fun m => (m.id, m.winner)) = _
  rw [List.filter_map, hplayed, List.map_map]
  rfl

theorem Running.winners_of_record {t t' : Tournament} (h : Running t) {id : MatchId} {o : Outcome}
    {effects : Effects} (hr : t.record id o = .done t' effects) :
    t'.winners.Perm ((id, some o.winner) :: t.winners) := by
  obtain ⟨m, ms, hm, ho, hms, -, he⟩ := h.exists_of_done hr
  obtain ⟨hmem, rfl⟩ := mem_of_find? hm
  exact (h.played_of_done hmem hms he ho).map fun m => (m.id, m.winner)

theorem winners_of_create {c : Config} {stamp : Stamp} {draw : Draw} {t : Tournament}
    (h : create c stamp draw = .ok t) : t.winners = [] := by
  rw [winners, List.map_eq_nil_iff, List.filter_eq_nil_iff]
  exact fun m hm => by simp [(fresh_of_create h m hm).unplayed]

/-! ## A new tournament -/

/-- A knockout that nobody has played has not ended, since all but one are to lose in it. -/
theorem Running.open_of_fresh {t : Tournament} (h : Running t)
    (hf : t.format = .singleElimination ∨ t.format = .doubleElimination)
    (hfresh : ∀ m ∈ t.arena, m.Fresh) : t.Open := by
  by_contra hopen
  have hc := h.complete_iff.2 hopen
  obtain ⟨champion, hlost⟩ : ∃ champion, ∀ p ∈ t.players, p ≠ champion → 0 < lossesOf t.arena p := by
    rcases hf with hf | hf
    · obtain ⟨champion, -, -, -, hall⟩ := (h.oneLoss hf).settled hc
      exact ⟨champion, fun p hp hne => by rw [hall p hp, if_neg hne]; omega⟩
    · obtain ⟨champion, -, -, -, hall⟩ := (h.twoLosses hf).settled hc
      exact ⟨champion, fun p hp hne => by rw [hall p hp hne]; omega⟩
  have hnd := (Roster.check_eq_ok_iff.1 h.sound.roster).2.2
  have hsum := sum_lossesOf (fun m hm => h.sound.coherent.atRest hm) h.sound.rostered hnd
  rw [List.countP_eq_zero.2 fun m hm => by simp [(hfresh m hm).unplayed]] at hsum
  have hone : t.players ⊆ [champion] := fun p hp => by
    by_contra hne
    have hle := List.le_sum_of_mem (List.mem_map_of_mem (f := fun p => lossesOf t.arena p) hp)
    have hpos := hlost p hp (by simpa using hne)
    omega
  have hlen := (hnd.subperm hone).length_le
  have htwo := two_le_players h.sound
  rw [List.length_singleton] at hlen
  omega

section Create

variable {c : Config} {stamp : Stamp} {draw : Draw} {t : Tournament}
  (h : create c stamp draw = .ok t)

include h

theorem open_of_create : t.Open := by
  have hlive := live_of_create h
  have hrun := hlive.running
  have hleague : (c.format = .roundRobin ∨ ∃ plan, c.format = .groups plan) → t.Open := fun hf => by
    by_contra hopen
    have hlen := hrun.length_of_closed hopen
    obtain ⟨m, hm⟩ := List.exists_mem_of_length_pos
      (hlen ▸ matchCount_pos (two_le_players hrun.sound))
    exact hopen ⟨m, hm, (league_of_create h hf).unplayed m hm⟩
  cases hf : c.format with
  | singleElimination =>
    exact hrun.open_of_fresh (.inl (hlive.format.trans hf)) (fresh_of_create h)
  | doubleElimination =>
    exact hrun.open_of_fresh (.inr (hlive.format.trans hf)) (fresh_of_create h)
  | swiss => exact (books_of_create h hf).choose_spec.2.2
  | roundRobin => exact hleague (.inl hf)
  | groups plan => exact hleague (.inr ⟨plan, hf⟩)

theorem generated_of_create : t.generated = [] := by
  have hlive := live_of_create h
  cases hf : c.format with
  | swiss =>
    obtain ⟨e, he, hone, -⟩ := books_of_create h hf
    simp [generated, he.event, hone]
  | groups plan =>
    have hformat := hlive.format.trans hf
    obtain ⟨g, hg, -⟩ := hlive.running.stages.of_groups hformat
    have hleague := league_of_create h (.inr ⟨plan, hf⟩)
    have hgen : g.finalsGenerated = false := by
      by_contra hgen
      obtain ⟨m, hm, hs⟩ := (hlive.running.exists_finals_iff hformat hg).2 (by simpa using hgen)
      have hmem := (hleague.fixture m hm).1
      rw [leagues_groups hformat hg, hs] at hmem
      simp at hmem
    simp [generated, hleague.swiss, hg, hgen]
  | _ =>
    exact hlive.running.stages.generated_eq_nil (by rw [hlive.format, hf]; nofun)
      fun plan => by rw [hlive.format, hf]; nofun

end Create

end Tourney.Tournament
