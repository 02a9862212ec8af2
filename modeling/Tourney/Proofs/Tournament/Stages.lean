import Tourney.Proofs.Swiss.Round
import Tourney.Proofs.Swiss.Standing
import Tourney.Proofs.Tournament.Sound

/-!
# The stages of a format

What each format keeps beside its matches, and which matches it has generated so far (`Stages`).
Results keep it (`Stages.goOn`), and so does folding one into the standings (`Stages.tally`).
-/

namespace Tourney.Tournament

open Arena Elimination Seeding

/-- The matches of a format that generates them all at the start, no bye resolved yet. -/
def openingMatches (format : Format) (entrants : List Player) : Option (List Match) :=
  match format with
  | .singleElimination =>
    some (tree (bracketSlots entrants) (rounds entrants.length) firstMatchId .main)
  | .doubleElimination =>
    some (doubleTree (bracketSlots entrants) (rounds entrants.length) firstMatchId .main)
  | .roundRobin => some (RoundRobin.fieldMatches entrants firstMatchId .main)
  | .swiss | .groups _ => none

/-- In a format with one stage all matches are of it. -/
theorem stage_openingMatches {format : Format} {entrants : List Player} {fresh : List Match}
    (hf : openingMatches format entrants = some fresh) : ∀ m ∈ fresh, m.stage = .main := by
  unfold openingMatches at hf
  split at hf <;> cases hf
  · exact fun m hm => (fresh_tree hm).2
  · exact fun m hm => (fresh_doubleTree hm).2
  · exact fun m hm => (RoundRobin.mem_fieldMatches hm).1

/-- The matches of both groups. -/
def groupMatches (g : GroupStage) : List Match :=
  RoundRobin.fieldMatches g.groupA firstMatchId .groupA ++
    RoundRobin.fieldMatches g.groupB
      (firstMatchId.plus (RoundRobin.fieldMatches g.groupA firstMatchId .groupA).length) .groupB

theorem numbered_groupMatches {g : GroupStage} : Numbered firstMatchId (groupMatches g) :=
  RoundRobin.numbered_fieldMatches.append RoundRobin.numbered_fieldMatches

theorem mem_groupMatches {g : GroupStage} {m : Match} (h : m ∈ groupMatches g) :
    m.Fresh ∧ m.stage ≠ .finals ∧ ∀ p, m.hasPlayer p → p ∈ g.groupA ++ g.groupB := by
  rcases List.mem_append.1 h with h | h
  · obtain ⟨hst, -, -, hu, hd, -⟩ := RoundRobin.mem_fieldMatches h
    exact ⟨Match.fresh_of_pending hu.1 hd, by simp [hst],
      fun p hp => List.mem_append_left _ (RoundRobin.players_fieldMatches h hp)⟩
  · obtain ⟨hst, -, -, hu, hd, -⟩ := RoundRobin.mem_fieldMatches h
    exact ⟨Match.fresh_of_pending hu.1 hd, by simp [hst],
      fun p hp => List.mem_append_right _ (RoundRobin.players_fieldMatches h hp)⟩

theorem coherent_groupMatches {g : GroupStage}
    (hfit : (groupMatches g).length + 1 < UInt32.size) : Coherent (groupMatches g) [] := by
  have hlen := hfit
  rw [groupMatches, List.length_append] at hlen
  refine (RoundRobin.coherent_fieldMatches ?_).append (RoundRobin.coherent_fieldMatches ?_) ?_
  · rw [toNat_firstMatchId]
    omega
  · rw [MatchId.toNat_plus (by rw [toNat_firstMatchId]; omega), toNat_firstMatchId]
    omega
  · intro a ha b hb
    obtain ⟨i, hi, hai⟩ := RoundRobin.numbered_fieldMatches.mem ha
    obtain ⟨j, hj, hbj⟩ := RoundRobin.numbered_fieldMatches.mem hb
    rw [hai, hbj, MatchId.plus_plus]
    exact MatchId.plus_lt (by omega) (by rw [toNat_firstMatchId]; omega)

structure SwissRun (t : Tournament) (e : SwissEvent) : Prop where
  players : e.standings.map Swiss.Standing.player = t.players
  total : e.totalRounds.toNat = Swiss.roundCount t.players.length
  current : e.currentRound.toNat ≤ e.totalRounds.toNat
  boards : t.arena.length = e.currentRound.toNat * ((t.players.length + 1) / 2)
  rounds : ∀ r, (∃ m ∈ t.arena, m.round.toNat = r) ↔ 1 ≤ r ∧ r ≤ e.currentRound.toNat
  /-- No counter has moved more often than a match has been won. -/
  within : Swiss.Within (t.arena.countP (·.status = .complete)) e.standings

/-- The finals behind two groups, once they are drawn. -/
def Finals (plan : StagePlan) (g : GroupStage) (finals : List Match) : Prop :=
  if g.finalsGenerated then
    ∃ seeds, finals = Groups.finalsTree plan seeds (firstMatchId.plus (groupMatches g).length) ∧
      seeds.length = plan.finalsSize.toNat ∧ 2 ≤ seeds.length
  else finals = []

structure GroupsRun (t : Tournament) (plan : StagePlan) (g : GroupStage) : Prop where
  valid : plan.check t.players.length = .ok ()
  perm : (g.groupA ++ g.groupB).Perm t.players
  lengthA : g.groupA.length = (t.players.length + 1) / 2
  tableA : (g.tableA.map RoundRobin.Row.player).Perm g.groupA
  tableB : (g.tableB.map RoundRobin.Row.player).Perm g.groupB
  arena : ∃ finals, Finals plan g finals ∧
    List.Forall₂ Match.Evolves (groupMatches g ++ finals) t.arena

inductive Stages (t : Tournament) : Prop
  | whole (entrants : List Player) (fresh : List Match) (hs : t.swiss = none) (hg : t.groups = none)
      (hp : entrants.Perm t.players) (hf : openingMatches t.format entrants = some fresh)
      (he : List.Forall₂ Match.Evolves fresh t.arena)
      (ht : t.format = .roundRobin → (t.table.map RoundRobin.Row.player).Perm t.players)
  | swiss (e : SwissEvent) (hf : t.format = .swiss) (hs : t.swiss = some e) (hg : t.groups = none)
      (hr : SwissRun t e)
  | groups (plan : StagePlan) (g : GroupStage) (hf : t.format = .groups plan)
      (hs : t.swiss = none) (hg : t.groups = some g) (hr : GroupsRun t plan g)

section Format

variable {t : Tournament} (h : Stages t)

include h

/-- The matches of a format that generates them all at the start. -/
theorem Stages.of_opening {fresh : List Player → List Match}
    (hf : ∀ entrants, openingMatches t.format entrants = some (fresh entrants)) :
    ∃ entrants, entrants.Perm t.players ∧ List.Forall₂ Match.Evolves (fresh entrants) t.arena := by
  cases h with
  | whole entrants ms _ _ hp hfresh he _ =>
    rw [hf, Option.some.injEq] at hfresh
    exact ⟨entrants, hp, hfresh ▸ he⟩
  | swiss _ hf' => simp [hf', openingMatches] at hf
  | groups _ _ hf' => simp [hf', openingMatches] at hf

theorem Stages.of_roundRobin (hf : t.format = .roundRobin) :
    ∃ entrants, entrants.Perm t.players ∧ List.Forall₂ Match.Evolves
      (RoundRobin.fieldMatches entrants firstMatchId .main) t.arena :=
  h.of_opening fun _ => by rw [hf, openingMatches]

theorem Stages.of_singleElimination (hf : t.format = .singleElimination) :
    ∃ entrants, entrants.Perm t.players ∧ List.Forall₂ Match.Evolves
      (tree (bracketSlots entrants) (rounds entrants.length) firstMatchId .main) t.arena :=
  h.of_opening fun _ => by rw [hf, openingMatches]

theorem Stages.of_doubleElimination (hf : t.format = .doubleElimination) :
    ∃ entrants, entrants.Perm t.players ∧ List.Forall₂ Match.Evolves
      (doubleTree (bracketSlots entrants) (rounds entrants.length) firstMatchId .main) t.arena :=
  h.of_opening fun _ => by rw [hf, openingMatches]

/-- Only a Swiss event keeps one. -/
theorem Stages.swiss_eq_none (hf : t.format ≠ .swiss) : t.swiss = none := by
  cases h with
  | whole _ _ hs => exact hs
  | swiss _ hf' => exact absurd hf' hf
  | groups _ _ _ hs => exact hs

theorem Stages.swissRun {e : SwissEvent} (he : t.swiss = some e) : SwissRun t e := by
  cases h with
  | whole _ _ hs => rw [he] at hs; cases hs
  | swiss e' _ hs _ hr =>
    obtain rfl : e = e' := Option.some.inj (he.symm.trans hs)
    exact hr
  | groups _ _ _ hs => rw [he] at hs; cases hs

theorem Stages.of_swiss (hf : t.format = .swiss) : ∃ e, t.swiss = some e := by
  cases h with
  | whole _ _ _ _ _ hfresh => rw [hf] at hfresh; cases hfresh
  | swiss e _ hs => exact ⟨e, hs⟩
  | groups _ _ hf' => rw [hf] at hf'; cases hf'

theorem Stages.of_groups {plan : StagePlan} (hf : t.format = .groups plan) :
    ∃ g, t.groups = some g ∧ GroupsRun t plan g := by
  cases h with
  | whole _ _ _ _ _ hfresh => rw [hf] at hfresh; cases hfresh
  | swiss _ hf' => rw [hf] at hf'; cases hf'
  | groups plan' g hf' _ hg hr =>
    rw [hf] at hf'
    cases hf'
    exact ⟨g, hg, hr⟩

theorem Stages.groupsRun {plan : StagePlan} {g : GroupStage} (hf : t.format = .groups plan)
    (hg : t.groups = some g) : GroupsRun t plan g := by
  obtain ⟨g', hg', hr⟩ := h.of_groups hf
  obtain rfl : g = g' := Option.some.inj (hg.symm.trans hg')
  exact hr

end Format

theorem Stages.withStatus {t : Tournament} (h : Stages t) (status : TournamentStatus) :
    Stages { t with status } := by
  cases h with
  | whole entrants fresh hs hg hp hf he ht => exact .whole entrants fresh hs hg hp hf he ht
  | swiss e hf hs hg hr =>
    exact .swiss e hf hs hg ⟨hr.players, hr.total, hr.current, hr.boards, hr.rounds, hr.within⟩
  | groups plan g hf hs hg hr =>
    exact .groups plan g hf hs hg ⟨hr.valid, hr.perm, hr.lengthA, hr.tableA, hr.tableB, hr.arena⟩

theorem countP_complete_le {ms ms' : List Match} (h : List.Forall₂ Match.Evolves ms ms') :
    ms.countP (·.status = .complete) ≤ ms'.countP (·.status = .complete) := by
  induction h with
  | nil => exact Nat.le_refl _
  | @cons m m' _ _ hm _ ih =>
    rw [List.countP_cons, List.countP_cons]
    by_cases hc : m.status = .complete
    · rw [hm.fixed (by rw [hc]; rfl)]
      omega
    · simp only [hc, decide_false, Bool.false_eq_true, if_false]
      omega

theorem exists_round_iff {ms ms' : List Match} (h : List.Forall₂ Match.Evolves ms ms') (r : Nat) :
    (∃ m ∈ ms', m.round.toNat = r) ↔ ∃ m ∈ ms, m.round.toNat = r := by
  constructor
  · rintro ⟨m', hm', hr⟩
    obtain ⟨m, hm, hev⟩ := exists_left h hm'
    exact ⟨m, hm, by rw [← Match.outline_round hev.outline, hr]⟩
  · rintro ⟨m, hm, hr⟩
    obtain ⟨m', hm', hev⟩ := exists_right h hm
    exact ⟨m', hm', by rw [Match.outline_round hev.outline, hr]⟩

section Going

variable {t : Tournament} {ms : List Match} (he : List.Forall₂ Match.Evolves t.arena ms)

include he

theorem SwissRun.goOn {e : SwissEvent} (h : SwissRun t e) : SwissRun { t with arena := ms } e :=
  ⟨h.players, h.total, h.current, he.length_eq.symm.trans h.boards,
    fun r => (exists_round_iff he r).trans (h.rounds r), h.within.mono (countP_complete_le he)⟩

theorem GroupsRun.goOn {plan : StagePlan} {g : GroupStage} (h : GroupsRun t plan g) :
    GroupsRun { t with arena := ms } plan g := by
  obtain ⟨finals, hf, he'⟩ := h.arena
  exact ⟨h.valid, h.perm, h.lengthA, h.tableA, h.tableB, finals, hf, evolves_trans he' he⟩

theorem Stages.goOn (h : Stages t) : Stages { t with arena := ms } := by
  cases h with
  | whole entrants fresh hs hg hp hf he' ht =>
    exact .whole entrants fresh hs hg hp hf (evolves_trans he' he) ht
  | swiss e hf hs hg hr => exact .swiss e hf hs hg (hr.goOn he)
  | groups plan g hf hs hg hr => exact .groups plan g hf hs hg (hr.goOn he)

end Going

theorem length_openingMatches {format : Format} {entrants : List Player} {fresh : List Match}
    (hn : 2 ≤ entrants.length) (h : openingMatches format entrants = some fresh) :
    fresh.length = matchCount format entrants.length := by
  unfold openingMatches at h
  split at h
  · cases h
    exact length_tree
  · cases h
    exact length_doubleTree (rounds_pos _)
  · cases h
    exact RoundRobin.length_fieldMatches hn
  · cases h
  · cases h

/-- A format that generates its matches at the start has no others. -/
theorem openingCount_eq {format : Format} {entrants : List Player} {fresh : List Match}
    (h : openingMatches format entrants = some fresh) (n : Nat) :
    openingCount format n = matchCount format n := by
  cases format with
  | swiss => cases h
  | groups plan => cases h
  | _ => rfl

theorem length_groupMatches {t : Tournament} {plan : StagePlan} {g : GroupStage}
    (h : GroupsRun t plan g) (hn : 4 ≤ t.players.length) : (groupMatches g).length =
      (t.players.length + 1) / 2 * ((t.players.length + 1) / 2 - 1) / 2 +
        t.players.length / 2 * (t.players.length / 2 - 1) / 2 := by
  have hlen := h.perm.length_eq
  have hA := h.lengthA
  rw [List.length_append] at hlen
  have hB : g.groupB.length = t.players.length / 2 := by omega
  rw [groupMatches, List.length_append, RoundRobin.length_fieldMatches (by omega),
    RoundRobin.length_fieldMatches (by omega), hA, hB]

theorem length_finals {plan : StagePlan} {g : GroupStage} {finals : List Match}
    (h : Finals plan g finals) :
    finals.length = if g.finalsGenerated then Groups.finalsCount plan else 0 := by
  unfold Finals at h
  split_ifs at h ⊢ with hg
  · obtain ⟨seeds, rfl, hsize, -⟩ := h
    exact Groups.length_finalsTree hsize
  · rw [h]
    rfl

/-- A group stage whose finals are drawn has all its matches. -/
theorem GroupsRun.length_of_finals {t : Tournament} {plan : StagePlan} {g : GroupStage}
    (h : GroupsRun t plan g) (hn : 4 ≤ t.players.length) (hgen : g.finalsGenerated = true) :
    t.arena.length = matchCount (.groups plan) t.players.length := by
  obtain ⟨finals, hfin, he⟩ := h.arena
  rw [← he.length_eq, List.length_append, length_groupMatches h hn, length_finals hfin,
    if_pos hgen, matchCount]

/-- The finals are the matches of their stage. -/
theorem GroupsRun.evolves_finals {t : Tournament} {plan : StagePlan} {g : GroupStage}
    (hr : GroupsRun t plan g) (hgen : g.finalsGenerated = true) :
    ∃ seeds, seeds.length = plan.finalsSize.toNat ∧ 2 ≤ seeds.length ∧
      List.Forall₂ Match.Evolves
        (Groups.finalsTree plan seeds (firstMatchId.plus (groupMatches g).length))
        (t.arena.filter (·.stage = .finals)) := by
  obtain ⟨finals, hfin, he⟩ := hr.arena
  rw [Finals, if_pos hgen] at hfin
  obtain ⟨seeds, rfl, hsize, hseeds⟩ := hfin
  have he' := evolves_filter he .finals
  rw [List.filter_append, List.filter_eq_nil_iff.2 fun m hm => by
      simpa using (mem_groupMatches hm).2.1, List.nil_append,
    List.filter_eq_self.2 fun m hm => by simpa using (Groups.mem_finalsTree hm).2.1] at he'
  exact ⟨seeds, hsize, hseeds, he'⟩

/-! ## Folding in a result -/

/-- A tally does not look at the arena. -/
theorem tally_arena (t : Tournament) (ms : List Match) (m : Match) :
    tally { t with arena := ms } m = (t.tally m).map ({ · with arena := ms }) := by
  unfold tally
  dsimp only
  split
  · rename_i e _ _
    cases Swiss.record e.standings m <;> rfl
  · cases RoundRobin.recordAndRank t.table m <;> rfl
  · rename_i g _ _
    cases recordGroup g m <;> rfl
  · rfl

theorem recordGroup_spec {g : GroupStage} {m : Match} :
    (∃ tableA tableB, recordGroup g m = .ok { g with tableA, tableB } ∧
      (tableA.map RoundRobin.Row.player).Perm (g.tableA.map RoundRobin.Row.player) ∧
      (tableB.map RoundRobin.Row.player).Perm (g.tableB.map RoundRobin.Row.player)) ∨
      recordGroup g m = .error .outOfRange := by
  unfold recordGroup
  split
  · rcases hr : RoundRobin.recordAndRank g.tableA m with f | table
    · rw [RoundRobin.recordAndRank_eq_error hr]
      exact .inr rfl
    · exact .inl ⟨table, g.tableB, rfl, RoundRobin.players_recordAndRank hr, .refl _⟩
  · rcases hr : RoundRobin.recordAndRank g.tableB m with f | table
    · rw [RoundRobin.recordAndRank_eq_error hr]
      exact .inr rfl
    · exact .inl ⟨g.tableA, table, rfl, .refl _, RoundRobin.players_recordAndRank hr⟩
  · exact .inl ⟨g.tableA, g.tableB, rfl, .refl _, .refl _⟩

/-- A match that has been won since can be folded in, if the counters have room. -/
theorem Stages.tally {t : Tournament} (h : Stages t) {ms : List Match} (m : Match)
    (he : List.Forall₂ Match.Evolves t.arena ms)
    (hcount : t.arena.countP (·.status = .complete) + 1 ≤ ms.countP (·.status = .complete))
    (hfit : ms.length < UInt32.size) :
    (∃ swiss table groups, t.tally m = .ok { t with swiss, table, groups } ∧
      Stages { t with arena := ms, swiss, table, groups }) ∨
      t.format ≠ .swiss ∧ t.tally m = .error .outOfRange := by
  cases h with
  | whole entrants fresh hs hg hp hf he' ht =>
    by_cases hrr : t.format = .roundRobin
    · have htally : t.tally m =
          RoundRobin.recordAndRank t.table m >>= fun table => .ok { t with table } := by
        unfold Tournament.tally
        rw [hrr]
      rw [htally]
      rcases hr : RoundRobin.recordAndRank t.table m with f | table
      · rw [RoundRobin.recordAndRank_eq_error hr]
        exact .inr ⟨by simp [hrr], rfl⟩
      · exact .inl ⟨t.swiss, table, t.groups, rfl, .whole entrants fresh hs hg hp hf
          (evolves_trans he' he) fun _ => (RoundRobin.players_recordAndRank hr).trans (ht hrr)⟩
    · refine .inl ⟨t.swiss, t.table, t.groups, ?_, .whole entrants fresh hs hg hp hf
        (evolves_trans he' he) ht⟩
      unfold Tournament.tally
      split
      · simp_all
      · exact absurd ‹_› hrr
      · simp_all
      · rfl
  | swiss e hf hs hg hr =>
    have htally : t.tally m = Swiss.record e.standings m >>= fun standings =>
        .ok { t with swiss := some { e with standings } } := by
      unfold Tournament.tally
      rw [hf, hs]
    have hle : ms.countP (·.status = .complete) ≤ ms.length := List.countP_le_length
    obtain ⟨standings, hrec, hplayers, hwithin⟩ := Swiss.record_ok hr.within (by omega) m
    refine .inl ⟨some { e with standings }, t.table, t.groups, ?_, .swiss _ hf rfl hg ?_⟩
    · rw [htally, hrec]
      rfl
    · exact ⟨hplayers.trans hr.players, hr.total, hr.current, he.length_eq.symm.trans hr.boards,
        fun r => (exists_round_iff he r).trans (hr.rounds r), hwithin.mono hcount⟩
  | groups plan g hf hs hg hr =>
    have htally : t.tally m = recordGroup g m >>= fun g => .ok { t with groups := some g } := by
      unfold Tournament.tally
      rw [hf, hs, hg]
    rw [htally]
    rcases recordGroup_spec with ⟨tableA, tableB, hrec, hA, hB⟩ | hrec
    · refine .inl ⟨t.swiss, t.table, some { g with tableA, tableB }, by rw [hrec]; rfl,
        .groups plan _ hf hs rfl ?_⟩
      obtain ⟨finals, hfin, he'⟩ := hr.arena
      exact ⟨hr.valid, hr.perm, hr.lengthA, hA.trans hr.tableA, hB.trans hr.tableB, finals, hfin,
        evolves_trans he' he⟩
    · exact .inr ⟨by simp [hf], by rw [hrec]; rfl⟩

end Tourney.Tournament
