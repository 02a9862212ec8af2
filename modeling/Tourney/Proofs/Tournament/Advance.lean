import Tourney.Proofs.Tournament.Stages

/-!
# Generating what a result unlocks

Whatever is unlocked is generated as long as there are ids for it: the next Swiss round
(`pairNextRound_yields`), the finals (`drawFinals_yields`), and so the whole advance
(`advance_cases`). After it a tournament runs: what is left to generate waits for a match that is
not resolved yet.
-/

namespace Tourney.Tournament

open Arena

/-- Matches have been generated, and nobody has touched them. -/
structure Extends (t t' : Tournament) : Prop where
  format : t'.format = t.format
  players : t'.players = t.players
  arena : ∃ new, t'.arena = t.arena ++ new ∧ ∀ m ∈ new, m.Fresh

theorem Extends.refl (t : Tournament) : t.Extends t := ⟨rfl, rfl, [], by simp, by simp⟩

theorem Extends.trans {a b c : Tournament} (h : a.Extends b) (h' : b.Extends c) : a.Extends c := by
  obtain ⟨new, hnew, hfresh⟩ := h.arena
  obtain ⟨new', hnew', hfresh'⟩ := h'.arena
  refine ⟨h'.format.trans h.format, h'.players.trans h.players, new ++ new', ?_, ?_⟩
  · rw [hnew', hnew, List.append_assoc]
  · exact List.forall_mem_append.2 ⟨hfresh, hfresh'⟩

/-- Some match is still to be played. -/
def Open (t : Tournament) : Prop := ∃ m ∈ t.arena, m.status.isResolved = false

theorem Open.not_allStagesDone {t : Tournament} (h : t.Open) : ¬t.allStagesDone := by
  obtain ⟨m, hm, ho⟩ := h
  intro hdone
  simp only [allStagesDone, Bool.and_eq_true, List.all_eq_true] at hdone
  rw [hdone.2 m hm] at ho
  cases ho

/-- A Swiss round that is not paired yet waits for a match. -/
def RoundsWait (t : Tournament) : Prop :=
  ∀ e, t.swiss = some e → e.currentRound.toNat < e.totalRounds.toNat → t.Open

/-- Finals that are not drawn yet wait for a match. -/
def FinalsWait (t : Tournament) : Prop :=
  ∀ g, t.groups = some g → g.finalsGenerated = false → t.Open

structure Running (t : Tournament) : Prop where
  sound : Sound t
  stages : Stages t
  roundsWait : RoundsWait t
  finalsWait : FinalsWait t
  settled : t.status = if t.allStagesDone then .complete else .inProgress

theorem two_le_players {t : Tournament} (h : Sound t) : 2 ≤ t.players.length := by
  have hlen := (Roster.check_eq_ok_iff.1 h.roster).1
  unfold Format.minPlayers at hlen
  split at hlen <;> omega

/-! ## The next Swiss round -/

section Swiss

variable {t t' : Tournament} {e : SwissEvent} (hr : SwissRun t e)

include hr

theorem SwissRun.field_perm : (Swiss.pairNextRound e.standings).field.Perm t.players := by
  have hperm := Swiss.pairNextRound_perm e.standings
  rwa [hr.players] at hperm

theorem SwissRun.length_boards :
    (Swiss.pairNextRound e.standings).boards.length = (t.players.length + 1) / 2 := by
  rw [Swiss.length_boards_pairing, hr.field_perm.length_eq]

theorem SwissRun.fits_next (hf : t.format = .swiss)
    (hlt : e.currentRound.toNat < e.totalRounds.toNat) (hfits : Fits t.format t.players.length) :
    t.arena.length + (t.players.length + 1) / 2 + 1 < UInt32.size := by
  have hle : (e.currentRound.toNat + 1) * ((t.players.length + 1) / 2) ≤
      e.totalRounds.toNat * ((t.players.length + 1) / 2) := Nat.mul_le_mul_right _ hlt
  rw [Nat.add_mul, Nat.one_mul, ← hr.boards] at hle
  rw [Fits, hf, matchCount, ← hr.total] at hfits
  omega

/-- The standings have room for the byes of a round that has ids. -/
theorem SwissRun.record_byes {ms : List Match}
    (hfit : t.arena.length + ms.length < UInt32.size) : ∃ standings,
      (ms.filter (·.status = .complete)).foldlM Swiss.record e.standings = .ok standings ∧
      standings.map Swiss.Standing.player = e.standings.map Swiss.Standing.player ∧
      Swiss.Within (t.arena.countP (·.status = .complete) + ms.countP (·.status = .complete))
        standings := by
  have hbyes : (ms.filter (·.status = .complete)).countP (·.status = .complete) =
      ms.countP (·.status = .complete) := by
    rw [List.countP_filter]
    simp
  have hle := Nat.add_le_add (List.countP_le_length (l := t.arena) (p := (·.status = .complete)))
    (List.countP_le_length (l := ms) (p := (·.status = .complete)))
  rw [← hbyes] at hle ⊢
  exact Swiss.foldlM_record_ok _ hr.within (by omega)

/-- One round more has been built, and its byes taken into the standings. -/
theorem SwissRun.next (hn : 2 ≤ t.players.length)
    (hlt : e.currentRound.toNat < e.totalRounds.toNat) {pairs : List (Player × Option Player)}
    {first : MatchId} {stage : Stage} {ms : List Match}
    (hb : Swiss.Built pairs (e.currentRound + 1) first stage ms)
    (hlen : pairs.length = (t.players.length + 1) / 2) {standings : List Swiss.Standing}
    (hpl : standings.map Swiss.Standing.player = e.standings.map Swiss.Standing.player)
    (hwithin : Swiss.Within
      (t.arena.countP (·.status = .complete) + ms.countP (·.status = .complete)) standings)
    (hp : t'.players = t.players) (ha : t'.arena = t.arena ++ ms) :
    SwissRun t' { e with standings, currentRound := e.currentRound + 1 } := by
  have hround : (e.currentRound + 1).toNat = e.currentRound.toNat + 1 := by
    rw [UInt32.toNat_add]
    have := e.totalRounds.toNat_lt
    exact Nat.mod_eq_of_lt (show e.currentRound.toNat + 1 < 2 ^ 32 by omega)
  refine ⟨by rw [hp, ← hr.players]; exact hpl, by rw [hp]; exact hr.total, ?_, ?_, fun r => ?_, ?_⟩
  · simp only [hround]
    omega
  · rw [ha, hp, List.length_append, hr.boards, hb.length_eq, hlen]
    simp only [hround, Nat.add_mul, Nat.one_mul]
  · simp only [ha, hround]
    constructor
    · rintro ⟨m, hm, hmr⟩
      rcases List.mem_append.1 hm with hm | hm
      · have := (hr.rounds r).1 ⟨m, hm, hmr⟩
        omega
      · rw [hb.round_eq m hm, hround] at hmr
        omega
    · rintro ⟨h1, hle⟩
      by_cases hold : r ≤ e.currentRound.toNat
      · obtain ⟨m, hm, hmr⟩ := (hr.rounds r).2 ⟨h1, hold⟩
        exact ⟨m, List.mem_append_left _ hm, hmr⟩
      · obtain ⟨m, hm⟩ := List.exists_mem_of_length_pos
          (show 0 < ms.length by rw [hb.length_eq, hlen]; omega)
        exact ⟨m, List.mem_append_right _ hm, by rw [hb.round_eq m hm, hround]; omega⟩
  · rwa [ha, List.countP_append]

end Swiss

theorem roundsWait_of_held {t : Tournament} {e : SwissEvent} (hs : t.swiss = some e)
    (hheld : e.totalRounds ≤ e.currentRound ∨ !t.roundResolved .main e.currentRound) :
    RoundsWait t := by
  intro e' he' hlt
  obtain rfl : e = e' := Option.some.inj (hs.symm.trans he')
  rcases hheld with hle | hres
  · rw [UInt32.le_iff_toNat_le] at hle
    omega
  · simp only [roundResolved, Bool.not_eq_true', List.all_eq_false] at hres
    obtain ⟨m, hm, hm'⟩ := hres
    exact ⟨m, hm, by simp_all⟩

theorem pairNextRound_yields {t : Tournament} (hs : Sound t) (hg : Stages t) :
    Yields (Fits t.format t.players.length) t.pairNextRound fun r => Sound r.1 ∧ Stages r.1 ∧
      t.Extends r.1 ∧ r.1.status = t.status ∧ RoundsWait r.1 := by
  have hnone : t.swiss = none → Yields (Fits t.format t.players.length) t.pairNextRound
      fun r => Sound r.1 ∧ Stages r.1 ∧ t.Extends r.1 ∧ r.1.status = t.status ∧
        RoundsWait r.1 := fun hn => by
    rw [pairNextRound, hn]
    refine .pure ⟨hs, hg, .refl t, rfl, fun e he => ?_⟩
    rw [hn] at he
    cases he
  cases hg with
  | whole _ _ hn => exact hnone hn
  | groups _ _ _ hn => exact hnone hn
  | swiss e hf hsw hgr hr =>
    by_cases hheld : e.totalRounds ≤ e.currentRound ∨ !t.roundResolved .main e.currentRound
    · simp only [pairNextRound, hsw, hheld, if_true]
      exact .pure ⟨hs, .swiss e hf hsw hgr hr, .refl t, rfl, roundsWait_of_held hsw hheld⟩
    have hlt : e.currentRound.toNat < e.totalRounds.toNat := by
      have := (not_or.1 hheld).1
      rw [UInt32.le_iff_toNat_le] at this
      omega
    have htwo := two_le_players hs
    simp only [pairNextRound, hsw, hheld, if_false]
    refine ((Swiss.buildRound_yields _ (e.currentRound + 1) t.nextMatchId .main).imp
      (fun hfits => ?_) fun _ h => h).bind fun ms hb => ?_
    · have := hr.fits_next hf hlt hfits
      rw [hr.length_boards, hs.toNat_next]
      omega
    have hmslen : ms.length = (t.players.length + 1) / 2 := hb.length_eq.trans hr.length_boards
    have hlast := hb.fits
    rw [hs.toNat_next, hr.length_boards] at hlast
    have hroom : t.arena.length + ms.length < UInt32.size := by omega
    obtain ⟨standings, hrec, hpl, hwithin⟩ := hr.record_byes hroom
    refine Yields.bind (P := fun ss => ss = standings) (.inl ⟨_, hrec, rfl⟩) ?_
    rintro standings rfl
    refine (((hs.keep t.status (some { e with standings, currentRound := e.currentRound + 1 })
      t.table t.groups).append hb.coherent hb.numbered ?_ (hb.players fun a b hab => ?_)).imp
        (fun hfits => ?_) fun _ h => h).bind ?_
    · rw [hs.toNat_next]
      omega
    · obtain ⟨ha, hb⟩ := Swiss.mem_boards_pairing hab
      exact ⟨hr.field_perm.mem_iff.1 ha, fun p hp => hr.field_perm.mem_iff.1 (hb p hp)⟩
    · rw [hmslen]
      exact hr.fits_next hf hlt hfits
    rintro t' ⟨hsound, heq⟩
    obtain ⟨a, b, hab⟩ := Swiss.exists_boards_pairing (hr.field_perm.length_eq.symm ▸ htwo)
    obtain ⟨m, hm, hopen⟩ := hb.exists_unresolved hab
    refine .pure ⟨hsound, ?_, ?_, by rw [heq], fun _ _ _ => ?_⟩
    · rw [heq]
      exact .swiss _ hf rfl hgr (hr.next htwo hlt hb hr.length_boards hpl hwithin rfl rfl)
    · rw [heq]
      exact ⟨rfl, rfl, ms, rfl, hb.fresh⟩
    · rw [heq]
      exact ⟨m, List.mem_append_right _ hm, hopen⟩

/-! ## The finals -/

theorem GroupsRun.finals_yields {t : Tournament} {plan : StagePlan} {g : GroupStage} (hs : Sound t)
    (hf : t.format = .groups plan) (hr : GroupsRun t plan g) (hgen : g.finalsGenerated = false) :
    Yields (Fits t.format t.players.length)
      (Groups.finals g.tableA g.tableB plan t.nextMatchId) fun ms => Coherent ms [] ∧
        Numbered t.nextMatchId ms ∧ (∀ m ∈ ms, m.Fresh) ∧
        (∀ m ∈ ms, ∀ p, m.hasPlayer p → p ∈ t.players) ∧
        t.nextMatchId.val.toNat + ms.length ≤ UInt32.size ∧
        (Fits t.format t.players.length → t.arena.length + ms.length + 1 < UInt32.size) ∧
        ∃ finals, Finals plan { g with finalsGenerated := true } finals ∧
          List.Forall₂ Match.Evolves (groupMatches g ++ finals) (t.arena ++ ms) := by
  obtain ⟨finals, hfin, harena⟩ := hr.arena
  rw [Finals, hgen, if_neg (by simp)] at hfin
  subst hfin
  rw [List.append_nil] at harena
  have hroster := hs.roster
  rw [hf] at hroster
  have hlen := length_groupMatches hr (Roster.check_eq_ok_iff.1 hroster).1
  have hfits : Fits t.format t.players.length →
      t.arena.length + Groups.finalsCount plan + 1 < UInt32.size := fun hfits => by
    rwa [Fits, hf, matchCount, ← hlen, harena.length_eq] at hfits
  have hid := hs.toNat_next
  have hsize := Groups.length_finalsSeeding hr.valid hr.perm hr.lengthA hr.tableA hr.tableB
  have htwo := (Groups.size_le_tables hr.valid hr.perm hr.lengthA hr.tableA hr.tableB).1
  refine (Groups.finals_yields hr.valid hr.perm hr.lengthA hr.tableA hr.tableB hroster
    t.nextMatchId).imp (fun h => ?_) ?_
  · have := hfits h
    omega
  rintro ms ⟨hc, hplayers, hlast, hfol⟩
  have he := hfol.imp fun _ _ h => h.evolves
  have hmslen : ms.length = Groups.finalsCount plan := by
    rw [← hfol.length_eq, Groups.length_finalsTree hsize]
  refine ⟨hc, Groups.numbered_finalsTree.of_outlines (map_outline_of_evolves he), ?_,
    hplayers, hlast, by rwa [hmslen], Groups.finalsTree plan _ t.nextMatchId, ?_,
    List.rel_append harena he⟩
  · intro m' hm'
    obtain ⟨m, hm, hmf⟩ := exists_left hfol hm'
    exact (Groups.mem_finalsTree hm).1.settles hmf
  · rw [Finals, if_pos rfl]
    exact ⟨_, by rw [hs.next, ← harena.length_eq]; rfl, hsize, by rwa [hsize]⟩

theorem drawFinals_eq {t : Tournament} {plan : StagePlan} {g : GroupStage}
    (hf : t.format = .groups plan) (hg : t.groups = some g) : t.drawFinals =
      if g.finalsGenerated ∨ !t.stageResolved .groupA ∨ !t.stageResolved .groupB then .ok (t, [])
      else (do
        let ms ← Groups.finals g.tableA g.tableB plan t.nextMatchId
        let t ← { t with groups := some { g with finalsGenerated := true } }.append ms
        .ok (t, [(.finals, 1)])) := by
  unfold drawFinals
  rw [hf, hg]

theorem drawFinals_yields {t : Tournament} (hs : Sound t) (hg : Stages t) :
    Yields (Fits t.format t.players.length) t.drawFinals fun r => Sound r.1 ∧ Stages r.1 ∧
      t.Extends r.1 ∧ r.1.status = t.status ∧ r.1.swiss = t.swiss ∧ FinalsWait r.1 := by
  have hnone : t.groups = none → Yields (Fits t.format t.players.length) t.drawFinals fun r =>
      Sound r.1 ∧ Stages r.1 ∧ t.Extends r.1 ∧ r.1.status = t.status ∧ r.1.swiss = t.swiss ∧
        FinalsWait r.1 := fun hn => by
    refine .inl ⟨(t, []), ?_, hs, hg, .refl t, rfl, rfl, fun g hgs => ?_⟩
    · rw [drawFinals, hn]
      split <;> simp_all
    · rw [hn] at hgs
      cases hgs
  cases hg with
  | whole _ _ _ hn => exact hnone hn
  | swiss _ _ _ hn => exact hnone hn
  | groups plan g hf hsw hgr hr =>
    rw [drawFinals_eq hf hgr]
    by_cases hcond : g.finalsGenerated ∨ !t.stageResolved .groupA ∨ !t.stageResolved .groupB
    · rw [if_pos hcond]
      refine .pure ⟨hs, .groups plan g hf hsw hgr hr, .refl t, rfl, rfl, fun g' hg' hgen => ?_⟩
      obtain rfl : g = g' := by
        rw [hgr] at hg'
        exact Option.some.inj hg'
      rcases hcond with hgen' | hres | hres
      · rw [hgen] at hgen'
        cases hgen'
      all_goals
        simp only [stageResolved, Bool.not_eq_true', List.all_eq_false] at hres
        obtain ⟨m, hm, hm'⟩ := hres
        exact ⟨m, hm, by simp_all⟩
    · rw [if_neg hcond]
      refine (hr.finals_yields hs hf (by simp_all)).bind
        fun ms ⟨hc, hnum, hfresh, hplayers, hlast, hfit, hr'⟩ => ?_
      refine (((hs.keep t.status t.swiss t.table (some { g with finalsGenerated := true })).append
        hc hnum hlast hplayers).imp hfit fun _ h => h).bind ?_
      rintro t' ⟨hsound, heq⟩
      refine .pure ⟨hsound, ?_, ?_, by rw [heq], by rw [heq], ?_⟩
      · rw [heq]
        exact .groups plan _ hf hsw rfl ⟨hr.valid, hr.perm, hr.lengthA, hr.tableA, hr.tableB, hr'⟩
      · rw [heq]
        exact ⟨rfl, rfl, ms, rfl, hfresh⟩
      · rw [heq]
        intro g' hg' hgen
        cases hg'
        cases hgen

/-! ## The whole advance -/

/-- An advance generates what is unlocked and settles the status, as long as there are ids. -/
theorem advance_cases {t : Tournament} (hs : Sound t) (hg : Stages t)
    (hst : t.status = .inProgress) :
    (∃ t' effects, t.advance = .done t' effects ∧ Running t' ∧ t.Extends t') ∨
      ¬Fits t.format t.players.length ∧ t.advance.answer = .error .outOfRange := by
  rcases pairNextRound_yields hs hg with ⟨⟨t₁, r₁⟩, h₁, hs₁, hg₁, he₁, hst₁, hw₁⟩ | ⟨hn, h₁⟩
  swap
  · exact .inr ⟨hn, by simp only [advance, h₁]; rfl⟩
  rcases drawFinals_yields hs₁ hg₁ with ⟨⟨t₂, r₂⟩, h₂, hs₂, hg₂, he₂, hst₂, hsw₂, hw₂⟩ | ⟨hn, h₂⟩
  swap
  · rw [he₁.format, he₁.players] at hn
    exact .inr ⟨hn, by simp only [advance, h₁, h₂]; rfl⟩
  have hext := he₁.trans he₂
  have hrounds : RoundsWait t₂ := fun e he hlt => by
    rw [hsw₂] at he
    obtain ⟨m, hm, ho⟩ := hw₁ e he hlt
    obtain ⟨new, hnew, -⟩ := he₂.arena
    exact ⟨m, by rw [hnew]; exact List.mem_append_left _ hm, ho⟩
  have hstatus : t₂.status = .inProgress := hst₂.trans (hst₁.trans hst)
  refine .inl ?_
  by_cases hover : t₂.allStagesDone
  · refine ⟨{ t₂ with status := .complete }, ⟨r₁ ++ r₂, true⟩, ?_,
      ⟨hs₂.keep _ t₂.swiss t₂.table t₂.groups, hg₂.withStatus _, hrounds, hw₂, ?_⟩,
      hext.format, hext.players, hext.arena⟩
    · simp only [advance, h₁, h₂, isOver, hstatus, hover, Bool.and_true, decide_true, if_true]
    · have hsame : ({ t₂ with status := .complete } : Tournament).allStagesDone =
          t₂.allStagesDone := rfl
      rw [hsame, hover]
      rfl
  · refine ⟨t₂, ⟨r₁ ++ r₂, false⟩, ?_, ⟨hs₂, hg₂, hrounds, hw₂, ?_⟩, hext⟩
    · simp only [advance, h₁, h₂, isOver, hover, Bool.and_false, Bool.false_eq_true, if_false]
    · rw [if_neg hover]
      exact hstatus

end Tourney.Tournament
