import Tourney.Proofs.Tournament.Tabled

/-!
# Drawing the finals

Finals are drawn by the result that resolves the last match of the groups, and by no other
(`Running.groups_of_record`). They are the finals of the tables as they stand then, and since only
matches of the finals are left to play, nothing changes the tables afterwards
(`drawn_of_returns`).
-/

namespace Tourney

/-- The qualifiers of a group stage in seed order. -/
def GroupStage.qualifiers (g : GroupStage) (plan : StagePlan) : List Player :=
  Groups.finalsSeeding g.tableA g.tableB plan.finalsSize.toNat

namespace Tournament

open Arena

/-- No match of the groups is left to play. -/
def GroupsDone (t : Tournament) : Prop :=
  ∀ m ∈ t.arena, m.stage ≠ .finals → m.status.isResolved

theorem groupsDone_iff {t : Tournament}
    (hs : ∀ m ∈ t.arena, m.stage = .groupA ∨ m.stage = .groupB ∨ m.stage = .finals) :
    t.GroupsDone ↔ t.stageResolved .groupA ∧ t.stageResolved .groupB := by
  simp only [GroupsDone, stageResolved, List.all_eq_true, Bool.or_eq_true, decide_eq_true_eq]
  constructor
  · intro hall
    constructor
    all_goals
      intro m hm
      by_cases hstage : m.stage = .finals
      · simp [hstage]
      · exact .inr (hall m hm hstage)
  · rintro ⟨hA, hB⟩ m hm hne
    rcases hs m hm with hstage | hstage | hstage
    · exact (hA m hm).resolve_left (not_not.2 hstage)
    · exact (hB m hm).resolve_left (not_not.2 hstage)
    · exact absurd hstage hne

/-- What an advance does to a group stage: at most, it draws the finals. -/
theorem advance_groups {t t' : Tournament} {plan : StagePlan} {g : GroupStage} {effects : Effects}
    (hf : t.format = .groups plan) (hg : t.groups = some g) (hs : t.swiss = none)
    (h : t.advance = .done t' effects) :
    (g.finalsGenerated ∨ ¬(t.stageResolved .groupA ∧ t.stageResolved .groupB)) ∧
        effects.generated = [] ∧ (∃ status, t' = { t with status }) ∨
      g.finalsGenerated = false ∧ (t.stageResolved .groupA ∧ t.stageResolved .groupB) ∧
        effects.generated = [(.finals, 1)] ∧ ∃ new next status,
          Groups.finals g.tableA g.tableB plan t.nextMatchId = .ok new ∧
          t' = { t with
            groups := some { g with finalsGenerated := true }, arena := t.arena ++ new,
            nextMatchId := next, status } := by
  have hend : ∀ t₁ r, t.drawFinals = .ok (t₁, r) →
      effects.generated = r ∧ ∃ status, t' = { t₁ with status } := fun t₁ r hd => by
    simp only [advance, pairNextRound_league hs, hd] at h
    split_ifs at h <;> cases h <;> exact ⟨rfl, _, rfl⟩
  have heq := drawFinals_eq hf hg
  by_cases hcond : g.finalsGenerated ∨ !t.stageResolved .groupA ∨ !t.stageResolved .groupB
  · rw [if_pos hcond] at heq
    obtain ⟨hgen, hstate⟩ := hend t [] heq
    refine .inl ⟨?_, hgen, hstate⟩
    rcases hcond with hcond | hcond | hcond
    · exact .inl hcond
    · exact .inr fun hdone => by simp [hdone.1] at hcond
    · exact .inr fun hdone => by simp [hdone.2] at hcond
  · rw [if_neg hcond] at heq
    rcases hd : t.drawFinals with f | ⟨t₁, r⟩
    · simp only [advance, pairNextRound_league hs, hd] at h
      cases h
    obtain ⟨hgen, status, rfl⟩ := hend t₁ r hd
    rw [heq] at hd
    obtain ⟨new, hnew, hd⟩ := bind_eq_ok.1 hd
    obtain ⟨t₂, happ, hd⟩ := bind_eq_ok.1 hd
    cases hd
    obtain ⟨next, rfl⟩ := append_eq_ok happ
    simp only [not_or, Bool.not_eq_true, Bool.not_eq_false'] at hcond
    exact .inr ⟨hcond.1, hcond.2, hgen, new, next, status, hnew, rfl⟩

section Groups

variable {t : Tournament} {plan : StagePlan} {g : GroupStage} (h : Running t)
  (hf : t.format = .groups plan) (hg : t.groups = some g)

include h hf hg

theorem Running.stage_of_groups {m : Match} (hm : m ∈ t.arena) :
    m.stage = .groupA ∨ m.stage = .groupB ∨ m.stage = .finals := by
  have hl := leagues_groups hf hg
  rcases h.stage_cases (by simp [hl]) hm with hs | ⟨hs, -⟩
  · rw [hl] at hs
    simp only [List.mem_cons, List.not_mem_nil, or_false] at hs
    exact hs.imp_right .inl
  · exact .inr (.inr hs)

/-- Finals are in the arena once they have been drawn, and not before. -/
theorem Running.exists_finals_iff : (∃ m ∈ t.arena, m.stage = .finals) ↔ g.finalsGenerated := by
  obtain ⟨finals, hfin, he⟩ := (h.stages.groupsRun hf hg).arena
  have hlen := length_finals hfin
  constructor
  · rintro ⟨m, hm, hs⟩
    obtain ⟨a, ha, hev⟩ := exists_left he hm
    rw [Match.outline_stage hev.outline] at hs
    rcases List.mem_append.1 ha with ha | ha
    · exact absurd hs (mem_groupMatches ha).2.1
    · by_contra hgen
      rw [if_neg hgen] at hlen
      rw [List.eq_nil_of_length_eq_zero hlen] at ha
      cases ha
  · intro hgen
    rw [if_pos hgen] at hlen
    obtain ⟨a, ha⟩ := List.exists_mem_of_length_pos (hlen ▸ Groups.finalsCount_pos plan)
    obtain ⟨m, hm, hev⟩ := exists_right he (List.mem_append_right _ ha)
    exact ⟨m, hm, by rw [Match.outline_stage hev.outline, hfin.stage a ha]⟩

/-- The qualifiers are as many as the finals take, and there are ids for the finals of them. -/
theorem Running.qualifiers_fit (hgen : g.finalsGenerated) : 2 ≤ (g.qualifiers plan).length ∧
    (g.qualifiers plan).Nodup ∧ (g.qualifiers plan).length = plan.finalsSize.toNat ∧
    (firstMatchId.plus (groupMatches g).length).val.toNat + Groups.finalsCount plan <
      UInt32.size := by
  have hr := h.stages.groupsRun hf hg
  have hroster := h.sound.roster
  have hfits := h.fits_of_finals hg hgen
  rw [hf] at hroster hfits
  rw [Fits, matchCount, ← length_groupMatches hr (Roster.check_eq_ok_iff.1 hroster).1] at hfits
  obtain ⟨hcheck, -⟩ := Groups.check_finalsSeeding hr.valid hr.perm hr.lengthA hr.tableA hr.tableB
    hroster
  obtain ⟨htwo, -, hnd⟩ := Roster.check_eq_ok_iff.1 hcheck
  refine ⟨htwo, hnd, Groups.length_finalsSeeding hr.valid hr.perm hr.lengthA hr.tableA hr.tableB,
    ?_⟩
  rw [MatchId.toNat_plus (by rw [toNat_firstMatchId]; omega), toNat_firstMatchId]
  omega

/-- Until the finals are drawn, the next id is the one after the last match of the groups. -/
theorem Running.next_of_groups (hgen : g.finalsGenerated = false) :
    t.nextMatchId = firstMatchId.plus (groupMatches g).length := by
  obtain ⟨finals, hfin, he⟩ := (h.stages.groupsRun hf hg).arena
  have hlen := length_finals hfin
  rw [hgen, if_neg (by simp)] at hlen
  rw [h.sound.next, ← he.length_eq, List.length_append, hlen, Nat.add_zero]

/-- What a result that is taken does to a group stage. -/
theorem Running.groups_of_record {id : MatchId} {m : Match} {o : Outcome} {effects : Effects}
    (hm : t.match? id = some m) (hr : (t.record id o).answer = .ok effects) : ∃ ms g₁,
      List.Forall₂ Match.Evolves t.arena ms ∧ groupMatches g₁ = groupMatches g ∧
      g₁.finalsGenerated = g.finalsGenerated ∧ (m.stage = .finals → g₁ = g) ∧
      ((g.finalsGenerated ∨ ¬GroupsDone { t with arena := ms }) ∧ effects.generated = [] ∧
          (∃ status, (t.record id o).state = { t with arena := ms, groups := some g₁, status }) ∨
        g.finalsGenerated = false ∧ GroupsDone { t with arena := ms } ∧
          effects.generated = [(.finals, 1)] ∧ ∃ new next status,
            Groups.finals g₁.tableA g₁.tableB plan t.nextMatchId = .ok new ∧
            (t.record id o).state = { t with
              groups := some { g₁ with finalsGenerated := true }, arena := ms ++ new,
              nextMatchId := next, status }) := by
  obtain ⟨hmem, rfl⟩ := mem_of_find? hm
  obtain ⟨m', hm', ho⟩ := match_of_record hr
  obtain rfl : m = m' := Option.some.inj (hm.symm.trans hm')
  obtain ⟨ms, hcomplete, -, hms, hfind⟩ := h.sound.exists_complete hmem ho
  have he := evolves_trans (evolves_modify_withOutcome h.sound.coherent hmem ho)
    (hms.imp fun _ _ hf => hf.evolves)
  obtain ⟨t₁, hent⟩ := exists_enter hr
  have hrecord := record_of_enter hent
  rw [enter_eq hcomplete hfind] at hent
  rw [tally_groups (t := { t with arena := ms }) hf hg, bind_eq_ok] at hent
  obtain ⟨g₁, hg₁, hent⟩ := hent
  cases hent
  have hkept : groupMatches g₁ = groupMatches g ∧ g₁.finalsGenerated = g.finalsGenerated ∧
      (m.stage = .finals → g₁ = g) := by
    unfold recordGroup at hg₁
    split at hg₁
    · rename_i hs
      obtain ⟨table, -, hg₁⟩ := bind_eq_ok.1 hg₁
      cases hg₁
      exact ⟨rfl, rfl, fun hc => by rw [show m.stage = .groupA from hs] at hc; cases hc⟩
    · rename_i hs
      obtain ⟨table, -, hg₁⟩ := bind_eq_ok.1 hg₁
      cases hg₁
      exact ⟨rfl, rfl, fun hc => by rw [show m.stage = .groupB from hs] at hc; cases hc⟩
    · cases hg₁
      exact ⟨rfl, rfl, fun _ => rfl⟩
  refine ⟨ms, g₁, he, hkept.1, hkept.2.1, hkept.2.2, ?_⟩
  have hstage : ∀ a ∈ ms, a.stage = .groupA ∨ a.stage = .groupB ∨ a.stage = .finals := by
    intro a ha
    obtain ⟨b, hb, hev⟩ := exists_left he ha
    rw [Match.outline_stage hev.outline]
    exact h.stage_of_groups hf hg hb
  have hdone := groupsDone_iff (t := { t with arena := ms }) hstage
  have hadv : ({ t with arena := ms, groups := some g₁ } : Tournament).advance =
      .done (t.record m.id o).state effects := by
    rw [Reply.done, ← hr]
    exact hrecord.symm
  rw [hdone, ← hkept.2.1]
  exact advance_groups (t := { t with arena := ms, groups := some g₁ }) hf rfl
    (h.stages.swiss_eq_none (by simp [hf])) hadv

end Groups

/-! ## Finals that have been drawn -/

/-- The finals are those of the tables, and the groups are done. -/
structure Drawn (t : Tournament) (plan : StagePlan) (g : GroupStage) : Prop where
  done : t.GroupsDone
  evolves : List.Forall₂ Match.Evolves
    (Groups.finalsTree plan (g.qualifiers plan) (firstMatchId.plus (groupMatches g).length))
    (t.arena.filter (·.stage = .finals))

theorem Drawn.goOn {t : Tournament} {plan : StagePlan} {g : GroupStage} (h : Drawn t plan g)
    {ms : List Match} (he : List.Forall₂ Match.Evolves t.arena ms) :
    Drawn { t with arena := ms } plan g where
  done m' hm' hs := by
    obtain ⟨m, hm, hev⟩ := exists_left he hm'
    rw [Match.outline_stage hev.outline] at hs
    have hres := h.done m hm hs
    rwa [hev.fixed hres]
  evolves := evolves_trans h.evolves (evolves_filter he .finals)

/-- Whatever finals there are have been drawn from the tables. -/
def FinalsDrawn (t : Tournament) : Prop :=
  ∀ plan g, t.format = .groups plan → t.groups = some g → g.finalsGenerated → Drawn t plan g

section Record

variable {t : Tournament} {plan : StagePlan} {g : GroupStage} (h : Running t)
  (hf : t.format = .groups plan) (hg : t.groups = some g) (hd : t.FinalsDrawn)

include h hf hg hd

/-- Finals that are under way leave the groups as they are. -/
theorem Running.drawn_of_record {id : MatchId} {o : Outcome} {effects : Effects}
    (hgen : g.finalsGenerated) (hr : (t.record id o).answer = .ok effects) :
    effects.generated = [] ∧ (t.record id o).state.groups = some g ∧
      Drawn (t.record id o).state plan g := by
  obtain ⟨m, hm, ho⟩ := match_of_record hr
  obtain ⟨ms, g₁, he, -, -, hsame, hcases⟩ := h.groups_of_record hf hg hm hr
  have hdrawn := hd plan g hf hg hgen
  -- only matches of the finals are left to play
  have hstage : m.stage = .finals := by
    by_contra hne
    have hres := hdrawn.done m (mem_of_find? hm).1 hne
    rw [(checkOutcome_eq_ok_iff.1 ho).1] at hres
    cases hres
  obtain rfl := hsame hstage
  rcases hcases with ⟨-, hnone, status, hstate⟩ | ⟨hno, -⟩
  · rw [hstate]
    have hgo := hdrawn.goOn he
    exact ⟨hnone, rfl, hgo.done, hgo.evolves⟩
  · rw [hgen] at hno
    cases hno

/-- Finals that a result unlocks are drawn from the tables with that result in them. -/
theorem Running.finalsDrawn_of_record {id : MatchId} {o : Outcome} {effects : Effects}
    (hrun : Running (t.record id o).state) (hr : (t.record id o).answer = .ok effects) :
    FinalsDrawn (t.record id o).state := by
  intro plan' g' hf' hg' hgen'
  obtain ⟨m, hm, ho⟩ := match_of_record hr
  by_cases hgen : g.finalsGenerated
  · obtain ⟨-, hgroups, hdrawn⟩ := h.drawn_of_record hf hg hd hgen hr
    obtain rfl : g = g' := Option.some.inj (hgroups.symm.trans hg')
    obtain ⟨ms, g₁, -, -, -, -, hcases⟩ := h.groups_of_record hf hg hm hr
    obtain rfl : plan = plan' := by
      rcases hcases with ⟨-, -, _, hstate⟩ | ⟨-, -, -, _, _, _, -, hstate⟩
      all_goals
        rw [hstate] at hf'
        exact Format.groups.inj (hf.symm.trans hf')
    exact hdrawn
  obtain ⟨ms, g₁, he, hmatches, hkept, -, hcases⟩ := h.groups_of_record hf hg hm hr
  have hgen : g.finalsGenerated = false := by simpa using hgen
  rcases hcases with ⟨-, -, status, hstate⟩ | ⟨-, hdone, -, new, next, status, hnew, hstate⟩
  · rw [hstate] at hg'
    cases hg'
    rw [hkept, hgen] at hgen'
    cases hgen'
  have hgroups := hrun.stages.groupsRun hf' hg'
  have hroster := hrun.sound.roster
  rw [hf'] at hroster
  rw [hstate] at hf' hg' hgroups hroster ⊢
  obtain rfl : plan = plan' := Format.groups.inj (hf.symm.trans hf')
  cases hg'
  obtain ⟨-, -, -, hfol⟩ := (Groups.finals_yields hgroups.valid hgroups.perm hgroups.lengthA
    hgroups.tableA hgroups.tableB hroster t.nextMatchId).of_ok hnew
  have hstages : ∀ a ∈ new, a.stage = .finals := fun a ha => by
    obtain ⟨b, hb, hev⟩ := exists_left hfol ha
    rw [Match.outline_stage hev.outline, (Groups.mem_finalsTree hb).2.1]
  refine ⟨List.forall_mem_append.2 ⟨hdone, fun a ha hs => absurd (hstages a ha) hs⟩, ?_⟩
  have hnone : ms.filter (·.stage = .finals) = [] := by
    refine List.filter_eq_nil_iff.2 fun a ha hs => ?_
    obtain ⟨b, hb, hev⟩ := exists_left he ha
    rw [Match.outline_stage hev.outline, decide_eq_true_eq] at hs
    rw [(h.exists_finals_iff hf hg).1 ⟨b, hb, hs⟩] at hgen
    cases hgen
  rw [List.filter_append, hnone, List.nil_append,
    List.filter_eq_self.2 fun a ha => by simpa using hstages a ha]
  have htree := hfol.imp fun _ _ hf => hf.evolves
  rw [h.next_of_groups hf hg hgen, ← hmatches] at htree
  exact htree

end Record

/-! ## Runs -/

theorem Live.finalsDrawn_record {c : Config} {t : Tournament} (h : Live c t) (hd : t.FinalsDrawn)
    {id : MatchId} {o : Outcome} (hne : (t.record id o).answer ≠ .error .outOfRange) :
    FinalsDrawn (t.record id o).state := by
  have hrun := (h.record_of_ne hne).running
  cases h.running.recorded id o with
  | refused f _ hr =>
    rw [hr]
    exact hd
  | overflows m hm ho hwhy hr => exact absurd hr hne
  | done m ms t' effects hm ho htally hms hr hrun' he =>
    intro plan g hf hg hgen
    have hf₀ : t.format = .groups plan := by
      rw [hr] at hf
      exact he.format.symm.trans hf
    obtain ⟨g₀, hg₀, -⟩ := h.running.stages.of_groups hf₀
    exact h.running.finalsDrawn_of_record hf₀ hg₀ hd hrun (by rw [hr]; rfl) plan g hf hg hgen

/-- In a new tournament no finals have been drawn. -/
theorem finalsDrawn_of_create {c : Config} {stamp : Stamp} {draw : Draw} {t : Tournament}
    (h : create c stamp draw = .ok t) : t.FinalsDrawn := by
  intro plan g hf hg hgen
  have hlive := live_of_create h
  obtain ⟨m, hm, hs⟩ := (hlive.running.exists_finals_iff hf hg).2 hgen
  have hleague := (league_of_create h (.inr ⟨plan, hlive.format.symm.trans hf⟩)).fixture m hm
  rw [leagues_groups hf hg, hs] at hleague
  simp at hleague

/-- Whatever is recorded, finals have been drawn from the tables of groups that are done. -/
theorem drawn_of_returns {c : Config} {stamp : Stamp} {draw : Draw} {t : Tournament}
    (h : create c stamp draw = .ok t) {calls : List (MatchId × Outcome)} (hr : Returns t calls) :
    Live c (t.recordAll calls) ∧ (t.recordAll calls).FinalsDrawn :=
  hr.recordAll (P := fun t => Live c t ∧ t.FinalsDrawn)
    (fun _ _ _ ⟨hlive, hd⟩ hne => ⟨hlive.record_of_ne hne, hlive.finalsDrawn_record hd hne⟩)
    ⟨live_of_create h, finalsDrawn_of_create h⟩

end Tournament

end Tourney
