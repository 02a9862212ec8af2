import Tourney.Proofs.Tournament.Fixtures
import Tourney.Proofs.Tournament.Order

/-!
# The tables of round robins and groups

Every table counts exactly the complete matches of its stage, whatever is recorded and in whatever
order (`tables_accurate`): a result is folded into the table of its stage and no other
(`Running.tables_of_enter`), and it joins the complete matches of that stage and no other. Finals
leave the groups as they are (`Counted.groups_of_finals`).
-/

namespace Tourney.Tournament

open Arena RoundRobin

/-! ## One result -/

section Stage

variable {t : Tournament} {m : Match}

/-- A match belongs to a league or to the finals. -/
theorem Running.stage_cases (h : Running t) (hl : t.leagues ≠ []) (hm : m ∈ t.arena) :
    m.stage ∈ t.leagues ∨ m.stage = .finals ∧ ∃ plan g, t.format = .groups plan ∧
      t.groups = some g ∧ g.finalsGenerated = true := by
  obtain ⟨s, hs⟩ := List.exists_mem_of_ne_nil _ hl
  rcases leagues_cases hs with ⟨hf, -⟩ | ⟨plan, g, hf, hg, -⟩
  · obtain ⟨entrants, -, he⟩ := h.stages.of_roundRobin hf
    obtain ⟨a, ha, hev⟩ := exists_left he hm
    rw [leagues_roundRobin hf, Match.outline_stage hev.outline, (mem_fieldMatches ha).1]
    exact .inl List.mem_cons_self
  · obtain ⟨finals, hfin, he⟩ := (h.stages.groupsRun hf hg).arena
    obtain ⟨a, ha, hev⟩ := exists_left he hm
    rw [leagues_groups hf hg, Match.outline_stage hev.outline]
    rcases List.mem_append.1 ha with ha | ha
    · rcases List.mem_append.1 ha with ha | ha <;> simp [(mem_fieldMatches ha).1]
    · refine .inr ⟨hfin.stage a ha, plan, g, hf, hg, ?_⟩
      by_contra hgen
      rw [Finals, if_neg hgen] at hfin
      simp [hfin] at ha

/-- A result is entered in the arena, and tallied. -/
theorem Running.enter_eq_map (h : Running t) (hm : m ∈ t.arena) {o : Outcome}
    (ho : checkOutcome m o = .ok ()) :
    ∃ ms, t.enter m.id o = (t.tally (m.withOutcome o)).map ({ · with arena := ms }) := by
  obtain ⟨ms, hcomplete, -, -, hfind⟩ := h.sound.exists_complete hm ho
  exact ⟨ms, by rw [Tournament.enter_eq hcomplete hfind, tally_arena]⟩

/-- A result goes into the table of its stage, and the other tables stay. -/
theorem Running.tables_of_enter (h : Running t) (hl : t.leagues ≠ []) (hm : m ∈ t.arena)
    {o : Outcome} (ho : checkOutcome m o = .ok ()) {t₁ : Tournament}
    (hent : t.enter m.id o = .ok t₁) :
    t₁.swiss = t.swiss ∧ t₁.leagues = t.leagues ∧ t₁.field = t.field ∧
      ∀ s ∈ t.leagues, if m.stage = s then
        recordAndRank (t.tableOf s) (m.withOutcome o) = .ok (t₁.tableOf s)
      else t₁.tableOf s = t.tableOf s := by
  obtain ⟨ms, heq⟩ := h.enter_eq_map hm ho
  rw [heq, map_eq_ok] at hent
  obtain ⟨t₂, ht₂, rfl⟩ := hent
  change t₂.swiss = t.swiss ∧ t₂.leagues = t.leagues ∧ t₂.field = t.field ∧
    ∀ s ∈ t.leagues, if m.stage = s then
      recordAndRank (t.tableOf s) (m.withOutcome o) = .ok (t₂.tableOf s)
    else t₂.tableOf s = t.tableOf s
  rcases h.stage_cases hl hm with hs | ⟨hs, plan, g, hf, hg, -⟩
  · rw [tally_league (m := m.withOutcome o) (s := m.stage) rfl hs, bind_eq_ok] at ht₂
    obtain ⟨table, hrec, ht₂⟩ := ht₂
    cases ht₂
    refine ⟨swiss_withTables .., leagues_withTables .., field_withTables .., fun s hleague => ?_⟩
    rw [tableOf_withTables hleague]
    split_ifs with heq
    · subst heq
      rw [Function.update_self, hrec]
    · exact Function.update_of_ne (Ne.symm heq) ..
  · rw [tally_finals (m := m.withOutcome o) hf hg hs] at ht₂
    cases ht₂
    refine ⟨rfl, rfl, rfl, fun s hleague => ?_⟩
    rw [if_neg]
    rintro rfl
    rw [leagues_groups hf hg, hs] at hleague
    simp at hleague

end Stage

/-! ## Runs -/

/-- A running tournament of round robins whose tables count what has been played in the leagues it
was created with. -/
structure Counted (c : Config) (t₀ t : Tournament) : Prop where
  live : Live c t
  swiss : t.swiss = none
  leagues : t.leagues = t₀.leagues
  field : t.field = t₀.field
  tallied : ∀ s ∈ t₀.leagues, Tallied (t₀.field s) (wonOf s t.arena) (t.tableOf s)

section Counted

variable {c : Config} {t₀ t : Tournament} (h : Counted c t₀ t) (hl : t₀.leagues ≠ [])

include h hl

theorem Counted.record {id : MatchId} {o : Outcome}
    (hne : (t.record id o).answer ≠ .error .outOfRange) : Counted c t₀ (t.record id o).state := by
  have hlive := h.live.record_of_ne hne
  have hrunning := h.live.running
  cases hrunning.recorded id o with
  | refused f hf hr =>
    rw [hr]
    exact h
  | overflows m hm ho hwhy hr => exact absurd hr hne
  | done m ms t' effects hm ho htally hms hr hrun he =>
    obtain ⟨t₁, hent⟩ := exists_enter (show (t.record id o).answer = .ok effects by rw [hr]; rfl)
    have hadv : t₁.advance.state = t' := by rw [← record_of_enter hent, hr]; rfl
    rw [hr] at hlive ⊢
    obtain ⟨hmem, rfl⟩ := mem_of_find? hm
    obtain ⟨hswiss, hleagues, hfield, htables⟩ :=
      hrunning.tables_of_enter (h.leagues ▸ hl) hmem ho hent
    obtain ⟨hswiss', hleagues', hfield'⟩ := advance_field (hswiss.trans h.swiss)
    obtain ⟨htable', -⟩ := advance_league (hswiss.trans h.swiss)
    rw [hadv] at hswiss' hleagues' hfield' htable'
    refine ⟨hlive, hswiss'.trans (hswiss.trans h.swiss), (hleagues'.trans hleagues).trans h.leagues,
      (hfield'.trans hfield).trans h.field, fun s hs => ?_⟩
    have hs' : s ∈ t.leagues := h.leagues ▸ hs
    have hwon := hrunning.wonOf_record hrun hs' (hleagues'.trans hleagues)
      (hfield'.trans hfield) hm ho hms he
    have hone := htables s hs'
    rw [← congrFun htable' s] at hone
    refine Tallied.perm ?_ hwon.symm
    split_ifs at hone ⊢ with hstage
    · obtain ⟨p1, p2, hne, h1, h2⟩ := hrunning.fixture hmem (hstage ▸ hs')
      exact (h.tallied s hs).recordAndRank (played_withOutcome ho hne h1 h2) hone
    · rw [List.append_nil]
      change Tallied _ _ (t'.tableOf s)
      rw [hone]
      exact h.tallied s hs

end Counted

theorem counted_of_create {c : Config} {stamp : Stamp} {draw : Draw} {t : Tournament}
    (h : create c stamp draw = .ok t)
    (hf : c.format = .roundRobin ∨ ∃ plan, c.format = .groups plan) : Counted c t t := by
  have hl := league_of_create h hf
  refine ⟨live_of_create h, hl.swiss, rfl, rfl, fun s hs => ?_⟩
  have hnone : wonOf s t.arena = [] := List.filter_eq_nil_iff.2 fun m hm hw => by
    have hopen := hl.unplayed m (List.mem_filter.1 hm).1
    rw [decide_eq_true_eq] at hw
    rw [hw] at hopen
    cases hopen
  rw [hnone, hl.fresh]
  exact tallied_freshTable _

/-- A format of round robins has leagues. -/
theorem Live.leagues_ne_nil {c : Config} {t : Tournament} (h : Live c t)
    (hf : c.format = .roundRobin ∨ ∃ plan, c.format = .groups plan) : t.leagues ≠ [] := by
  rw [← h.format] at hf
  rcases hf with hf | ⟨plan, hf⟩
  · simp [leagues_roundRobin hf]
  · obtain ⟨g, hg, -⟩ := h.running.stages.of_groups hf
    simp [leagues_groups hf hg]

theorem counted_of_returns {c : Config} {stamp : Stamp} {draw : Draw} {t : Tournament}
    (h : create c stamp draw = .ok t)
    (hf : c.format = .roundRobin ∨ ∃ plan, c.format = .groups plan)
    {calls : List (MatchId × Outcome)} (hr : Returns t calls) : Counted c t (t.recordAll calls) :=
  hr.recordAll (fun _ _ _ h' hne => h'.record ((live_of_create h).leagues_ne_nil hf) hne)
    (counted_of_create h hf)

/-! ## What the tables say -/

section Says

variable {c : Config} {t₀ t : Tournament} (h : Counted c t₀ t)

include h

theorem Counted.accurate {s : Stage} (hs : s ∈ t₀.leagues) :
    Accurate (t.field s) s t.arena (t.tableOf s) := by
  rw [h.field]
  exact (h.tallied s hs).accurate fun m hm => h.live.running.played (h.leagues ▸ hs) hm

/-- A result of the finals leaves the groups as they are. -/
theorem Counted.groups_of_finals {id : MatchId} {m : Match} (hm : t.match? id = some m)
    (hs : m.stage = .finals) (hl : t₀.leagues ≠ []) (o : Outcome) :
    (t.record id o).state.groups = t.groups := by
  have hrunning := h.live.running
  obtain ⟨hmem, rfl⟩ := mem_of_find? hm
  obtain ⟨plan, g, hf, hg, hgen⟩ : ∃ plan g, t.format = .groups plan ∧ t.groups = some g ∧
      g.finalsGenerated = true := by
    rcases hrunning.stage_cases (h.leagues ▸ hl) hmem with hstage | ⟨-, hgen⟩
    · rcases leagues_cases hstage with ⟨-, hstage⟩ | ⟨_, _, -, -, hstage | hstage⟩ <;>
        rw [hs] at hstage <;> cases hstage
    · exact hgen
  rcases ho : checkOutcome m o with f | ⟨⟩
  · have hno : ∀ m', t.match? m.id = some m' → checkOutcome m' o ≠ .ok () := by
      intro m' hm' ho'
      obtain rfl : m = m' := Option.some.inj (hm.symm.trans hm')
      rw [ho] at ho'
      cases ho'
    obtain ⟨f', -, hr⟩ := hrunning.exists_refused hno
    rw [hr]
    rfl
  · obtain ⟨ms, hent⟩ := hrunning.enter_eq_map hmem ho
    rw [tally_finals (m := m.withOutcome o) hf hg hs] at hent
    rw [record_of_enter hent]
    obtain ⟨t₁, status, hadv, rfl | ⟨_, g', _, _, -, hg', rfl⟩⟩ :=
      advance_drawn (t := { t with arena := ms }) h.swiss
    · rw [hadv]
    · rw [hadv]
      obtain rfl : g = g' := Option.some.inj (hg.symm.trans hg')
      change some { g with finalsGenerated := true } = t.groups
      rw [hg, ← hgen]

end Says

/-- The table of a round robin, or those of both groups, count exactly what has been played. -/
def Tabled (c : Config) (t : Tournament) : Prop :=
  match c.format, t.groups with
  | .roundRobin, _ => Accurate c.players .main t.arena t.table
  | .groups _, some g =>
    (g.groupA ++ g.groupB).Perm c.players ∧ Accurate g.groupA .groupA t.arena g.tableA ∧
      Accurate g.groupB .groupB t.arena g.tableB
  | _, _ => False

theorem Counted.tabled {c : Config} {t₀ t : Tournament} (h : Counted c t₀ t)
    (hf : c.format = .roundRobin ∨ ∃ plan, c.format = .groups plan) : Tabled c t := by
  rw [← h.live.format] at hf
  unfold Tabled
  rw [← h.live.format, ← h.live.players]
  rcases hf with hf | ⟨plan, hf⟩
  · rw [hf]
    have hmain := h.accurate (s := .main) (by simp [← h.leagues, leagues_roundRobin hf])
    rwa [field_roundRobin hf, tableOf_roundRobin hf] at hmain
  · obtain ⟨g, hg, hr⟩ := h.live.running.stages.of_groups hf
    rw [hf, hg]
    have hA := h.accurate (s := .groupA) (by simp [← h.leagues, leagues_groups hf hg])
    have hB := h.accurate (s := .groupB) (by simp [← h.leagues, leagues_groups hf hg])
    rw [(field_groups hf hg).1, (tableOf_groups hf hg).1] at hA
    rw [(field_groups hf hg).2, (tableOf_groups hf hg).2] at hB
    exact ⟨hr.perm, hA, hB⟩

/-- Whatever is recorded, every table of a round robin or of two groups counts exactly the complete
matches of its stage, nobody changes groups, and the finals leave the groups as they are. -/
theorem tables_accurate {c : Config} {stamp : Stamp} {draw : Draw} {t : Tournament}
    (h : create c stamp draw = .ok t)
    (hf : c.format = .roundRobin ∨ ∃ plan, c.format = .groups plan)
    {calls : List (MatchId × Outcome)} (hr : Returns t calls) :
    Tabled c (t.recordAll calls) ∧ (t.recordAll calls).field = t.field ∧
      ∀ id m, (t.recordAll calls).match? id = some m → m.stage = .finals → ∀ o,
        ((t.recordAll calls).record id o).state.groups = (t.recordAll calls).groups := by
  have hcounted := counted_of_returns h hf hr
  exact ⟨hcounted.tabled hf, hcounted.field, fun id m hm hs o =>
    hcounted.groups_of_finals hm hs ((live_of_create h).leagues_ne_nil hf) o⟩

/-- Two groups of two. -/
def groupCup : Config := smallCup (.groups {})

/-- Both groups and a match of the finals; not every winner has scored more. -/
def groupCalls : List (MatchId × Outcome) :=
  [(⟨1⟩, scored "A" 3 7), (⟨2⟩, scored "D" 5 5), (⟨3⟩, scored "C" 1 9)]

theorem tables_accurate_groupCup : ∃ t, create groupCup smallStamp .seeded = .ok t ∧
    (groupCup.format = .roundRobin ∨ ∃ plan, groupCup.format = .groups plan) ∧
    Returns t groupCalls ∧ Tabled groupCup (t.recordAll groupCalls) ∧
      (t.recordAll groupCalls).field = t.field ∧
      ∀ id m, (t.recordAll groupCalls).match? id = some m → m.stage = .finals → ∀ o,
        ((t.recordAll groupCalls).record id o).state.groups =
          (t.recordAll groupCalls).groups := by
  have hrun : (create groupCup smallStamp .seeded).map
      (fun t => decide (Taken t groupCalls)) = .ok true := by cbv
  obtain ⟨t, h, htaken⟩ := map_eq_ok.1 hrun
  have hr : Returns t groupCalls := (of_decide_eq_true htaken).returns
  exact ⟨t, h, .inr ⟨_, rfl⟩, hr, tables_accurate h (.inr ⟨_, rfl⟩) hr⟩

end Tourney.Tournament
