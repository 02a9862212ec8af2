import Tourney.Proofs.Tournament.Completion
import Tourney.Proofs.Tournament.Room
import Tourney.Proofs.Tournament.WellFormed

/-!
# From the groups to the finals

Two groups play apart from one another, and the result that resolves the last of their matches
brings the finals (`Live.generated_of_record`). These are the bracket of the best of both
tables, which meet crosswise in the first round, and one of them becomes the champion
(`Running.finale`).
-/

namespace Tourney.Tournament

open Arena Elimination RoundRobin

/-- Everybody in the group meets everybody else once, and nobody from elsewhere. -/
structure GroupPlay (t : Tournament) (s : Stage) (group : List Player) (table : List Row) :
    Prop where
  meet : ∀ p ∈ group, ∀ q ∈ group, p ≠ q →
    (t.arena.filter (·.stage = s)).countP (fun m => m.hasPlayer p && m.hasPlayer q) = 1
  members : ∀ m ∈ t.arena, m.stage = s → ∀ p, m.hasPlayer p → p ∈ group
  accurate : Accurate group s t.arena table

/-- The finals behind two groups that have been played. -/
structure Finale (t : Tournament) (plan : StagePlan) (g : GroupStage) : Prop where
  drawn : Drawn t plan g
  played : ∀ m ∈ t.arena, m.stage ≠ .finals → m.status = .complete
  size : plan.finalsSize.toNat % 2 = 0 ∧ (g.qualifiers plan).length = plan.finalsSize.toNat
  /-- The seeds are A1, B1, A2, B2 and so on. -/
  seeds : ∀ i < plan.finalsSize.toNat / 2, ∃ a b, g.tableA[i]? = some a ∧ g.tableB[i]? = some b ∧
    (g.qualifiers plan)[2 * i]? = some a.player ∧ (g.qualifiers plan)[2 * i + 1]? = some b.player
  entrants : ∀ p, p ∈ g.qualifiers plan ↔ ∃ m ∈ t.arena, m.stage = .finals ∧ m.hasPlayer p
  crosswise : ∀ m ∈ t.arena, m.stage = .finals → m.InFirstRound → ∀ p q, m.player1 = some p →
    m.player2 = some q → p ∈ g.groupA ∧ q ∈ g.groupB ∨ p ∈ g.groupB ∧ q ∈ g.groupA
  champion : t.status = .complete → ∃ p ∈ g.qualifiers plan, t.champion = some p

/-- Two groups that feed their finals. -/
structure FeedsFinals (c : Config) (plan : StagePlan) (t : Tournament) (g : GroupStage) :
    Prop where
  groups : t.groups = some g
  split : (g.groupA ++ g.groupB).Perm c.players
  apart : List.Disjoint g.groupA g.groupB
  stages : ∀ m ∈ t.arena, m.stage = .groupA ∨ m.stage = .groupB ∨ m.stage = .finals
  playA : GroupPlay t .groupA g.groupA g.tableA
  playB : GroupPlay t .groupB g.groupB g.tableB
  exists_finals : (∃ m ∈ t.arena, m.stage = .finals) ↔ t.GroupsDone
  finale : t.GroupsDone → Finale t plan g
  /-- Whatever the tables say, finals can be drawn from them if there are ids. -/
  draws : ∀ first, first.val.toNat + Groups.finalsCount plan < UInt32.size →
    ∃ ms, Groups.finals g.tableA g.tableB plan first = .ok ms
  /-- The finals come with the result that resolves the last match of the groups. -/
  generated : ∀ id o effects, (t.record id o).answer = .ok effects →
    effects.generated = [(.finals, 1)] ∧ ¬t.GroupsDone ∧ (t.record id o).state.GroupsDone ∨
      effects.generated = [] ∧ ((t.record id o).state.GroupsDone ↔ t.GroupsDone)
  kept : t.GroupsDone → ∀ id o, (t.record id o).answer ≠ .error .outOfRange →
    (t.record id o).state.groups = t.groups ∧
      ((t.record id o).state.arena.filter (·.stage = .finals)).map Match.outline =
        (t.arena.filter (·.stage = .finals)).map Match.outline
  /-- A result that may be recorded can only fail by taking a number out of its range. -/
  refused : ∀ id o f, f ≠ .outOfRange → (t.record id o).answer = .error f →
    (∀ m, t.match? id = some m → checkOutcome m o ≠ .ok ()) ∧ (t.record id o).state = t
  taken : Fits c.format c.players.length → ∀ id m o, t.match? id = some m →
    checkOutcome m o = .ok () → PointsFit t m o → (t.record id o).answer.isOk

theorem Running.groupPlay {t : Tournament} (h : Running t) {s : Stage} (hs : s ∈ t.leagues)
    {table : List Row} (ha : Accurate (t.field s) s t.arena table) :
    GroupPlay t s (t.field s) table where
  meet p hp q hq hne := h.countP_meet hs hp hq hne
  members m hm hms p hp := by
    subst hms
    exact h.mem_field hm hs hp
  accurate := ha

/-! ## The finals -/

section Finals

variable {t : Tournament} {plan : StagePlan} {g : GroupStage} (h : Running t)
  (hf : t.format = .groups plan) (hg : t.groups = some g)

include h hf hg

theorem Running.exists_finals_ok {first : MatchId}
    (hfit : first.val.toNat + Groups.finalsCount plan < UInt32.size) :
    ∃ ms, Groups.finals g.tableA g.tableB plan first = .ok ms := by
  have hr := h.stages.groupsRun hf hg
  have hroster := h.sound.roster
  rw [hf] at hroster
  obtain ⟨ms, hms, -⟩ := (Groups.finals_yields hr.valid hr.perm hr.lengthA hr.tableA hr.tableB
    hroster first).exists_ok hfit
  exact ⟨ms, hms⟩

omit hg in
/-- The champion has a seat in the finals. -/
theorem Running.exists_champion_finals (hc : t.status = .complete) :
    ∃ m ∈ t.arena, m.stage = .finals ∧ ∃ p, m.hasPlayer p ∧ t.champion = some p := by
  obtain ⟨p, -, hp⟩ := h.exists_champion hc
  have hwinner : t.bracketWinner .finals = some p := by
    rw [← hp]
    simp [champion, isComplete, hc, hf]
  obtain ⟨m, hm, hw⟩ := Option.bind_eq_some_iff.1 hwinner
  have hs := List.find?_some hm
  rw [decide_eq_true_eq] at hs
  have hm := List.mem_of_find?_eq_some hm
  exact ⟨m, hm, hs.1, p, (h.sound.coherent.atRest hm).hasPlayer_winner hw, hp⟩

/-- A match of the groups belongs to a league. -/
theorem Running.mem_leagues_of_ne {m : Match} (hm : m ∈ t.arena) (hs : m.stage ≠ .finals) :
    m.stage ∈ t.leagues := by
  rw [leagues_groups hf hg, List.mem_pair]
  exact (or_assoc.2 (h.stage_of_groups hf hg hm)).resolve_right hs

variable (hd : t.FinalsDrawn)

include hd

/-- The groups are done once the finals have been drawn, and not before. -/
theorem Running.groupsDone_iff : t.GroupsDone ↔ g.finalsGenerated := by
  refine ⟨fun hdone => ?_, fun hgen => (hd plan g hf hg hgen).done⟩
  by_contra hgen
  obtain ⟨m, hm, ho⟩ := h.finalsWait g hg (by simpa using hgen)
  have hs : m.stage ≠ .finals := fun hs => hgen ((h.exists_finals_iff hf hg).1 ⟨m, hm, hs⟩)
  rw [hdone m hm hs] at ho
  cases ho

theorem Running.finale (hgen : g.finalsGenerated) : Finale t plan g := by
  have hdrawn := hd plan g hf hg hgen
  have hr := h.stages.groupsRun hf hg
  obtain ⟨-, -, hlen, hfit⟩ := h.qualifiers_fit hf hg hgen
  obtain ⟨-, heven, hsizeA, hsizeB⟩ :=
    Groups.size_le_tables hr.valid hr.perm hr.lengthA hr.tableA hr.tableB
  have hseated := Groups.seated_finalsTree hlen hfit
  have hmem : ∀ m ∈ t.arena, m.stage = .finals → m ∈ t.arena.filter (·.stage = .finals) :=
    fun m hm hs => List.mem_filter.2 ⟨hm, decide_eq_true hs⟩
  have hplayers : ∀ m ∈ t.arena, m.stage = .finals → ∀ p, m.hasPlayer p → p ∈ g.qualifiers plan :=
    fun m hm hs => Groups.players_finals hlen hfit (h.sound.coherent.ofStage .finals)
      hdrawn.evolves m (hmem m hm hs)
  constructor
  case drawn => exact hdrawn
  case played =>
    intro m hm hs
    obtain ⟨p1, p2, hplayed⟩ :=
      h.played_of_resolved hm (h.mem_leagues_of_ne hf hg hm hs) (hdrawn.done m hm hs)
    exact hplayed.status
  case size => exact ⟨heven, hlen⟩
  case seeds => exact fun i hi => Groups.getElem?_finalsSeeding hi hsizeA hsizeB
  case entrants =>
    refine fun p => ⟨fun hp => ?_, fun ⟨m, hm, hs, hp⟩ => hplayers m hm hs p hp⟩
    obtain ⟨m, hm, hpm⟩ := hseated.exists_match hdrawn.evolves hp
    obtain ⟨hm, hs⟩ := List.mem_filter.1 hm
    exact ⟨m, hm, of_decide_eq_true hs, hpm⟩
  case crosswise =>
    intro m hm hs hfirst p q h1 h2
    -- the bracket has an even number of places, so seeds that mirror one another differ in parity
    obtain ⟨j, hj, hp, hq⟩ := hseated.mirrored hdrawn.evolves (hmem m hm hs) hfirst h1 h2
    have hk := Seeding.rounds_pos (g.qualifiers plan).length
    have htwo := two_pow_pred hk
    rcases Groups.mem_of_mirrored hk (by omega) hp hq with ⟨ha, hb⟩ | ⟨hb, ha⟩
    · exact .inl ⟨hr.tableA.mem_iff.1 ha, hr.tableB.mem_iff.1 hb⟩
    · exact .inr ⟨hr.tableB.mem_iff.1 hb, hr.tableA.mem_iff.1 ha⟩
  case champion =>
    intro hc
    obtain ⟨m, hm, hs, p, hpm, hp⟩ := h.exists_champion_finals hf hc
    exact ⟨p, hplayers m hm hs p hpm, hp⟩

end Finals

/-! ## One result -/

section Record

variable {c : Config} {t : Tournament} {plan : StagePlan} {g : GroupStage} (h : Live c t)
  (hf : t.format = .groups plan) (hg : t.groups = some g) (hd : t.FinalsDrawn) {id : MatchId}
  {o : Outcome}

include h hf hg hd

/-- The result that resolves the last match of the groups brings the finals, and no other does. -/
theorem Live.generated_of_record {effects : Effects} (hr : (t.record id o).answer = .ok effects) :
    effects.generated = [(.finals, 1)] ∧ ¬t.GroupsDone ∧ (t.record id o).state.GroupsDone ∨
      effects.generated = [] ∧ ((t.record id o).state.GroupsDone ↔ t.GroupsDone) := by
  have hne : (t.record id o).answer ≠ .error .outOfRange := by simp [hr]
  have hlive := h.record_of_ne hne
  have hdone : ∀ g', (t.record id o).state.groups = some g' →
      ((t.record id o).state.GroupsDone ↔ g'.finalsGenerated) := fun g' hg' =>
    hlive.running.groupsDone_iff ((hlive.format.trans h.format.symm).trans hf) hg'
      (h.finalsDrawn_record hd hne)
  obtain ⟨m, hm, -⟩ := match_of_record hr
  obtain ⟨ms, g₁, -, -, hkept, -, hcases⟩ := h.running.groups_of_record hf hg hm hr
  rw [h.running.groupsDone_iff hf hg hd]
  rcases hcases with ⟨-, hnone, status, hstate⟩ | ⟨hgen, -, hone, new, next, status, -, hstate⟩
  · exact .inr ⟨hnone, by rw [hdone g₁ (by rw [hstate]), hkept]⟩
  · refine .inl ⟨hone, by simp [hgen], ?_⟩
    rw [hdone { g₁ with finalsGenerated := true } (by rw [hstate])]

/-- Finals that have been drawn stay as they were drawn, and so do the groups behind them. -/
theorem Live.kept_of_record (hdone : t.GroupsDone)
    (hne : (t.record id o).answer ≠ .error .outOfRange) :
    (t.record id o).state.groups = t.groups ∧
      ((t.record id o).state.arena.filter (·.stage = .finals)).map Match.outline =
        (t.arena.filter (·.stage = .finals)).map Match.outline := by
  have hgen := (h.running.groupsDone_iff hf hg hd).1 hdone
  rcases hr : (t.record id o).answer with f | effects
  · rw [(h.running.refused_of_error (fun hf => hne (hf ▸ hr)) hr).2]
    exact ⟨rfl, rfl⟩
  · obtain ⟨-, hgroups, hdrawn⟩ := h.running.drawn_of_record hf hg hd hgen hr
    exact ⟨hgroups.trans hg.symm, (map_outline_of_evolves hdrawn.evolves).trans
      (map_outline_of_evolves (hd plan g hf hg hgen).evolves).symm⟩

end Record

/-! ## Runs -/

/-- Whatever is recorded, the groups feed the finals. -/
theorem groups_feed_finals {c : Config} {stamp : Stamp} {draw : Draw} {t : Tournament}
    (h : create c stamp draw = .ok t) {plan : StagePlan} (hf : c.format = .groups plan)
    {calls : List (MatchId × Outcome)} (hr : Returns t calls) :
    ∃ g, FeedsFinals c plan (t.recordAll calls) g := by
  obtain ⟨hlive, hd⟩ := drawn_of_returns h hr
  have hcounted := counted_of_returns h (.inr ⟨plan, hf⟩) hr
  have hleagues := (live_of_create h).leagues_ne_nil (.inr ⟨plan, hf⟩)
  have hrunning := hlive.running
  have hformat := hlive.format.trans hf
  obtain ⟨g, hg, hgroups⟩ := hrunning.stages.of_groups hformat
  have hdone := hrunning.groupsDone_iff hformat hg hd
  have hnd := (Roster.check_eq_ok_iff.1 hrunning.sound.roster).2.2
  have hplay : ∀ s ∈ (t.recordAll calls).leagues, GroupPlay (t.recordAll calls) s
      ((t.recordAll calls).field s) ((t.recordAll calls).tableOf s) := fun s hs =>
    hrunning.groupPlay hs (hcounted.accurate (hcounted.leagues ▸ hs))
  have hA := hplay .groupA (by simp [leagues_groups hformat hg])
  have hB := hplay .groupB (by simp [leagues_groups hformat hg])
  rw [(field_groups hformat hg).1, (tableOf_groups hformat hg).1] at hA
  rw [(field_groups hformat hg).2, (tableOf_groups hformat hg).2] at hB
  refine ⟨g, ?_⟩
  constructor
  case groups => exact hg
  case split => exact hlive.players ▸ hgroups.perm
  case apart => exact (List.nodup_append'.1 (hgroups.perm.nodup_iff.2 hnd)).2.2
  case stages => exact fun m hm => hrunning.stage_of_groups hformat hg hm
  case playA => exact hA
  case playB => exact hB
  case exists_finals => exact (hrunning.exists_finals_iff hformat hg).trans hdone.symm
  case finale => exact fun hgd => hrunning.finale hformat hg hd (hdone.1 hgd)
  case draws => exact fun first hfit => hrunning.exists_finals_ok hformat hg hfit
  case generated => exact fun id o effects hok => hlive.generated_of_record hformat hg hd hok
  case kept => exact fun hgd id o hne => hlive.kept_of_record hformat hg hd hgd hne
  case refused => exact fun id o f hne herr => hrunning.refused_of_error hne herr
  case taken =>
    intro hfits id m o hm ho hpoints
    obtain ⟨-, rfl⟩ := mem_of_find? hm
    rcases hcounted.record_cases hleagues hm ho hfits with ⟨-, hok⟩ | ⟨hno, -⟩
    · exact hok
    · exact absurd hpoints hno

theorem groups_feed_finals_sixCup : ∃ t plan, create sixCup smallStamp .seeded = .ok t ∧
    sixCup.format = .groups plan ∧ Returns t sixCalls ∧
      ∃ g, FeedsFinals sixCup plan (t.recordAll sixCalls) g := by
  obtain ⟨t, h, hr⟩ := exists_sixCup
  exact ⟨t, _, h, rfl, hr, groups_feed_finals h rfl hr⟩

end Tourney.Tournament
