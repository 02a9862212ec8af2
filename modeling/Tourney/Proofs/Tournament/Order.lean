import Mathlib
import Tourney.Proofs.Tournament.League

/-!
# The order of results

The results of a round robin can be typed in in any order, and leave the same matches. They leave
the same tables, and with them the same tournament, whatever the order, exactly if no two rows of a
table tie that have counted something.
-/

namespace Tourney.Tournament

open Arena RoundRobin

/-! ## Leagues that are created -/

section Field

variable {entrants : List Player} {first : MatchId} {stage : Stage} {m : Match}

theorem fixture_fieldMatches (hnd : entrants.Nodup) (hm : m ∈ fieldMatches entrants first stage) :
    m.stage = stage ∧ m.targets = [] ∧
      ∃ p1 p2, p1 ≠ p2 ∧ m.player1 = some p1 ∧ m.player2 = some p2 := by
  obtain ⟨hst, ht, -⟩ := mem_fieldMatches hm
  obtain ⟨p1, p2, hne, h1, h2⟩ := seats_fieldMatches hnd hm
  exact ⟨hst, ht, p1, p2, hne, congrArg Seat.player h1, congrArg Seat.player h2⟩

theorem unplayed_fieldMatches (hm : m ∈ fieldMatches entrants first stage) :
    m.status.isResolved = false := by
  obtain ⟨-, -, -, hu, -⟩ := mem_fieldMatches hm
  rw [hu.1]
  rfl

theorem exists_fieldMatches (hn : 2 ≤ entrants.length) :
    ∃ m ∈ fieldMatches entrants first stage, m.status.isResolved = false ∧ m.stage = stage := by
  have hpos : 2 * 1 ≤ entrants.length * (entrants.length - 1) := Nat.mul_le_mul hn (by omega)
  have hlen : 0 < (fieldMatches entrants first stage).length := by
    rw [length_fieldMatches hn]
    omega
  obtain ⟨m, hm⟩ := List.exists_mem_of_length_pos hlen
  exact ⟨m, hm, unplayed_fieldMatches hm, (mem_fieldMatches hm).1⟩

end Field

section Opening

variable {t : Tournament} (hs : t.swiss = none)

include hs

theorem league_of_roundRobin (hf : t.format = .roundRobin) (hnd : t.players.Nodup)
    (ht : t.table = freshTable t.players) {entrants : List Player} {first : MatchId}
    (hperm : entrants.Perm t.players) (hn : 2 ≤ t.players.length)
    (ha : t.arena = fieldMatches entrants first .main) : League t ∧ t.Waits := by
  have hnd' := hperm.nodup_iff.2 hnd
  have hleagues := leagues_roundRobin hf
  refine ⟨⟨hs, fun s => ?_, fun s => ?_, fun m hm => unplayed_fieldMatches (ha ▸ hm),
    fun m hm => ?_⟩, ?_⟩
  · unfold field
    rw [hf]
    cases s
    · exact hnd
    all_goals exact .nil
  · unfold field tableOf
    rw [hf]
    cases s
    · exact ht
    all_goals rfl
  · rw [ha] at hm
    obtain ⟨hst, htargets, hseats⟩ := fixture_fieldMatches hnd' hm
    exact ⟨by simp [hleagues, hst], htargets, hseats⟩
  · obtain ⟨m, hm, ho, hst⟩ : ∃ m ∈ fieldMatches entrants first .main, _ ∧ m.stage = .main :=
      exists_fieldMatches (by rwa [hperm.length_eq])
    exact ⟨m, ha ▸ hm, ho, by simp [hleagues, hst]⟩

theorem league_of_groups {plan : StagePlan} (hf : t.format = .groups plan)
    {groupA groupB : List Player} {first first' : MatchId}
    (hg : t.groups = some (openingGroups groupA groupB)) (hnd : (groupA ++ groupB).Nodup)
    (hn : 2 ≤ groupA.length)
    (ha : t.arena = fieldMatches groupA first .groupA ++ fieldMatches groupB first' .groupB) :
    League t ∧ t.Waits := by
  obtain ⟨hndA, hndB, -⟩ := List.nodup_append.1 hnd
  have hleagues := leagues_groups hf hg
  refine ⟨⟨hs, fun s => ?_, fun s => ?_, fun m hm => ?_, fun m hm => ?_⟩, ?_⟩
  · unfold field
    rw [hf, hg]
    cases s
    · exact .nil
    · exact hndA
    · exact hndB
    · exact .nil
  · unfold field tableOf
    rw [hf, hg]
    cases s <;> rfl
  · rw [ha] at hm
    exact (List.mem_append.1 hm).elim unplayed_fieldMatches unplayed_fieldMatches
  · rw [ha] at hm
    rcases List.mem_append.1 hm with hm | hm
    · obtain ⟨hst, htargets, hseats⟩ := fixture_fieldMatches hndA hm
      exact ⟨by simp [hleagues, hst], htargets, hseats⟩
    · obtain ⟨hst, htargets, hseats⟩ := fixture_fieldMatches hndB hm
      exact ⟨by simp [hleagues, hst], htargets, hseats⟩
  · obtain ⟨m, hm, ho, hst⟩ : ∃ m ∈ fieldMatches groupA first .groupA, _ ∧ m.stage = .groupA :=
      exists_fieldMatches hn
    exact ⟨m, ha ▸ List.mem_append_left _ hm, ho, by simp [hleagues, hst]⟩

end Opening

/-- The first stage of a round robin or of groups is a league, with matches to play. -/
theorem Blank.league {t t' : Tournament} (h : Blank t) {draw : Draw}
    (hf : t.format = .roundRobin ∨ ∃ plan, t.format = .groups plan)
    (h' : t.firstStage draw = .ok t') :
    League { t' with status := .inProgress } ∧ Waits { t' with status := .inProgress } := by
  have hroster := Roster.check_eq_ok_iff.1 h.roster
  have htwo := two_le_players h.sound
  have hperm := (t.entryDraw draw).perm t.players
  unfold Tournament.firstStage at h'
  rcases hf with hf | ⟨plan, hf⟩
  · rw [hf] at h'
    obtain ⟨ms, hms, happ⟩ := bind_eq_ok.1 h'
    obtain ⟨rfl, -⟩ := (generate_yields _ t.nextMatchId .main h.roster_two).of_ok hms
    obtain ⟨next, rfl⟩ := append_eq_ok happ
    have harena := congrArg (· ++ fieldMatches ((t.entryDraw draw).order t.players)
      t.nextMatchId .main) h.arena
    exact league_of_roundRobin h.swiss rfl hroster.2.2 rfl hperm htwo harena
  · have hr := h.roster
    rw [hf] at h' hr
    obtain ⟨d, hd, happ⟩ := bind_eq_ok.1 h'
    obtain ⟨hA, hB, hfix, -⟩ := (Groups.drawGroups_yields _ t.nextMatchId hr
      (h.plan plan hf)).of_ok hd
    obtain ⟨next, rfl⟩ := append_eq_ok happ
    obtain ⟨happend, hlenA, -⟩ := Groups.split_spec ((t.entryDraw draw).order t.players)
    rw [← hA, ← hB] at happend
    have harena := (congrArg (· ++ d.fixtures) h.arena).trans hfix
    refine league_of_groups h.swiss rfl rfl ?_ ?_ harena
    · rw [happend, hperm.nodup_iff]
      exact hroster.2.2
    · rw [hA, hlenA, hperm.length_eq]
      have hn : 4 ≤ t.players.length := (Roster.check_eq_ok_iff.1 hr).1
      omega

/-- A round robin or a group stage begins as a league. -/
theorem league_of_create {c : Config} {stamp : Stamp} {draw : Draw} {t : Tournament}
    (h : create c stamp draw = .ok t)
    (hf : c.format = .roundRobin ∨ ∃ plan, c.format = .groups plan) : League t := by
  obtain ⟨t₀, hb, hst, hf₀, -, hcreate⟩ := create_eq stamp draw (check_of_create h)
  rw [hcreate, start, if_neg (by simp [hst])] at h
  rcases h₁ : t₀.firstStage draw with f | t₁
  · rw [h₁] at h
    cases h
  rw [h₁] at h
  -- the advance at the start finds matches to play, and does nothing
  obtain ⟨hl, hw⟩ := hb.league (hf₀ ▸ hf) h₁
  simp only [hw.advance hl.swiss, Reply.toExcept, Reply.done, Except.map] at h
  cases h
  exact hl

/-! ## Tables in every order -/

theorem exists_perm_filterMap {α β : Type} {g : α → Option β} {bs : List β} {as : List α}
    (h : bs.Perm (as.filterMap g)) : ∃ as' : List α, as'.Perm as ∧ as'.filterMap g = bs := by
  induction bs generalizing as with
  | nil => exact ⟨as, .refl as, List.nil_perm.1 h⟩
  | cons b bs ih =>
    obtain ⟨a, ha, hab⟩ := List.mem_filterMap.1 (h.mem_iff.1 List.mem_cons_self)
    obtain ⟨xs, ys, rfl⟩ := List.append_of_mem ha
    have hmid : (xs ++ a :: ys).Perm (a :: (xs ++ ys)) := List.perm_middle
    have hrest := h.trans (hmid.filterMap g)
    rw [List.filterMap_cons_some hab, List.perm_cons] at hrest
    obtain ⟨as', hperm, rfl⟩ := ih hrest
    exact ⟨a :: as', (hperm.cons a).trans hmid.symm, List.filterMap_cons_some hab⟩

section Order

variable {c : Config} {t : Tournament} {calls calls' : List (MatchId × Outcome)}
  {f f' : Stage → List Row} (hl : League t)

include hl

theorem Enters.tableOf (h : Enters t calls f) : (t.entered calls f).tableOf = f := by
  funext s
  change (t.withTables f).tableOf s = f s
  by_cases hs : s ∈ t.leagues
  · exact tableOf_withTables hs
  · have hempty : (t.played calls).filter (·.stage = s) = [] := by
      refine List.filter_eq_nil_iff.2 fun m hm hst => hs ?_
      obtain ⟨call, -, hmap⟩ := List.mem_filterMap.1 hm
      obtain ⟨a, ha, rfl⟩ := Option.map_eq_some_iff.1 hmap
      rw [decide_eq_true_eq] at hst
      exact hst ▸ (hl.fixture a (mem_of_find? ha).1).1
    have hfresh := h.tables s
    rw [hempty] at hfresh
    rw [tableOf_of_notMem (by rwa [leagues_withTables]), ← Except.ok.inj hfresh, ← hl.fresh s,
      tableOf_of_notMem hs]

/-- Every order of the calls fills the tables alike exactly if they are decided. -/
theorem Enters.perm_iff (h : Enters t calls f) :
    (∀ calls' f', calls'.Perm calls → Enters t calls' f' → f' = f) ↔ ∀ s, Decided (f s) := by
  have hplay : ∀ s, (∀ ms', ms'.Perm ((t.played calls).filter (·.stage = s)) →
      play (t.field s) ms' = .ok (f s)) ↔ Decided (f s) := fun s =>
    play_perm_iff (fun m hm => hl.played h.check (List.mem_filter.1 hm).1) (hl.nodup s) (h.tables s)
  constructor
  · intro hall s
    refine (hplay s).1 fun ms' hperm => ?_
    rw [Tournament.played, List.filter_filterMap] at hperm
    obtain ⟨calls', hcalls', rfl⟩ := exists_perm_filterMap hperm
    obtain ⟨f', h'⟩ := h.perm hl hcalls'.symm
    rw [← List.filter_filterMap, ← hall calls' f' hcalls' h']
    exact h'.tables s
  · intro hd calls' f' hperm h'
    funext s
    have hs := (hplay s).2 (hd s) _ ((hperm.filterMap _).filter _)
    exact Except.ok.inj ((h'.tables s).symm.trans hs)

/-- A match that is open is one of a round robin. -/
theorem League.waits_of_mem {m : Match} (hm : m ∈ (t.entered calls f).arena)
    (ho : m.status.isResolved = false) : (t.entered calls f).Waits := by
  have hout : m.outline ∈ t.arena.map Match.outline := by
    rw [← map_outline_won calls]
    exact List.mem_map_of_mem hm
  obtain ⟨a, ha, hout⟩ := List.mem_map.1 hout
  refine ⟨m, hm, ho, ?_⟩
  change m.stage ∈ (t.withTables f).leagues
  rw [leagues_withTables, Match.outline_stage hout.symm]
  exact (hl.fixture a ha).1

/-- Calls that have been taken leave a match to play, or there are ids for every match. -/
theorem Enters.waits_or_fits (h : Enters t calls f) (hlive : Live c t) (ht : Taken t calls)
    (hf : c.format = .roundRobin ∨ ∃ plan, c.format = .groups plan) (hne : calls ≠ []) :
    (t.entered calls f).Waits ∨ Fits c.format c.players.length := by
  have hafter := hlive.taken ht
  obtain ⟨before, ⟨id, o⟩, rfl⟩ := (List.eq_nil_or_concat calls).resolve_left hne
  rw [List.concat_eq_append] at h hafter ⊢
  obtain ⟨-, -, -, -, hlast⟩ := h.last hl
  have hswiss : (t.entered (before ++ [(id, o)]) f).swiss = none :=
    (swiss_withTables t f).trans hl.swiss
  obtain ⟨-, new, harena, hnew⟩ := advance_league hswiss
  rw [← hlast, ← recordAll_append] at harena hnew
  rw [← hafter.format, ← hafter.players]
  rw [← hafter.format] at hf
  rcases hf with hf | ⟨plan, hf⟩
  · exact .inr (hafter.running.fits (by simp [hf]) (by simp [hf]))
  cases hafter.running.stages with
  | whole entrants fresh _ _ _ hfresh =>
    rw [hf] at hfresh
    cases hfresh
  | swiss e hswiss =>
    rw [hf] at hswiss
    cases hswiss
  | groups plan' g _ _ hg hr =>
    by_cases hgen : g.finalsGenerated = true
    · exact .inr (hafter.running.fits_of_finals hg hgen)
    · obtain ⟨m, hm, ho⟩ := hafter.running.finalsWait g hg (by simpa using hgen)
      rcases hnew with rfl | ⟨g', hg', hgen'⟩
      · rw [harena, List.append_nil] at hm
        exact .inl (hl.waits_of_mem hm ho)
      · rw [hg] at hg'
        cases hg'
        exact absurd hgen' hgen

/-- Calls that have been taken are taken in any order. -/
theorem Enters.taken_perm (h : Enters t calls f) (hlive : Live c t) (ht : Taken t calls)
    (hf : c.format = .roundRobin ∨ ∃ plan, c.format = .groups plan) (hperm : calls'.Perm calls)
    (h' : Enters t calls' f') : Taken t calls' := by
  rcases List.eq_nil_or_concat calls' with rfl | ⟨before, ⟨id, o⟩, rfl⟩
  · trivial
  rw [List.concat_eq_append] at hperm h' ⊢
  obtain ⟨f₀, h₀, htaken, hstate, hlast⟩ := h'.last hl
  refine (taken_append ..).2 ⟨htaken, ?_⟩
  have hswiss : (t.entered (before ++ [(id, o)]) f').swiss = none :=
    (swiss_withTables t f').trans hl.swiss
  have hne : calls ≠ [] := by
    rintro rfl
    exact absurd hperm.length_eq (by simp)
  rcases h.waits_or_fits hl hlive ht hf hne with ⟨m, hm, ho, -⟩ | hfits
  · have hwaits : (t.entered (before ++ [(id, o)]) f').Waits := by
      refine hl.waits_of_mem ?_ ho
      change m ∈ won (before ++ [(id, o)]) t.arena
      rwa [won_perm hperm h'.nodup]
    rw [hlast, hwaits.advance hswiss]
    rfl
  obtain ⟨m, hm, -⟩ := h'.check (id, o) (by simp)
  obtain ⟨f₁, table, h₁, hid, hcheck, hr, -⟩ := (enters_append_iff hm).1 h'
  have hfind : (t.recordAll before).match? id = some m := by
    rw [hstate]
    exact (find?_won hid).trans hm
  cases (hlive.taken htaken).running.recorded id o with
  | refused e _ _ hno => exact absurd hcheck (hno m hfind)
  | overflows m' hm' _ hwhy =>
    obtain rfl : m = m' := Option.some.inj (hfind.symm.trans hm')
    rcases hwhy with ⟨-, htally⟩ | hn
    · obtain rfl : f₀ = f₁ := funext fun s =>
        Except.ok.inj ((h₀.tables s).symm.trans (h₁.tables s))
      have hok := hl.tally_entered (f := f₀) (o := o) (mem_of_find? hm).1 (won before t.arena)
      rw [hr] at hok
      rw [hstate, show (t.entered before f₀).tally (m.withOutcome o) = _ from hok] at htally
      cases htally
    · rw [(hlive.taken htaken).format, (hlive.taken htaken).players] at hn
      exact absurd hfits hn
  | done _ _ t' effects _ _ _ _ hrec =>
    rw [hrec]
    rfl

theorem Enters.recordAll (h : Enters t calls f) (hne : calls ≠ []) :
    t.recordAll calls = (t.entered calls f).advance.state := by
  obtain ⟨before, ⟨id, o⟩, rfl⟩ := (List.eq_nil_or_concat calls).resolve_left hne
  rw [List.concat_eq_append] at h ⊢
  obtain ⟨-, -, -, -, hlast⟩ := h.last hl
  rw [recordAll_append, hlast]

theorem Enters.tableOf_recordAll (h : Enters t calls f) : (t.recordAll calls).tableOf = f := by
  by_cases hne : calls = []
  · subst hne
    have htables := h.tableOf hl
    rw [hl.entered_nil h] at htables
    exact htables
  · have hswiss : (t.entered calls f).swiss = none := (swiss_withTables t f).trans hl.swiss
    rw [h.recordAll hl hne, (advance_league hswiss).1, h.tableOf hl]

theorem Enters.recordAll_perm (h : Enters t calls f) (h' : Enters t calls' f)
    (hperm : calls'.Perm calls) : t.recordAll calls' = t.recordAll calls := by
  by_cases hne : calls = []
  · subst hne
    rw [List.perm_nil.1 hperm]
  · have hne' : calls' ≠ [] := by
      rintro rfl
      exact hne (List.nil_perm.1 hperm)
    rw [h.recordAll hl hne, h'.recordAll hl hne', entered, entered, won_perm hperm h'.nodup]

end Order

/-- The same results leave the same tables in whatever order they are recorded, and then the same
tournament, exactly if no two rows of a table tie that have counted something. -/
theorem tables_perm_iff {c : Config} {stamp : Stamp} {draw : Draw} {t : Tournament}
    (h : create c stamp draw = .ok t)
    (hf : c.format = .roundRobin ∨ ∃ plan, c.format = .groups plan)
    {calls : List (MatchId × Outcome)} (hids : ∀ call ∈ calls, (t.match? call.1).isSome)
    (ht : Taken t calls) :
    (∀ calls', calls'.Perm calls → Taken t calls') ∧
      ((∀ calls', calls'.Perm calls →
          (t.recordAll calls').tableOf = (t.recordAll calls).tableOf) ↔
        ∀ s, Decided ((t.recordAll calls).tableOf s)) ∧
      ((∀ s, Decided ((t.recordAll calls).tableOf s)) →
        ∀ calls', calls'.Perm calls → t.recordAll calls' = t.recordAll calls) := by
  have hl := league_of_create h hf
  obtain ⟨f, hcalls⟩ := hl.enters hids ht
  have hperm := hcalls.perm_iff hl
  rw [hcalls.tableOf_recordAll hl]
  refine ⟨fun calls' hp => ?_, ⟨fun hall => hperm.1 fun calls' f' hp h' => ?_,
    fun hd calls' hp => ?_⟩, fun hd calls' hp => ?_⟩
  · obtain ⟨f', h'⟩ := hcalls.perm hl hp.symm
    exact hcalls.taken_perm hl (live_of_create h) ht hf hp h'
  · rw [← h'.tableOf_recordAll hl, hall calls' hp]
  · obtain ⟨f', h'⟩ := hcalls.perm hl hp.symm
    rw [h'.tableOf_recordAll hl, hperm.2 hd calls' f' hp h']
  · obtain ⟨f', h'⟩ := hcalls.perm hl hp.symm
    obtain rfl := hperm.2 hd calls' f' hp h'
    exact hcalls.recordAll_perm hl h' hp

/-- Three players in seed order. -/
def trio : Config := { smallCup .roundRobin with players := ["A", "B", "C"] }

def scored (winner : Player) (score1 score2 : UInt32) : Outcome := ⟨winner, { score1, score2 }⟩

/-- Everyone wins once, by the same score. -/
def circle : List (MatchId × Outcome) :=
  [(⟨1⟩, scored "B" 7 3), (⟨2⟩, scored "C" 3 7), (⟨3⟩, scored "A" 7 3)]

theorem tables_perm_iff_circle : ∃ t, create trio smallStamp .seeded = .ok t ∧
    (∀ call ∈ circle, (t.match? call.1).isSome) ∧ Taken t circle ∧
    (∀ calls', calls'.Perm circle → Taken t calls') ∧
    ((∀ calls', calls'.Perm circle →
        (t.recordAll calls').tableOf = (t.recordAll circle).tableOf) ↔
      ∀ s, Decided ((t.recordAll circle).tableOf s)) ∧
    ((∀ s, Decided ((t.recordAll circle).tableOf s)) →
      ∀ calls', calls'.Perm circle → t.recordAll calls' = t.recordAll circle) := by
  have hrun : (create trio smallStamp .seeded).toOption.map (fun t =>
      (decide (∀ call ∈ circle, (t.match? call.1).isSome), decide (Taken t circle))) =
      some (true, true) := by cbv
  rcases h : create trio smallStamp .seeded with f | t
  · rw [h] at hrun
    cases hrun
  · rw [h] at hrun
    simp only [Except.toOption, Option.map_some, Option.some.injEq, Prod.mk.injEq,
      decide_eq_true_eq] at hrun
    exact ⟨t, rfl, hrun.1, hrun.2, tables_perm_iff h (.inl rfl) hrun.1 hrun.2⟩

/-- All three tie, and who has won depends on the match that was recorded last. -/
theorem champion_circle : ∃ t, create trio smallStamp .seeded = .ok t ∧ Taken t circle ∧
    (circle.rotate 2).Perm circle ∧ Taken t (circle.rotate 2) ∧
    (t.recordAll circle).table.map Row.player = ["B", "C", "A"] ∧
    (t.recordAll (circle.rotate 2)).table.map Row.player = ["A", "B", "C"] ∧
    (t.recordAll circle).champion = some "B" ∧
    (t.recordAll (circle.rotate 2)).champion = some "A" := by
  have hrun : (create trio smallStamp .seeded).toOption.map (fun t =>
      (decide (Taken t circle), decide (Taken t (circle.rotate 2)),
        (t.recordAll circle).table.map Row.player,
        (t.recordAll (circle.rotate 2)).table.map Row.player,
        (t.recordAll circle).champion, (t.recordAll (circle.rotate 2)).champion)) =
      some (true, true, ["B", "C", "A"], ["A", "B", "C"], some "B", some "A") := by cbv
  rcases h : create trio smallStamp .seeded with f | t
  · rw [h] at hrun
    cases hrun
  · rw [h] at hrun
    simp only [Except.toOption, Option.map_some, Option.some.injEq, Prod.mk.injEq,
      decide_eq_true_eq] at hrun
    obtain ⟨htaken, htaken', hrun⟩ := hrun
    exact ⟨t, rfl, htaken, List.rotate_perm circle 2, htaken', hrun⟩

end Tourney.Tournament
