import Mathlib.Logic.Function.Basic
import Tourney.Proofs.RoundRobin.Orders
import Tourney.Proofs.Tournament.Run

/-!
# The tables of a tournament

A round robin keeps one table, and a group stage one for each group. Seen as a table for every
stage (`tableOf`), both fold a match into the table of its stage (`tally_withTables`). Nothing else
touches the tables (`advance_league`).
-/

namespace Tourney.Tournament

open Arena RoundRobin

/-- The stages that are played as round robins. -/
def leagues (t : Tournament) : List Stage :=
  match t.format, t.groups with
  | .roundRobin, _ => [.main]
  | .groups _, some _ => [.groupA, .groupB]
  | _, _ => []

/-- The table of a stage, empty where the stage has none. -/
def tableOf (t : Tournament) (s : Stage) : List Row :=
  match t.format, t.groups, s with
  | .roundRobin, _, .main => t.table
  | .groups _, some g, .groupA => g.tableA
  | .groups _, some g, .groupB => g.tableB
  | _, _, _ => []

/-- Who is in the table of a stage. -/
def field (t : Tournament) (s : Stage) : List Player :=
  match t.format, t.groups, s with
  | .roundRobin, _, .main => t.players
  | .groups _, some g, .groupA => g.groupA
  | .groups _, some g, .groupB => g.groupB
  | _, _, _ => []

/-- The tournament with other tables. -/
def withTables (t : Tournament) (f : Stage → List Row) : Tournament :=
  match t.format, t.groups with
  | .roundRobin, _ => { t with table := f .main }
  | .groups _, some g =>
    { t with groups := some { g with tableA := f .groupA, tableB := f .groupB } }
  | _, _ => t

section RoundRobin

variable {t : Tournament} (hf : t.format = .roundRobin)

include hf

theorem leagues_roundRobin : t.leagues = [.main] := by
  unfold leagues
  rw [hf]

theorem tableOf_roundRobin : t.tableOf .main = t.table := by
  unfold tableOf
  rw [hf]

theorem field_roundRobin : t.field .main = t.players := by
  unfold field
  rw [hf]

theorem withTables_roundRobin (f : Stage → List Row) :
    t.withTables f = { t with table := f .main } := by
  unfold withTables
  rw [hf]

theorem tally_roundRobin (m : Match) :
    t.tally m = recordAndRank t.table m >>= fun table => .ok { t with table } := by
  unfold Tournament.tally
  rw [hf]

end RoundRobin

section Groups

variable {t : Tournament} {plan : StagePlan} {g : GroupStage} (hf : t.format = .groups plan)
  (hg : t.groups = some g)

include hf hg

theorem leagues_groups : t.leagues = [.groupA, .groupB] := by
  unfold leagues
  rw [hf, hg]

theorem tableOf_groups : t.tableOf .groupA = g.tableA ∧ t.tableOf .groupB = g.tableB := by
  unfold tableOf
  rw [hf, hg]
  exact ⟨rfl, rfl⟩

theorem field_groups : t.field .groupA = g.groupA ∧ t.field .groupB = g.groupB := by
  unfold field
  rw [hf, hg]
  exact ⟨rfl, rfl⟩

theorem withTables_groups (f : Stage → List Row) : t.withTables f =
    { t with groups := some { g with tableA := f .groupA, tableB := f .groupB } } := by
  unfold withTables
  rw [hf, hg]

theorem tally_groups (m : Match) :
    t.tally m = recordGroup g m >>= fun g => .ok { t with groups := some g } := by
  unfold Tournament.tally
  rw [hf, hg]

end Groups

theorem leagues_cases {t : Tournament} {s : Stage} (h : s ∈ t.leagues) :
    t.format = .roundRobin ∧ s = .main ∨ ∃ plan g, t.format = .groups plan ∧ t.groups = some g ∧
      (s = .groupA ∨ s = .groupB) := by
  unfold leagues at h
  split at h
  · exact .inl ⟨‹_›, by simpa using h⟩
  · exact .inr ⟨_, _, ‹_›, ‹_›, by simpa using h⟩
  · simp at h

section Set

variable {t : Tournament} {s : Stage} {f : Stage → List Row}

theorem tableOf_withTables (hs : s ∈ t.leagues) : (t.withTables f).tableOf s = f s := by
  unfold tableOf
  rcases leagues_cases hs with ⟨hf, rfl⟩ | ⟨plan, g, hf, hg, hs⟩
  · simp only [withTables_roundRobin hf, hf]
  · simp only [withTables_groups hf hg, hf]
    rcases hs with rfl | rfl <;> rfl

theorem tableOf_of_notMem (hs : s ∉ t.leagues) : t.tableOf s = [] := by
  unfold leagues at hs
  unfold tableOf
  split <;> simp_all

theorem swiss_withTables (t : Tournament) (f : Stage → List Row) :
    (t.withTables f).swiss = t.swiss := by
  unfold withTables
  split <;> rfl

theorem leagues_withTables (t : Tournament) (f : Stage → List Row) :
    (t.withTables f).leagues = t.leagues := by
  unfold withTables
  split
  · rfl
  · rename_i plan g hf hg
    unfold leagues
    simp only [hf, hg]
  · rfl

theorem field_withTables (t : Tournament) (f : Stage → List Row) :
    (t.withTables f).field = t.field := by
  unfold withTables
  split
  · rfl
  · rename_i plan g hf hg
    funext s
    unfold field
    simp only [hf, hg]
    cases s <;> rfl
  · rfl

theorem withTables_tableOf (t : Tournament) : t.withTables t.tableOf = t := by
  unfold withTables
  split
  · rw [tableOf_roundRobin ‹_›]
  · rename_i plan g hf hg
    rw [(tableOf_groups hf hg).1, (tableOf_groups hf hg).2]
    change { t with groups := some g } = t
    rw [← hg]
  · rfl

/-- A match is folded into the table of its stage. -/
theorem tally_withTables {m : Match} (hs : m.stage ∈ t.leagues) : (t.withTables f).tally m =
    recordAndRank (f m.stage) m >>= fun table =>
      .ok (t.withTables (Function.update f m.stage table)) := by
  rcases leagues_cases hs with ⟨hf, hs⟩ | ⟨plan, g, hf, hg, hs⟩
  · simp only [withTables_roundRobin hf, hs, Function.update_self]
    exact tally_roundRobin (t := { t with table := f .main }) hf m
  · have hformat : (t.withTables f).format = .groups plan := by rw [withTables_groups hf hg, hf]
    rw [tally_groups hformat (by rw [withTables_groups hf hg]), recordGroup]
    simp only [withTables_groups hf hg]
    rcases hs with hs | hs
    · simp only [hs, Function.update_self]
      cases recordAndRank (f .groupA) m with
      | error f => rfl
      | ok table => simp [bind, Except.bind]
    · simp only [hs, Function.update_self]
      cases recordAndRank (f .groupB) m with
      | error f => rfl
      | ok table => simp [bind, Except.bind]

end Set

section Tally

variable {t : Tournament} {m : Match}

theorem tally_league {s : Stage} (hm : m.stage = s) (hs : s ∈ t.leagues) :
    t.tally m = recordAndRank (t.tableOf s) m >>= fun table =>
      .ok (t.withTables (Function.update t.tableOf s table)) := by
  subst hm
  conv_lhs => rw [← withTables_tableOf t]
  exact tally_withTables hs

theorem tally_finals {plan : StagePlan} {g : GroupStage} (hf : t.format = .groups plan)
    (hg : t.groups = some g) (hs : m.stage = .finals) : t.tally m = .ok t := by
  rw [tally_groups hf hg, recordGroup, hs]
  change Except.ok { t with groups := some g } = Except.ok t
  rw [← hg]

theorem played_withOutcome {o : Outcome} {p1 p2 : Player} (ho : checkOutcome m o = .ok ())
    (hne : p1 ≠ p2) (h1 : m.player1 = some p1) (h2 : m.player2 = some p2) :
    Played (m.withOutcome o) p1 p2 := by
  refine ⟨rfl, h1, h2, hne, ?_⟩
  have hwinner := (checkOutcome_eq_ok_iff.1 ho).2.2
  rw [Match.hasPlayer, h1, h2, Bool.or_eq_true, beq_iff_eq, beq_iff_eq] at hwinner
  exact hwinner.imp Eq.symm Eq.symm

end Tally

/-! ## Advancing -/

section Advance

variable {t t' : Tournament}

theorem append_eq_ok {ms : List Match} (h : t.append ms = .ok t') :
    ∃ next, t' = { t with nextMatchId := next, arena := t.arena ++ ms } := by
  unfold append at h
  split at h
  · rename_i hlast
    cases h
    refine ⟨t.nextMatchId, ?_⟩
    rw [List.getLast?_eq_none_iff.1 hlast, List.append_nil]
  · obtain ⟨next, -, h⟩ := bind_eq_ok.1 h
    cases h
    exact ⟨next, rfl⟩

/-- What drawing the finals changes, if it changes anything. -/
theorem drawFinals_cases {r : List (Stage × UInt32)} (h : t.drawFinals = .ok (t', r)) :
    t' = t ∨ ∃ plan g ms next, t.format = .groups plan ∧ t.groups = some g ∧
      t' = { t with
        groups := some { g with finalsGenerated := true }, arena := t.arena ++ ms,
        nextMatchId := next } := by
  unfold drawFinals at h
  split at h
  · rename_i plan g hf hg
    split_ifs at h
    · cases h
      exact .inl rfl
    · obtain ⟨ms, -, h⟩ := bind_eq_ok.1 h
      obtain ⟨t₁, happ, h⟩ := bind_eq_ok.1 h
      cases h
      obtain ⟨next, rfl⟩ := append_eq_ok happ
      exact .inr ⟨plan, g, ms, next, hf, hg, rfl⟩
  · cases h
    exact .inl rfl

/-- What pairing the next round changes, if it changes anything. -/
theorem pairNextRound_cases {r : List (Stage × UInt32)} (h : t.pairNextRound = .ok (t', r)) :
    t' = t ∨ ∃ e ms next, t' = { t with
      swiss := some e, arena := t.arena ++ ms, nextMatchId := next } := by
  unfold pairNextRound at h
  split at h
  · cases h
    exact .inl rfl
  · split_ifs at h
    · cases h
      exact .inl rfl
    · obtain ⟨ms, -, h⟩ := bind_eq_ok.1 h
      obtain ⟨standings, -, h⟩ := bind_eq_ok.1 h
      obtain ⟨t₁, happ, h⟩ := bind_eq_ok.1 h
      cases h
      obtain ⟨next, rfl⟩ := append_eq_ok happ
      exact .inr ⟨_, ms, next, rfl⟩

theorem pairNextRound_league (hs : t.swiss = none) : t.pairNextRound = .ok (t, []) := by
  unfold pairNextRound
  rw [hs]

/-- An advance draws the finals at most. -/
theorem advance_drawn (hs : t.swiss = none) : ∃ t₁ status, t.advance.state = { t₁ with status } ∧
    (t₁ = t ∨ ∃ plan g ms next, t.format = .groups plan ∧ t.groups = some g ∧
      t₁ = { t with
        groups := some { g with finalsGenerated := true }, arena := t.arena ++ ms,
        nextMatchId := next }) := by
  rcases h : t.drawFinals with f | ⟨t₁, r⟩
  · simp only [advance, pairNextRound_league hs, h]
    exact ⟨t, t.status, rfl, .inl rfl⟩
  · simp only [advance, pairNextRound_league hs, h]
    split_ifs
    · exact ⟨t₁, _, rfl, drawFinals_cases h⟩
    · exact ⟨t₁, t₁.status, rfl, drawFinals_cases h⟩

theorem advance_league (hs : t.swiss = none) : t.advance.state.tableOf = t.tableOf ∧
    ∃ new, t.advance.state.arena = t.arena ++ new ∧
      (new = [] ∨ ∃ g, t.advance.state.groups = some g ∧ g.finalsGenerated = true) := by
  obtain ⟨t₁, status, hadv, rfl | ⟨plan, g, ms, next, hf, hg, rfl⟩⟩ := advance_drawn hs
  · rw [hadv]
    exact ⟨rfl, [], by simp, .inl rfl⟩
  · rw [hadv]
    refine ⟨?_, ms, rfl, .inr ⟨_, rfl, rfl⟩⟩
    funext s
    unfold tableOf
    simp only [hf, hg]
    cases s <;> rfl

/-- An advance moves nobody to another table. -/
theorem advance_field (hs : t.swiss = none) : t.advance.state.swiss = t.swiss ∧
    t.advance.state.leagues = t.leagues ∧ t.advance.state.field = t.field := by
  obtain ⟨t₁, status, hadv, rfl | ⟨plan, g, ms, next, hf, hg, rfl⟩⟩ := advance_drawn hs
  · rw [hadv]
    exact ⟨rfl, rfl, rfl⟩
  · rw [hadv]
    refine ⟨rfl, ?_, funext fun s => ?_⟩
    · unfold leagues
      simp only [hf, hg]
    · unfold field
      simp only [hf, hg]
      cases s <;> rfl

end Advance

end Tourney.Tournament
