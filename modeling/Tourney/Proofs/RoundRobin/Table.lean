import Tourney.Proofs.Except
import Tourney.RoundRobin.Table

/-!
# The rows of a table

Folding a match in and ranking the table anew moves rows about and changes their counters, but
never their players (`players_recordAndRank`), and is refused only for a counter that is full.
-/

namespace Tourney.RoundRobin

theorem credit_eq_ok {r r' : Row} {scored conceded : UInt32} {won : Bool} :
    r.credit scored conceded won = .ok r' ↔ r'.player = r.player ∧
      r'.pointsFor.toNat = r.pointsFor.toNat + scored.toNat ∧
      r'.pointsAgainst.toNat = r.pointsAgainst.toNat + conceded.toNat ∧
      r'.wins.toNat = r.wins.toNat + won.toNat ∧
      r'.losses.toNat = r.losses.toNat + (!won).toNat := by
  obtain ⟨player, wins, losses, pointsFor, pointsAgainst⟩ := r
  obtain ⟨player', wins', losses', pointsFor', pointsAgainst'⟩ := r'
  unfold Row.credit
  cases won <;>
    simp only [bind_eq_ok, Counter.add_eq_ok, Counter.increment, Bool.false_eq_true, if_true,
      if_false, Except.ok.injEq, Row.mk.injEq, Bool.toNat_true, Bool.toNat_false, Bool.not_true,
      Bool.not_false, Nat.add_zero, UInt32.toNat_inj, UInt32.toNat_one]
  · constructor
    · rintro ⟨_, hf, _, ha, _, hl, rfl, rfl, rfl, rfl, rfl⟩
      exact ⟨rfl, hf, ha, rfl, hl⟩
    · rintro ⟨rfl, hf, ha, rfl, hl⟩
      exact ⟨_, hf, _, ha, _, hl, rfl, rfl, rfl, rfl, rfl⟩
  · constructor
    · rintro ⟨_, hf, _, ha, _, hw, rfl, rfl, rfl, rfl, rfl⟩
      exact ⟨rfl, hf, ha, hw, rfl⟩
    · rintro ⟨rfl, hf, ha, hw, rfl⟩
      exact ⟨_, hf, _, ha, _, hw, rfl, rfl, rfl, rfl, rfl⟩

theorem credit_eq_error {r : Row} {scored conceded : UInt32} {won : Bool} {f : Fault}
    (h : r.credit scored conceded won = .error f) : f = .outOfRange := by
  unfold Row.credit at h
  cases won <;>
    simp only [bind_eq_error, Counter.increment, Bool.false_eq_true, if_true, if_false,
      reduceCtorEq, and_false, exists_false, or_false] at h
  all_goals
    rcases h with h | ⟨_, -, h | ⟨_, -, h⟩⟩ <;> exact Counter.add_eq_error h

theorem player_afterMatch {m : Match} {p1 p2 : Player} {r r' : Row}
    (h : r.afterMatch m p1 p2 = .ok r') : r'.player = r.player := by
  unfold Row.afterMatch at h
  dsimp only at h
  split_ifs at h
  · exact (credit_eq_ok.1 h).1
  · exact (credit_eq_ok.1 h).1
  · cases h
    rfl

theorem players_record {table table' : List Row} {m : Match} (h : record table m = .ok table') :
    table'.map Row.player = table.map Row.player := by
  unfold record at h
  split at h
  · have hrows := mapM_eq_ok.1 h
    clear h
    induction hrows with
    | nil => rfl
    | cons hr _ ih => rw [List.map_cons, List.map_cons, ih, player_afterMatch hr]
  · cases h
    rfl

theorem players_recordAndRank {table table' : List Row} {m : Match}
    (h : recordAndRank table m = .ok table') :
    (table'.map Row.player).Perm (table.map Row.player) := by
  obtain ⟨t, ht, rfl⟩ := map_eq_ok.1 h
  rw [← players_record ht]
  exact (List.mergeSort_perm ..).map _

theorem recordAndRank_eq_error {table : List Row} {m : Match} {f : Fault}
    (h : recordAndRank table m = .error f) : f = .outOfRange := by
  have hr := map_eq_error.1 h
  unfold record at hr
  split at hr
  · obtain ⟨r, -, hr⟩ := mapM_eq_error hr
    unfold Row.afterMatch at hr
    dsimp only at hr
    split_ifs at hr
    · exact credit_eq_error hr
    · exact credit_eq_error hr
  · cases hr

theorem players_freshTable (players : List Player) :
    (freshTable players).map Row.player = players := by
  simp [freshTable, Function.comp_def]

end Tourney.RoundRobin
