import Tourney.Proofs.RoundRobin.Totals
import Tourney.Proofs.Sums

/-!
# Tables that are accurate

A ranked table in which the complete matches of a stage have been folded counts them by winner, and
adds up their scores by seat (`Tallied.accurate`). How far its counters can get follows from that:
nobody has won or lost more often than there were matches (`Tallied.wins_add_losses_le`).
-/

namespace Tourney.RoundRobin

/-- The complete matches of a stage. -/
def wonOf (s : Stage) (ms : List Match) : List Match :=
  (ms.filter (·.stage = s)).filter (·.status = .complete)

/-- The points of a player's own seat. -/
def scoredBy (p : Player) (m : Match) : Nat :=
  if m.player1 = some p then m.figures.score1.toNat
  else if m.player2 = some p then m.figures.score2.toNat
  else 0

/-- The points of the seat across from a player. -/
def concededBy (p : Player) (m : Match) : Nat :=
  if m.player1 = some p then m.figures.score2.toNat
  else if m.player2 = some p then m.figures.score1.toNat
  else 0

/-- A ranked table that counts exactly the complete matches of a stage. -/
structure Accurate (entrants : List Player) (s : Stage) (ms : List Match) (table : List Row) :
    Prop where
  players : (table.map Row.player).Perm entrants
  wins : ∀ r ∈ table, r.wins.toNat = (wonOf s ms).countP fun m => m.winner = some r.player
  losses : ∀ r ∈ table, r.losses.toNat =
    (wonOf s ms).countP fun m => m.hasPlayer r.player && m.winner ≠ some r.player
  pointsFor : ∀ r ∈ table, r.pointsFor.toNat = ((wonOf s ms).map (scoredBy r.player)).sum
  pointsAgainst : ∀ r ∈ table,
    r.pointsAgainst.toNat = ((wonOf s ms).map (concededBy r.player)).sum
  sorted : table.Pairwise fun a b => (a.compare b).isLE

section Gain

variable {m : Match} {p1 p2 : Player} (h : Played m p1 p2) (p : Player)

include h

theorem Played.hasPlayer_iff : m.hasPlayer p ↔ p = p1 ∨ p = p2 := by
  rw [Match.hasPlayer, h.player1, h.player2, Bool.or_eq_true, beq_iff_eq, beq_iff_eq,
    Option.some.injEq, Option.some.injEq, @eq_comm _ p1, @eq_comm _ p2]

/-- What a match adds to a row, counter by counter. -/
theorem Played.gain_eq : gain m p = (if m.winner = some p then 1 else 0,
    if m.hasPlayer p && m.winner ≠ some p then 1 else 0, scoredBy p m, concededBy p m) := by
  by_cases hp : m.hasPlayer p
  · rcases (h.hasPlayer_iff p).1 hp with rfl | rfl
    · by_cases hw : m.winner = some p <;>
        simp [gain, scoredBy, concededBy, h.player1, hp, hw]
    · by_cases hw : m.winner = some p <;>
        simp [gain, scoredBy, concededBy, h.player1, h.player2, h.ne, hp, hw]
  · obtain ⟨h1, h2⟩ := not_or.1 (mt (h.hasPlayer_iff p).2 hp)
    have hw : m.winner ≠ some p := fun hw => by
      rcases h.winner with hw' | hw' <;> rw [hw, Option.some.injEq] at hw'
      · exact h1 hw'
      · exact h2 hw'
    rw [h.gain_other h1 h2]
    simp [scoredBy, concededBy, h.player1, h.player2, Ne.symm h1, Ne.symm h2, hp, hw,
      Prod.mk_zero_zero]

end Gain

section Total

variable {ms : List Match} (h : ∀ m ∈ ms, ∃ p1 p2, Played m p1 p2) (p : Player)

include h

theorem total_eq : total ms p = (ms.countP fun m => m.winner = some p,
    ms.countP fun m => m.hasPlayer p && m.winner ≠ some p, (ms.map (scoredBy p)).sum,
    (ms.map (concededBy p)).sum) := by
  induction ms with
  | nil => rfl
  | cons m ms ih =>
    rw [List.forall_mem_cons] at h
    obtain ⟨_, _, hm⟩ := h.1
    have hcons : total (m :: ms) p = gain m p + total ms p := by simp [total]
    rw [hcons, hm.gain_eq, ih h.2, List.countP_cons, List.countP_cons, List.map_cons, List.map_cons,
      List.sum_cons, List.sum_cons]
    simp [Nat.add_comm]

/-- A row has at most one win or loss for each match. -/
theorem wins_add_losses_le : (total ms p).1 + (total ms p).2.1 ≤ ms.length := by
  rw [total_eq h, List.length_eq_countP_add_countP fun m => m.winner = some p]
  refine Nat.add_le_add_left (List.countP_mono_left fun m _ hm => ?_) _
  simpa using (Bool.and_eq_true_iff.1 hm).2

end Total

theorem Tallied.perm {entrants : List Player} {ms ms' : List Match} {table : List Row}
    (h : Tallied entrants ms table) (hp : ms.Perm ms') : Tallied entrants ms' table :=
  ⟨h.players, fun r hr => (h.counts r hr).trans (total_perm hp r.player), h.ranked, h.blank⟩

theorem Tallied.accurate {entrants : List Player} {s : Stage} {ms : List Match} {table : List Row}
    (h : Tallied entrants (wonOf s ms) table) (hms : ∀ m ∈ wonOf s ms, ∃ p1 p2, Played m p1 p2) :
    Accurate entrants s ms table := by
  have hcounts : ∀ r ∈ table, r.counts = _ := fun r hr =>
    (h.counts r hr).trans (total_eq hms r.player)
  simp only [Row.counts, Prod.mk.injEq] at hcounts
  exact ⟨h.players, fun r hr => (hcounts r hr).1, fun r hr => (hcounts r hr).2.1,
    fun r hr => (hcounts r hr).2.2.1, fun r hr => (hcounts r hr).2.2.2, h.ranked⟩

end Tourney.RoundRobin
