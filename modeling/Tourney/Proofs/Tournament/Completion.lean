import Tourney.Proofs.Tournament.Run

/-!
# The end of a tournament

A running tournament is complete exactly when no match is open any more (`Running.complete_iff`),
and then it has all its matches (`Running.length_of_closed`) and a champion from its roster
(`Running.exists_champion`).
-/

namespace Tourney.Tournament

open Arena Elimination Seeding

theorem matchCount_pos {format : Format} {n : Nat} (hn : 2 ≤ n) : 0 < matchCount format n := by
  have hsize : 2 ≤ bracketSize n := by
    have h := le_bracketSize n
    omega
  unfold matchCount
  split
  · omega
  · omega
  · exact Nat.mul_pos (rounds_pos n) (by omega)
  · have h : 2 * 1 ≤ n * (n - 1) := Nat.mul_le_mul hn (by omega)
    omega
  · rename_i plan
    have h := Groups.finalsCount_pos plan
    omega

section Completion

variable {t : Tournament} (h : Running t)

include h

theorem Running.length_of_closed (ho : ¬t.Open) :
    t.arena.length = matchCount t.format t.players.length := by
  have htwo := two_le_players h.sound
  have hroster := (Roster.check_eq_ok_iff.1 h.sound.roster).1
  cases h.stages with
  | whole entrants fresh hs hg hp hf he ht =>
    rw [← he.length_eq, length_openingMatches (by rwa [hp.length_eq]) hf, hp.length_eq]
  | swiss e hf hs hg hr =>
    have hlast : e.currentRound.toNat = e.totalRounds.toNat := by
      by_contra hne
      have hle := hr.current
      exact ho (h.roundsWait e hs (by omega))
    rw [hr.boards, hf, matchCount, hlast, hr.total]
  | groups plan g hf hs hg hr =>
    rw [hf] at hroster
    have hgen : g.finalsGenerated = true := by
      by_contra hgen
      exact ho (h.finalsWait g hg (by simpa using hgen))
    rw [hf, hr.length_of_finals hroster hgen]

theorem Running.length_le : t.arena.length ≤ matchCount t.format t.players.length := by
  have htwo := two_le_players h.sound
  have hroster := (Roster.check_eq_ok_iff.1 h.sound.roster).1
  cases h.stages with
  | whole entrants fresh hs hg hp hf he ht =>
    rw [← he.length_eq, length_openingMatches (by rwa [hp.length_eq]) hf, hp.length_eq]
  | swiss e hf hs hg hr =>
    rw [hr.boards, hf, matchCount, ← hr.total]
    exact Nat.mul_le_mul_right _ hr.current
  | groups plan g hf hs hg hr =>
    rw [hf] at hroster
    obtain ⟨finals, hfin, he⟩ := hr.arena
    rw [← he.length_eq, List.length_append, length_groupMatches hr hroster, length_finals hfin, hf,
      matchCount]
    split_ifs <;> omega

theorem Running.allStagesDone_iff : t.allStagesDone = true ↔ ¬t.Open := by
  constructor
  · exact fun hdone ho => ho.not_allStagesDone hdone
  · intro ho
    have hall : ∀ m ∈ t.arena, m.status.isResolved := fun m hm => by
      by_contra hc
      exact ho ⟨m, hm, by simpa using hc⟩
    have hne : t.arena ≠ [] := fun hnil => by
      have hlen := h.length_of_closed ho
      have hpos : 0 < matchCount t.format t.players.length :=
        matchCount_pos (two_le_players h.sound)
      rw [← hlen, hnil] at hpos
      cases hpos
    simp only [allStagesDone, Bool.and_eq_true, List.all_eq_true, Bool.not_eq_true']
    refine ⟨⟨⟨?_, ?_⟩, by simpa using hne⟩, hall⟩
    · split
      · rename_i e he
        rw [decide_eq_true_eq, UInt32.le_iff_toNat_le]
        by_contra hlt
        exact ho (h.roundsWait e he (by omega))
      · rfl
    · split
      · rename_i g hg
        by_contra hgen
        exact ho (h.finalsWait g hg (by simpa using hgen))
      · rfl

theorem Running.complete_iff : t.status = .complete ↔ ¬t.Open := by
  rw [h.settled, ← h.allStagesDone_iff]
  split_ifs with hd <;> simp [hd]

theorem Running.inProgress_iff : t.status = .inProgress ↔ t.Open := by
  rw [h.settled, ← not_iff_not, ← h.allStagesDone_iff]
  split_ifs with hd <;> simp [hd]

theorem Running.all_resolved (hc : t.status = .complete) : ∀ m ∈ t.arena, m.status.isResolved := by
  intro m hm
  by_contra hres
  exact h.complete_iff.1 hc ⟨m, hm, by simpa using hres⟩

/-! ## The champion -/

theorem Running.exists_bracketWinner {fresh : List Match} {s : Stage} (hcrown : Crowns fresh)
    (he : List.Forall₂ Match.Evolves fresh (t.arena.filter (·.stage = s)))
    (hc : t.status = .complete) : ∃ p ∈ t.players, t.bracketWinner s = some p := by
  obtain ⟨m, w, hm, hw, hp⟩ := hcrown _ (h.sound.coherent.ofStage s) he fun m hm =>
    h.all_resolved hc m (List.mem_filter.1 hm).1
  rw [List.find?_filter] at hm
  refine ⟨w, h.sound.rostered m (List.mem_of_find?_eq_some hm) w hp, ?_⟩
  rw [bracketWinner]
  simp_all

/-- Rows that have the players of the roster have somebody at the top. -/
theorem Running.exists_leader {α : Type} {player : α → Player} {rows : List α}
    (hp : (rows.map player).Perm t.players) :
    ∃ row rest, rows = row :: rest ∧ player row ∈ t.players := by
  have htwo := two_le_players h.sound
  cases rows with
  | nil =>
    have hlen := hp.length_eq
    rw [List.map_nil, List.length_nil] at hlen
    omega
  | cons row rest => exact ⟨row, rest, rfl, hp.mem_iff.1 List.mem_cons_self⟩

theorem Running.exists_champion (hc : t.status = .complete) :
    ∃ p ∈ t.players, t.champion = some p := by
  have hcomplete : t.isComplete = true := by simp [isComplete, hc]
  have htwo := two_le_players h.sound
  have hfits := h.sound.fits
  rw [h.length_of_closed (h.complete_iff.1 hc)] at hfits
  cases h.stages with
  | whole entrants fresh hs hg hp hf he ht =>
    have he' := evolves_filter he .main
    rw [List.filter_eq_self.2 fun m hm => by simpa using stage_openingMatches hf m hm] at he'
    have hlen := hp.length_eq
    unfold openingMatches at hf
    split at hf
    · rename_i hformat
      rw [hformat, matchCount] at hfits
      cases hf
      obtain ⟨p, hp, hw⟩ := h.exists_bracketWinner
        (crowns_tree (by omega) (by rw [hlen, toNat_firstMatchId]; omega)) he' hc
      exact ⟨p, hp, by simp [champion, hcomplete, hformat, hw]⟩
    · rename_i hformat
      rw [hformat, matchCount] at hfits
      cases hf
      obtain ⟨p, hp, hw⟩ := h.exists_bracketWinner
        (crowns_doubleTree (by omega) (by rw [hlen, toNat_firstMatchId]; omega)) he' hc
      exact ⟨p, hp, by simp [champion, hcomplete, hformat, hw]⟩
    · rename_i hformat
      obtain ⟨row, rest, htable, hmem⟩ := h.exists_leader (ht hformat)
      exact ⟨row.player, hmem, by simp [champion, hcomplete, hformat, htable]⟩
    · cases hf
    · cases hf
  | swiss e hf hs hg hr =>
    have hperm : ((Swiss.ranked e.standings).map Swiss.Standing.player).Perm t.players :=
      ((List.mergeSort_perm ..).map _).trans (.of_eq hr.players)
    obtain ⟨s, rest, hrank, hmem⟩ := h.exists_leader hperm
    exact ⟨s.player, hmem, by simp [champion, hcomplete, hf, swissStandings, hs, hrank]⟩
  | groups plan g hf hs hg hr =>
    have hgen : g.finalsGenerated = true := by
      by_contra hgen
      exact h.complete_iff.1 hc (h.finalsWait g hg (by simpa using hgen))
    obtain ⟨seeds, hsize, hseeds, he⟩ := hr.evolves_finals hgen
    have hroster := (Roster.check_eq_ok_iff.1 h.sound.roster).1
    rw [hf] at hroster
    rw [hf, matchCount, ← length_groupMatches hr hroster] at hfits
    obtain ⟨p, hp, hw⟩ := h.exists_bracketWinner
      (Groups.crowns_finalsTree hseeds hsize (by
        rw [MatchId.toNat_plus (by rw [toNat_firstMatchId]; omega), toNat_firstMatchId]
        omega)) he hc
    exact ⟨p, hp, by simp [champion, hcomplete, hf, hw]⟩

end Completion

end Tourney.Tournament
