import Mathlib.Algebra.BigOperators.Group.List.Basic
import Mathlib.Algebra.Group.Prod
import Mathlib.Data.List.Induction
import Tourney.Proofs.RoundRobin.Ranking
import Tourney.Proofs.RoundRobin.Table

/-!
# What a table adds up to

A row counts what its player has won, lost, scored and conceded in the matches folded in so far,
whatever their order (`afterMatch_eq_ok`). So whether a counter overflows does not depend on the
order either (`exists_play_of_perm`).
-/

namespace Tourney.RoundRobin

/-- A match that has been won between two players. -/
structure Played (m : Match) (p1 p2 : Player) : Prop where
  status : m.status = .complete
  player1 : m.player1 = some p1
  player2 : m.player2 = some p2
  ne : p1 ≠ p2
  winner : m.winner = some p1 ∨ m.winner = some p2

/-- What a match adds to the counters of a player. -/
def gain (m : Match) (p : Player) : Counts :=
  let won : Bool := m.winner == some p
  let scores := (m.figures.score1.toNat, m.figures.score2.toNat)
  if m.player1 = some p then (won.toNat, (!won).toNat, scores)
  else if m.player2 = some p then (won.toNat, (!won).toNat, scores.swap)
  else 0

/-- What some matches add to the counters of a player. -/
def total (ms : List Match) (p : Player) : Counts := (ms.map (gain · p)).sum

/-- The counters fit their width. -/
def Room (c : Counts) : Prop :=
  c.1 < UInt32.size ∧ c.2.1 < UInt32.size ∧ c.2.2.1 < UInt32.size ∧ c.2.2.2 < UInt32.size

/-- A row has been credited with what a match adds to it. -/
def Row.Credited (m : Match) (r r' : Row) : Prop :=
  r'.player = r.player ∧ r'.counts = r.counts + gain m r.player

section Match

variable {m : Match} {p1 p2 : Player} (h : Played m p1 p2)

include h

theorem Played.won_first : (m.winner == some p1) = !(m.winner == some p2) := by
  rcases h.winner with hw | hw
  · simp [hw, h.ne]
  · simp [hw, h.ne.symm]

theorem Played.gain_first : gain m p1 = ((m.winner == some p1).toNat, (!m.winner == some p1).toNat,
    m.figures.score1.toNat, m.figures.score2.toNat) := by
  simp [gain, h.player1]

theorem Played.gain_second : gain m p2 = ((!m.winner == some p1).toNat, (m.winner == some p1).toNat,
    m.figures.score2.toNat, m.figures.score1.toNat) := by
  simp [gain, h.player1, h.player2, h.ne, h.won_first]

theorem Played.gain_other {p : Player} (h1 : p ≠ p1) (h2 : p ≠ p2) : gain m p = 0 := by
  simp [gain, h.player1, h.player2, h1.symm, h2.symm]

theorem afterMatch_eq_ok {r r' : Row} :
    r.afterMatch m p1 p2 = .ok r' ↔ r.Credited m r' := by
  have hcredit (scored conceded : UInt32) (won : Bool) :
      r.credit scored conceded won = .ok r' ↔ r'.player = r.player ∧
        r'.counts = r.counts + (won.toNat, (!won).toNat, scored.toNat, conceded.toNat) := by
    rw [credit_eq_ok]
    simp only [Row.counts, Prod.mk_add_mk, Prod.mk.injEq]
    tauto
  unfold Row.afterMatch Row.Credited
  by_cases h1 : r.player = p1
  · rw [if_pos h1, hcredit, h1, h.gain_first]
  by_cases h2 : r.player = p2
  · rw [if_neg h1, if_pos h2, hcredit, h2, h.gain_second, Bool.not_not]
  · rw [if_neg h1, if_neg h2, h.gain_other h1 h2, add_zero, Except.ok.injEq]
    exact ⟨fun hr => hr ▸ ⟨rfl, rfl⟩, fun hr => Row.ext_counts hr.1.symm hr.2.symm⟩

theorem recordAndRank_eq_ok {table table' : List Row} : recordAndRank table m = .ok table' ↔
    ∃ rows, List.Forall₂ (Row.Credited m) table rows ∧ rank rows = table' := by
  have hrecord : record table m = table.mapM (Row.afterMatch m p1 p2) := by
    unfold record
    rw [h.status, h.player1, h.player2]
  rw [recordAndRank, map_eq_ok, hrecord]
  refine exists_congr fun rows => and_congr_left fun _ => ?_
  rw [mapM_eq_ok]
  simp only [afterMatch_eq_ok h]

end Match

section Total

variable {ms ms' : List Match} {m : Match} {p : Player}

theorem total_append (ms : List Match) (m : Match) (p : Player) :
    total (ms ++ [m]) p = total ms p + gain m p := by
  simp [total]

theorem total_perm (h : ms.Perm ms') (p : Player) : total ms p = total ms' p :=
  (h.map _).sum_eq

end Total

/-- The matches folded into the table of a field, one after the other. -/
def play (players : List Player) (ms : List Match) : Except Fault (List Row) :=
  ms.foldlM recordAndRank (freshTable players)

theorem players_credited {m : Match} {table rows : List Row}
    (h : List.Forall₂ (Row.Credited m) table rows) :
    rows.map Row.player = table.map Row.player := by
  induction h with
  | nil => rfl
  | cons hr _ ih => rw [List.map_cons, List.map_cons, ih, hr.1]

/-- A row that is blank now has been blank before. -/
theorem blank_credited {m : Match} {table rows : List Row}
    (h : List.Forall₂ (Row.Credited m) table rows) : List.Sublist
      ((rows.filter (·.Blank)).map Row.player) ((table.filter (·.Blank)).map Row.player) := by
  induction h with
  | nil => exact .slnil
  | @cons r r' table rows hr _ ih =>
    by_cases hb : r'.Blank
    · have hbefore : r.Blank := by
        obtain ⟨-, hc⟩ := hr
        simp only [Row.Blank, ← UInt32.toNat_inj, UInt32.toNat_zero] at hb ⊢
        simp only [Row.counts, Prod.ext_iff, Prod.fst_add, Prod.snd_add] at hc
        omega
      rw [List.filter_cons_of_pos (by simpa), List.filter_cons_of_pos (by simpa), List.map_cons,
        List.map_cons, hr.1]
      exact ih.cons_cons _
    · rw [List.filter_cons_of_neg (by simpa)]
      exact ih.trans ((((List.sublist_cons_self r table).filter _).map _))

/-- The ranked table of a field in which these matches have been folded, in some order. -/
structure Tallied (entrants : List Player) (ms : List Match) (table : List Row) : Prop where
  players : (table.map Row.player).Perm entrants
  counts : ∀ r ∈ table, r.counts = total ms r.player
  ranked : table.Pairwise fun a b => (a.compare b).isLE
  /-- Blank rows stand in entry order. -/
  blank : ((table.filter (·.Blank)).map Row.player).Sublist entrants

theorem tallied_freshTable (players : List Player) : Tallied players [] (freshTable players) := by
  have hcounts : ∀ r ∈ freshTable players, r.counts = 0 := fun r hr => by
    obtain ⟨p, -, rfl⟩ := List.mem_map.1 hr
    rfl
  refine ⟨.of_eq (players_freshTable players), hcounts, ?_, ?_⟩
  · refine List.pairwise_of_forall_mem_list fun a ha b hb => ?_
    rw [compare_isLE_iff, hcounts a ha, hcounts b hb]
  · have hsub := (List.filter_sublist (p := (·.Blank)) (l := freshTable players)).map Row.player
    rwa [players_freshTable] at hsub

namespace Tallied

variable {players : List Player} {ms : List Match} {table table' : List Row} {m : Match}
  {p1 p2 : Player} (h : Tallied players ms table)

include h

theorem exists_row {p : Player} (hp : p ∈ players) : ∃ r ∈ table, r.player = p :=
  List.mem_map.1 (h.players.mem_iff.2 hp)

theorem room {p : Player} (hp : p ∈ players) : Room (total ms p) := by
  obtain ⟨r, hr, rfl⟩ := h.exists_row hp
  rw [← h.counts r hr]
  exact ⟨r.wins.toNat_lt, r.losses.toNat_lt, r.pointsFor.toNat_lt, r.pointsAgainst.toNat_lt⟩

theorem counts_credited {rows : List Row} {r' : Row}
    (hrows : List.Forall₂ (Row.Credited m) table rows) (hr' : r' ∈ rows) :
    r'.counts = total (ms ++ [m]) r'.player := by
  obtain ⟨r, hr, hp, hc⟩ := exists_left hrows hr'
  rw [hc, h.counts r hr, total_append, hp]

theorem recordAndRank (hm : Played m p1 p2) (hr : recordAndRank table m = .ok table') :
    Tallied players (ms ++ [m]) table' := by
  have hplayers := (players_recordAndRank hr).trans h.players
  obtain ⟨rows, hrows, rfl⟩ := (recordAndRank_eq_ok hm).1 hr
  refine ⟨hplayers, fun r' hr' => ?_, pairwise_rank rows, ?_⟩
  · exact h.counts_credited hrows ((rank_perm rows).mem_iff.1 hr')
  · rw [filter_blank_rank]
    exact (blank_credited hrows).trans h.blank

/-- A match can be folded in if the totals with it fit. -/
theorem exists_recordAndRank (hm : Played m p1 p2)
    (hroom : ∀ p ∈ players, Room (total (ms ++ [m]) p)) :
    ∃ table', RoundRobin.recordAndRank table m = .ok table' := by
  have hrow : ∀ r ∈ table, ∃ r', r.afterMatch m p1 p2 = .ok r' ∧ True := by
    intro r hr
    have hp : r.player ∈ players := h.players.mem_iff.1 (List.mem_map_of_mem hr)
    obtain ⟨hw, hl, hf, ha⟩ := hroom _ hp
    rw [total_append, ← h.counts r hr] at hw hl hf ha
    refine ⟨⟨r.player, .ofNatLT _ hw, .ofNatLT _ hl, .ofNatLT _ hf, .ofNatLT _ ha⟩, ?_, trivial⟩
    exact (afterMatch_eq_ok hm).2 ⟨rfl, rfl⟩
  obtain ⟨rows, hrows, -⟩ := mapM_ok hrow
  refine ⟨rank rows, (recordAndRank_eq_ok hm).2 ⟨rows, ?_, rfl⟩⟩
  exact (mapM_eq_ok.1 hrows).imp fun _ _ hr => (afterMatch_eq_ok hm).1 hr

end Tallied

section Play

variable {players : List Player} {ms ms' : List Match} {table : List Row}
  (hms : ∀ m ∈ ms, ∃ p1 p2, Played m p1 p2)

include hms

theorem tallied_play (h : play players ms = .ok table) : Tallied players ms table := by
  induction ms using List.reverseRec generalizing table with
  | nil =>
    cases h
    exact tallied_freshTable players
  | append_singleton ms m ih =>
    obtain ⟨_, _, hm⟩ := hms m (by simp)
    rw [play, List.foldlM_append, bind_eq_ok] at h
    obtain ⟨before, hbefore, h⟩ := h
    rw [List.foldlM_cons, bind_eq_ok] at h
    obtain ⟨_, hlast, h⟩ := h
    cases h
    exact (ih (fun a ha => hms a (by simp [ha])) hbefore).recordAndRank hm hlast

/-- Matches can be folded in one after the other exactly if their totals fit. -/
theorem exists_play_iff :
    (∃ table, play players ms = .ok table) ↔ ∀ p ∈ players, Room (total ms p) := by
  refine ⟨fun ⟨table, h⟩ p hp => (tallied_play hms h).room hp, fun hroom => ?_⟩
  induction ms using List.reverseRec with
  | nil => exact ⟨_, rfl⟩
  | append_singleton ms m ih =>
    have hms' : ∀ a ∈ ms, ∃ p1 p2, Played a p1 p2 := fun a ha => hms a (by simp [ha])
    obtain ⟨_, _, hm⟩ := hms m (by simp)
    obtain ⟨before, hbefore⟩ := ih hms' fun p hp => by
      obtain ⟨hw, hl, hf, ha⟩ := hroom p hp
      rw [total_append] at hw hl hf ha
      simp only [Prod.fst_add, Prod.snd_add] at hw hl hf ha
      exact ⟨by omega, by omega, by omega, by omega⟩
    obtain ⟨table, hlast⟩ := (tallied_play hms' hbefore).exists_recordAndRank hm hroom
    refine ⟨table, ?_⟩
    rw [play, List.foldlM_append]
    exact bind_eq_ok.2 ⟨before, hbefore, bind_eq_ok.2 ⟨table, hlast, rfl⟩⟩

/-- The order of the matches does not decide whether they can be folded in. -/
theorem exists_play_of_perm (hperm : ms.Perm ms') (h : play players ms = .ok table) :
    ∃ table', play players ms' = .ok table' := by
  refine (exists_play_iff fun m hm => hms m (hperm.mem_iff.2 hm)).2 fun p hp => ?_
  rw [← total_perm hperm]
  exact (exists_play_iff hms).1 ⟨table, h⟩ p hp

end Play

end Tourney.RoundRobin
