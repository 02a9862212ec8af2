import Tourney.Proofs.RoundRobin.Accurate
import Tourney.Proofs.RoundRobin.Meetings
import Tourney.Proofs.Tournament.Tables

/-!
# The fixtures of a league

The matches of a league are those of its field from beginning to end (`Running.evolves_league`):
their number does not change (`Running.length_league`), two different players meet at each
(`Running.fixture`), every two players at one (`Running.countP_meet`), and so a result adds itself
to those of its stage and changes nothing else among them (`Running.wonOf_record`).
-/

namespace Tourney.Tournament

open Arena RoundRobin

section Running

variable {t : Tournament} {s : Stage}

theorem filter_fieldMatches (entrants : List Player) (first : MatchId) (stage : Stage) :
    (fieldMatches entrants first stage).filter (·.stage = s) =
      if stage = s then fieldMatches entrants first stage else [] := by
  split_ifs with hs
  · exact List.filter_eq_self.2 fun m hm => by simp [(mem_fieldMatches hm).1, hs]
  · exact List.filter_eq_nil_iff.2 fun m hm => by simp [(mem_fieldMatches hm).1, hs]

theorem Finals.stage {plan : StagePlan} {g : GroupStage} {finals : List Match}
    (h : Finals plan g finals) : ∀ m ∈ finals, m.stage = .finals := by
  unfold Finals at h
  split_ifs at h
  · obtain ⟨seeds, rfl, -⟩ := h
    exact fun m hm => (Groups.mem_finalsTree hm).2.1
  · simp [h]

/-- The matches of a league are those of its field. -/
theorem Running.evolves_league (h : Running t) (hs : s ∈ t.leagues) :
    ∃ entrants first, entrants.Perm (t.field s) ∧
      List.Forall₂ Match.Evolves (fieldMatches entrants first s)
        (t.arena.filter (·.stage = s)) := by
  rcases leagues_cases hs with ⟨hf, rfl⟩ | ⟨plan, g, hf, hg, hs⟩
  · obtain ⟨entrants, hp, he⟩ := h.stages.of_roundRobin hf
    have he' := evolves_filter he .main
    rw [filter_fieldMatches, if_pos rfl] at he'
    exact ⟨entrants, firstMatchId, (field_roundRobin hf).symm ▸ hp, he'⟩
  · obtain ⟨finals, hfin, he⟩ := (h.stages.groupsRun hf hg).arena
    have he' := evolves_filter he s
    have hfinals : s ≠ .finals → finals.filter (·.stage = s) = [] := fun hne =>
      List.filter_eq_nil_iff.2 fun m hm => by simpa [hfin.stage m hm] using Ne.symm hne
    rw [groupMatches, List.filter_append, List.filter_append, filter_fieldMatches,
      filter_fieldMatches] at he'
    rcases hs with rfl | rfl
    · rw [hfinals (by decide), if_pos rfl, if_neg (by decide), List.append_nil,
        List.append_nil] at he'
      exact ⟨g.groupA, firstMatchId, .of_eq (field_groups hf hg).1.symm, he'⟩
    · rw [hfinals (by decide), if_neg (by decide), if_pos rfl, List.nil_append,
        List.append_nil] at he'
      exact ⟨g.groupB, _, .of_eq (field_groups hf hg).2.symm, he'⟩

/-- Nobody is in a table twice. -/
theorem Running.nodup_field (h : Running t) (hs : s ∈ t.leagues) : (t.field s).Nodup := by
  have hnd := (Roster.check_eq_ok_iff.1 h.sound.roster).2.2
  rcases leagues_cases hs with ⟨hf, rfl⟩ | ⟨plan, g, hf, hg, hs⟩
  · rw [field_roundRobin hf]
    exact hnd
  · have hgroups := List.nodup_append.1 ((h.stages.groupsRun hf hg).perm.nodup_iff.2 hnd)
    rcases hs with rfl | rfl
    · rw [(field_groups hf hg).1]
      exact hgroups.1
    · rw [(field_groups hf hg).2]
      exact hgroups.2.1

theorem Running.length_league (h : Running t) (hs : s ∈ t.leagues) :
    (t.arena.filter (·.stage = s)).length = (fixtures (t.field s).length).length := by
  obtain ⟨entrants, first, hp, he⟩ := h.evolves_league hs
  rw [← he.length_eq, fieldMatches, List.length_map, List.length_zipIdx, hp.length_eq]

theorem Running.fixture (h : Running t) {m : Match} (hm : m ∈ t.arena) (hs : m.stage ∈ t.leagues) :
    ∃ p1 p2, p1 ≠ p2 ∧ m.player1 = some p1 ∧ m.player2 = some p2 := by
  obtain ⟨entrants, first, hp, he⟩ := h.evolves_league hs
  obtain ⟨a, ha, hev⟩ := exists_left he (List.mem_filter.2 ⟨hm, by simp⟩)
  obtain ⟨p1, p2, hne, h1, h2⟩ := seats_fieldMatches (hp.nodup_iff.2 (h.nodup_field hs)) ha
  refine ⟨p1, p2, hne, congrArg Seat.player ((hev.seats .first ?_).trans h1),
    congrArg Seat.player ((hev.seats .second ?_).trans h2)⟩
  · rw [h1]
    exact Seat.settled_ne_open _
  · rw [h2]
    exact Seat.settled_ne_open _

theorem Running.isReady (h : Running t) {m : Match} (hm : m ∈ t.arena)
    (hs : m.stage ∈ t.leagues) : m.isReady := by
  obtain ⟨p1, p2, -, h1, h2⟩ := h.fixture hm hs
  simp [Match.isReady, h1, h2]

/-- A resolved match of a league has been won by one of its two players. -/
theorem Running.played_of_resolved (h : Running t) {m : Match} (hm : m ∈ t.arena)
    (hs : m.stage ∈ t.leagues) (hres : m.status.isResolved) : ∃ p1 p2, Played m p1 p2 := by
  obtain ⟨p1, p2, hne, h1, h2⟩ := h.fixture hm hs
  have hseat : m.seat .first ≠ .settled none := fun hseat => by
    have hnone : m.player1 = none := congrArg Seat.player hseat
    rw [h1] at hnone
    cases hnone
  obtain ⟨hc, w, hw, hp⟩ := (h.sound.coherent.atRest hm).exists_winner hres .first hseat
  refine ⟨p1, p2, hc, h1, h2, hne, ?_⟩
  rw [Match.hasPlayer, h1, h2, Bool.or_eq_true, beq_iff_eq, beq_iff_eq] at hp
  rw [hw]
  exact hp.imp Eq.symm Eq.symm

theorem Running.played (h : Running t) (hs : s ∈ t.leagues) {m : Match}
    (hm : m ∈ wonOf s t.arena) : ∃ p1 p2, Played m p1 p2 := by
  simp only [wonOf, List.mem_filter, decide_eq_true_eq] at hm
  obtain ⟨⟨hmem, rfl⟩, hc⟩ := hm
  exact h.played_of_resolved hmem hs (by rw [hc]; rfl)

/-- Seats that are settled from the start keep their players. -/
theorem hasPlayer_of_evolves {entrants : List Player} {first : MatchId} {a m : Match}
    (ha : a ∈ fieldMatches entrants first s) (hev : a.Evolves m) (p : Player) :
    m.hasPlayer p = a.hasPlayer p := by
  have hseat : ∀ slot, m.seat slot = a.seat slot := fun slot => by
    obtain ⟨q, -, hq⟩ := (mem_fieldMatches ha).2.2.2.2.2 slot
    exact hev.seats slot (by rw [hq]; exact Seat.settled_ne_open _)
  have h1 : m.player1 = a.player1 := congrArg Seat.player (hseat .first)
  have h2 : m.player2 = a.player2 := congrArg Seat.player (hseat .second)
  rw [Match.hasPlayer, Match.hasPlayer, h1, h2]

/-- Only the players of a league play in it. -/
theorem Running.mem_field (h : Running t) {m : Match} (hm : m ∈ t.arena) (hs : m.stage ∈ t.leagues)
    {p : Player} (hp : m.hasPlayer p) : p ∈ t.field m.stage := by
  obtain ⟨entrants, first, hperm, he⟩ := h.evolves_league hs
  obtain ⟨a, ha, hev⟩ := exists_left he (List.mem_filter.2 ⟨hm, by simp⟩)
  rw [hasPlayer_of_evolves ha hev] at hp
  exact hperm.mem_iff.1 (players_fieldMatches ha hp)

/-- Every two players of a league meet in one match. -/
theorem Running.countP_meet (h : Running t) (hs : s ∈ t.leagues) {p q : Player}
    (hp : p ∈ t.field s) (hq : q ∈ t.field s) (hne : p ≠ q) :
    (t.arena.filter (·.stage = s)).countP (fun m => m.hasPlayer p && m.hasPlayer q) = 1 := by
  obtain ⟨entrants, first, hperm, he⟩ := h.evolves_league hs
  have hsame : List.Forall₂ (fun a m : Match => ∀ p, m.hasPlayer p = a.hasPlayer p)
      (fieldMatches entrants first s) (t.arena.filter (·.stage = s)) :=
    ((List.forall₂_and_left _ _).2 ⟨fun _ ha => ha, he⟩).imp fun a m ham =>
      hasPlayer_of_evolves ham.1 ham.2
  have hmeet := List.rel_filter (p := fun m => m.hasPlayer p && m.hasPlayer q)
    (q := fun m => m.hasPlayer p && m.hasPlayer q) (fun a m ham => by simp only [ham]) hsame
  rw [List.countP_eq_length_filter, ← hmeet.length_eq, ← List.countP_eq_length_filter]
  exact RoundRobin.countP_meet (hperm.nodup_iff.2 (h.nodup_field hs)) (hperm.mem_iff.2 hp)
    (hperm.mem_iff.2 hq) hne

/-- A player of a league plays fewer matches than the league has players. -/
theorem Running.countP_hasPlayer_lt (h : Running t) (hs : s ∈ t.leagues) {p : Player}
    (hp : p ∈ t.field s) :
    (t.arena.filter (·.stage = s)).countP (·.hasPlayer p) < (t.field s).length := by
  have hnd := h.nodup_field hs
  -- each of them is against one of the others
  have hother : ∀ m ∈ t.arena.filter (·.stage = s), m.hasPlayer p →
      ∃ q ∈ (t.field s).erase p, m.hasPlayer q := fun m hm hplays => by
    obtain ⟨hmem, hstage⟩ := List.mem_filter.1 hm
    obtain rfl : m.stage = s := by simpa using hstage
    obtain ⟨p1, p2, hne, h1, h2⟩ := h.fixture hmem hs
    have hboth : m.hasPlayer p1 ∧ m.hasPlayer p2 := by simp [Match.hasPlayer, h1, h2]
    have hfield := fun q => h.mem_field (p := q) hmem hs
    by_cases hq : p1 = p
    · exact ⟨p2, (hnd.mem_erase_iff).2 ⟨hq ▸ hne.symm, hfield p2 hboth.2⟩, hboth.2⟩
    · exact ⟨p1, (hnd.mem_erase_iff).2 ⟨hq, hfield p1 hboth.1⟩, hboth.1⟩
  have hone : ∀ q ∈ (t.field s).erase p,
      (t.arena.filter (·.stage = s)).countP (fun m => m.hasPlayer p && m.hasPlayer q) = 1 :=
    fun q hq => by
      obtain ⟨hne, hq⟩ := hnd.mem_erase_iff.1 hq
      exact h.countP_meet hs hp hq hne.symm
  have hle := countP_le_sum (fun q (m : Match) => m.hasPlayer q) hother
  rw [List.map_congr_left hone, List.map_const', List.sum_replicate, smul_eq_mul, mul_one,
    List.length_erase_of_mem hp] at hle
  have := List.length_pos_of_mem hp
  omega

/-- There are not so many players in a league that their matches run out of ids. -/
theorem Running.length_field_le (h : Running t) (hs : s ∈ t.leagues) :
    (t.field s).length ≤ 2 ^ 17 := by
  have hfits := h.sound.fits
  have hleague := h.length_league hs
  have hle := List.length_filter_le (fun m : Match => decide (m.stage = s)) t.arena
  by_contra hmany
  rw [length_fixtures (by omega)] at hleague
  have hpairs := Nat.mul_le_mul (show 2 ^ 17 ≤ (t.field s).length by omega)
    (show 2 ^ 17 ≤ (t.field s).length - 1 by omega)
  have hsize : UInt32.size = 2 ^ 32 := rfl
  omega

end Running

/-! ## One result -/

section Lists

variable {s : Stage} {ms ms' : List Match}

theorem wonOf_append : wonOf s (ms ++ ms') = wonOf s ms ++ wonOf s ms' := by
  rw [wonOf, List.filter_append, List.filter_append, wonOf, wonOf]

theorem wonOf_cons (m : Match) : wonOf s (m :: ms) =
    (if m.stage = s ∧ m.status = .complete then [m] else []) ++ wonOf s ms := by
  by_cases hs : m.stage = s <;> by_cases hc : m.status = .complete <;> simp [wonOf, hs, hc]

/-- A match that is won joins those of its stage. -/
theorem wonOf_modify {id : MatchId} {m : Match} {o : Outcome} (hm : find? ms id = some m)
    (ho : m.status.isResolved = false) : (wonOf s (modify id (·.withOutcome o) ms)).Perm
      (wonOf s ms ++ if m.stage = s then [m.withOutcome o] else []) := by
  obtain ⟨pre, post, rfl, hmod⟩ := exists_split hm
  have hopen : ¬(m.stage = s ∧ m.status = .complete) := fun hc => by
    rw [hc.2] at ho
    cases ho
  have hwon : ((m.withOutcome o).stage = s ∧ (m.withOutcome o).status = .complete) ↔ m.stage = s :=
    and_iff_left rfl
  rw [hmod, wonOf_append, wonOf_append, wonOf_cons, wonOf_cons, if_neg hopen, List.nil_append,
    List.append_assoc, if_congr hwon rfl rfl]
  exact List.perm_append_comm.append_left _

/-- Where both seats are taken nothing follows. -/
theorem wonOf_of_settles (h : List.Forall₂ Match.Settles ms ms')
    (hready : ∀ m ∈ ms, m.stage = s → m.isReady) : wonOf s ms' = wonOf s ms := by
  have hstage : List.Forall₂ Match.Settles (ms.filter (·.stage = s)) (ms'.filter (·.stage = s)) :=
    List.rel_filter (fun _ _ hm => by simp [Match.outline_stage hm.outline]) h
  have hall : ∀ m ∈ ms.filter (·.stage = s), m.isReady := fun m hm => by
    rw [List.mem_filter, decide_eq_true_eq] at hm
    exact hready m hm.1 hm.2
  have hsame := ((List.forall₂_and_left _ _).2 ⟨hall, hstage⟩).imp fun m m' hm =>
    (hm.2.fixed (.inr hm.1)).symm
  rw [List.forall₂_eq_eq_eq] at hsame
  rw [wonOf, wonOf, hsame]

end Lists

/-- A result joins those of its stage, and no other of a league is touched. -/
theorem Running.wonOf_record {t t' : Tournament} (h : Running t) (hrun : Running t')
    {s : Stage} (hs : s ∈ t.leagues) (hleagues : t'.leagues = t.leagues)
    (hfield : t'.field = t.field) {m : Match} {o : Outcome} (hm : t.match? m.id = some m)
    (ho : checkOutcome m o = .ok ()) {ms : List Match}
    (hms : List.Forall₂ Match.Settles (Arena.modify m.id (·.withOutcome o) t.arena) ms)
    (he : { t with arena := ms }.Extends t') : (wonOf s t'.arena).Perm
      (wonOf s t.arena ++ if m.stage = s then [m.withOutcome o] else []) := by
  have hmem := (mem_of_find? hm).1
  obtain ⟨new, hnew, -⟩ := he.arena
  have hnew : t'.arena = ms ++ new := hnew
  -- a league has all its matches from the start, so what is new is not of it
  have hnone : new.filter (·.stage = s) = [] := by
    have hwon := evolves_modify_withOutcome h.sound.coherent hmem ho
    have hlen := (evolves_filter (evolves_trans hwon (hms.imp fun _ _ hf => hf.evolves)) s).length_eq
    have hlen' := hrun.length_league (hleagues ▸ hs)
    rw [hfield, ← h.length_league hs, hlen, hnew, List.filter_append, List.length_append] at hlen'
    exact List.eq_nil_of_length_eq_zero (by omega)
  have hnew' : wonOf s new = [] := by rw [wonOf, hnone, List.filter_nil]
  have hready : ∀ a ∈ Arena.modify m.id (·.withOutcome o) t.arena, a.stage = s → a.isReady := by
    intro a ha hst
    rcases (h.sound.coherent.wired.ordered.mem_modify hmem).1 ha with rfl | ⟨ha, -⟩
    · have hstage : m.stage ∈ t.leagues := hst ▸ hs
      have hready : m.isReady := h.isReady hmem hstage
      exact hready
    · exact h.isReady ha (hst ▸ hs)
  rw [hnew, wonOf_append, hnew', List.append_nil, wonOf_of_settles hms hready]
  exact wonOf_modify hm (checkOutcome_eq_ok_iff.1 ho).1

end Tourney.Tournament
