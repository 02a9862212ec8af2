import Tourney.Proofs.Tournament.Drawn
import Tourney.Proofs.Tournament.Rounds

/-!
# Well-formed tournaments

Every match is regular at every moment (`regular_of_returns`): a match of a bracket by the ways
into its seats, a match of a league or a Swiss event because both its seats are settled from the
start. With what is sound about ids and pointers this makes the whole arena well formed
(`well_formed`).
-/

namespace Tourney

namespace Match

variable {m : Match}

theorem AtRest.regular_of_players (h : m.AtRest) {p1 p2 : Player} (hne : p1 ≠ p2)
    (h1 : m.player1 = some p1) (h2 : m.player2 = some p2) : m.Regular := by
  have hseat : ∀ slot, m.seat slot ≠ .settled none := by
    intro slot hs
    have hnone : (m.seat slot).player = none := by rw [hs]; rfl
    cases slot
    · exact Option.some_ne_none p1 (h1.symm.trans hnone)
    · exact Option.some_ne_none p2 (h2.symm.trans hnone)
  refine ⟨fun x => ?_, fun hs => absurd hs (h.not_skipped (hseat .first)), fun _ _ _ => hseat⟩
  change (if m.player1 = some x then 1 else 0) + (if m.player2 = some x then 1 else 0) ≤ 1
  rw [h1, h2]
  by_cases hx : p1 = x
  · subst hx
    simp [Ne.symm hne]
  · simp only [Option.some.injEq, hx, if_false]
    split_ifs <;> omega

end Match

namespace Tournament

open Arena Elimination Seeding

/-! ## Regular tournaments -/

section Running

variable {t : Tournament} (h : Running t)

include h

/-- Two different players meet in every match of a league. -/
theorem Running.regular_league {m : Match} (hm : m ∈ t.arena) (hs : m.stage ∈ t.leagues) :
    m.Regular := by
  obtain ⟨p1, p2, hne, h1, h2⟩ := h.fixture hm hs
  exact (h.sound.coherent.atRest hm).regular_of_players hne h1 h2

/-- Somebody sits at every board, nobody twice, and no board leads anywhere. -/
theorem Running.regular_books {e : SwissEvent} (hb : Books t e) {m : Match} (hm : m ∈ t.arena) :
    m.Regular := by
  obtain ⟨⟨a, ha⟩, -⟩ := hb.rounds.board m hm
  have hseat : m.seat .first ≠ .settled none := by
    rw [Match.seat, ha]
    simp [Seat.settled]
  refine ⟨fun x => ?_, fun hs => ?_, fun _ _ hl => ?_⟩
  · by_contra hlt
    have hp := Match.hasPlayer_iff_seats.2 (show 1 ≤ m.seats x by omega)
    exact hlt (hb.rounds.seats_le_one (h.sound.rostered m hm x hp) hm)
  · exact absurd hs ((h.sound.coherent.atRest hm).not_skipped hseat)
  · have ht := (hb.rounds.apart m hm).1
    rw [Match.targets, List.append_eq_nil_iff, Option.toList_eq_nil_iff,
      Option.toList_eq_nil_iff] at ht
    exact absurd ht.2 hl

theorem Running.regular_finals (hd : t.FinalsDrawn) {plan : StagePlan} {g : GroupStage}
    (hf : t.format = .groups plan) (hg : t.groups = some g) (hgen : g.finalsGenerated) {m : Match}
    (hm : m ∈ t.arena) (hs : m.stage = .finals) : m.Regular := by
  obtain ⟨htwo, hnd, hlen, hfit⟩ := h.qualifiers_fit hf hg hgen
  exact Groups.regular_finalsTree htwo hnd hlen hfit _ (h.sound.coherent.ofStage .finals)
    (hd plan g hf hg hgen).evolves m (List.mem_filter.2 ⟨hm, by simp [hs]⟩)

theorem Running.regular (hd : t.FinalsDrawn) (hb : t.format = .swiss → ∃ e, Books t e) {m : Match}
    (hm : m ∈ t.arena) : m.Regular := by
  have htwo := two_le_players h.sound
  have hnd := (Roster.check_eq_ok_iff.1 h.sound.roster).2.2
  cases h.stages with
  | whole entrants fresh hs hg hp hf he ht =>
    have hfits := h.sound.fits
    have hlen := hp.length_eq
    rw [← he.length_eq, length_openingMatches (by omega) hf] at hfits
    rw [← hp.nodup_iff] at hnd
    unfold openingMatches at hf
    split at hf <;> rename_i hformat
    · rw [hformat, matchCount] at hfits
      cases hf
      exact regular_tree (by omega) hnd (by rw [toNat_firstMatchId]; omega) _ h.sound.coherent he
        m hm
    · rw [hformat, matchCount] at hfits
      cases hf
      exact regular_doubleTree (by omega) hnd (by rw [toNat_firstMatchId]; omega) _
        h.sound.coherent he m hm
    · cases hf
      obtain ⟨a, ha, hev⟩ := exists_left he hm
      refine h.regular_league hm ?_
      rw [leagues_roundRobin hformat, Match.outline_stage hev.outline,
        (RoundRobin.mem_fieldMatches ha).1]
      exact List.mem_singleton_self _
    · cases hf
    · cases hf
  | swiss e hf =>
    obtain ⟨e, he⟩ := hb hf
    exact h.regular_books he hm
  | groups plan g hf hs hg =>
    have hl := leagues_groups hf hg
    rcases h.stage_cases (by simp [hl]) hm with hstage | ⟨hstage, plan', g', -, hg', hgen⟩
    · exact h.regular_league hm hstage
    · obtain rfl : g = g' := Option.some.inj (hg.symm.trans hg')
      exact h.regular_finals hd hf hg hgen hm hstage

end Running

theorem regular_of_returns {c : Config} {stamp : Stamp} {draw : Draw} {t : Tournament}
    (h : create c stamp draw = .ok t) {calls : List (MatchId × Outcome)} (hr : Returns t calls) :
    ∀ m ∈ (t.recordAll calls).arena, m.Regular := by
  obtain ⟨hlive, hd⟩ := drawn_of_returns h hr
  refine fun m hm => hlive.running.regular hd (fun hf => ?_) hm
  exact (books_of_returns h (hlive.format.symm.trans hf) hr).2

end Tournament

/-! ## The arena as a whole -/

namespace Match

variable {m : Match}

/-- What holds of a match of a tournament of these players. -/
structure WellFormed (players : List Player) (m : Match) : Prop where
  won : m.status = .complete ↔ m.winner ≠ none
  winner : ∀ w, m.winner = some w → m.hasPlayer w
  skipped : m.status = .skipped → m.bracket = some .losers ∧ ∀ slot, (m.seat slot).vacant
  vacant : ∀ slot, (m.seat slot).vacant → (m.seat slot).player = none
  /-- Nobody meets himself. -/
  apart : ∀ p, m.player1 = some p → m.player2 ≠ some p
  rostered : ∀ p, m.hasPlayer p → p ∈ players

theorem Regular.player2_ne (h : m.Regular) {p : Player} (h1 : m.player1 = some p) :
    m.player2 ≠ some p := by
  intro h2
  have honce : (if m.player1 = some p then 1 else 0) + (if m.player2 = some p then 1 else 0) ≤ 1 :=
    h.once p
  simp [h1, h2] at honce

end Match

namespace Tournament

open Arena

/-- A well-formed arena: ids count from one, pointers lead on to matches of the stage and never two
to one seat, and every match is well formed. -/
structure WellFormed (players : List Player) (t : Tournament) : Prop where
  numbered : ∀ i m, t.arena[i]? = some m → m.id.val.toNat = i + 1
  next : t.nextMatchId.val.toNat = t.arena.length + 1
  leads : ∀ m ∈ t.arena, ∀ r ∈ m.targets,
    m.id.val < r.id.val ∧ ∃ m' ∈ t.arena, m'.id = r.id ∧ m'.stage = m.stage
  apart : (t.arena.flatMap Match.targets).Nodup
  wellFormed : ∀ m ∈ t.arena, m.WellFormed players

theorem Sound.toNat_id {t : Tournament} (h : Sound t) {i : Nat} {m : Match}
    (hm : t.arena[i]? = some m) : m.id.val.toNat = i + 1 := by
  have hfits := h.fits
  obtain ⟨hi, -⟩ := List.getElem?_eq_some_iff.1 hm
  have hid : (t.arena.map (·.id))[i]? = some m.id := by rw [List.getElem?_map, hm]; rfl
  rw [h.numbered, List.getElem?_map, List.getElem?_range hi] at hid
  rw [← Option.some.inj hid, MatchId.toNat_plus (by rw [toNat_firstMatchId]; omega),
    toNat_firstMatchId, Nat.add_comm]

/-- The matches there are stay where they are, with their ids, and new ones follow them. -/
theorem Running.outlines_record {t : Tournament} (h : Running t) {id : MatchId} {o : Outcome}
    (hne : (t.record id o).answer ≠ .error .outOfRange) :
    t.arena.map Match.outline <+: (t.record id o).state.arena.map Match.outline := by
  cases h.recorded id o with
  | refused f hf hr =>
    rw [hr]
    exact List.prefix_rfl
  | overflows m hm ho hwhy hr => exact absurd hr hne
  | done m ms t' effects hm ho htally hms hr hrun he =>
    obtain ⟨hmem, rfl⟩ := mem_of_find? hm
    obtain ⟨new, hnew, -⟩ := he.arena
    have hout := map_outline_of_evolves (evolves_trans
      (evolves_modify_withOutcome h.sound.coherent hmem ho) (hms.imp fun _ _ hf => hf.evolves))
    rw [hr]
    change _ <+: t'.arena.map Match.outline
    rw [hnew, List.map_append]
    change _ <+: ms.map Match.outline ++ _
    rw [hout]
    exact List.prefix_append ..

/-- Whatever is recorded, the arena is well formed, and the next result adds matches at most. -/
theorem well_formed {c : Config} {stamp : Stamp} {draw : Draw} {t : Tournament}
    (h : create c stamp draw = .ok t) {calls : List (MatchId × Outcome)} (hr : Returns t calls) :
    WellFormed c.players (t.recordAll calls) ∧
      ∀ id o, ((t.recordAll calls).record id o).answer ≠ .error .outOfRange →
        (t.recordAll calls).arena.map Match.outline <+:
          ((t.recordAll calls).record id o).state.arena.map Match.outline := by
  have hlive := (live_of_create h).of_returns hr
  have hsound := hlive.running.sound
  refine ⟨⟨fun i m hm => hsound.toNat_id hm, ?_, hsound.coherent.wired.leads,
    hsound.coherent.wired.apart, fun m hm => ?_⟩, fun id o hne => hlive.running.outlines_record hne⟩
  · rw [hsound.toNat_next, Nat.add_comm]
  have hrest := hsound.coherent.atRest hm
  have hreg := regular_of_returns h hr m hm
  refine ⟨hrest.complete_iff, fun w => hrest.hasPlayer_winner, fun hs => ⟨hreg.skipped hs, ?_⟩,
    hsound.coherent.proper m hm, fun p => hreg.player2_ne, fun p hp => ?_⟩
  · intro slot
    rw [hrest.seats_of_skipped hs slot]
    rfl
  · rw [← hlive.players]
    exact hsound.rostered m hm p hp

/-- Two groups of three, all of whom go on to finals with byes and losers matches. -/
def sixCup : Config :=
  { smallCup (.groups { finalsSize := 6, finalsFormat := .doubleElimination }) with
    players := ["A", "B", "C", "D", "E", "F"] }

/-- The matches of both groups, out of order, and one of the finals. -/
def sixCalls : List (MatchId × Outcome) :=
  [(⟨1⟩, scored "B" 7 3), (⟨2⟩, scored "C" 3 7), (⟨3⟩, scored "B" 2 7), (⟨6⟩, scored "E" 0 7),
    (⟨5⟩, scored "F" 5 7), (⟨4⟩, scored "E" 7 6), (⟨8⟩, scored "A" 1 2)]

theorem exists_sixCup : ∃ t, create sixCup smallStamp .seeded = .ok t ∧ Returns t sixCalls := by
  have hrun : (create sixCup smallStamp .seeded).map
      (fun t => decide (Taken t sixCalls)) = .ok true := by cbv
  obtain ⟨t, h, htaken⟩ := map_eq_ok.1 hrun
  exact ⟨t, h, (of_decide_eq_true htaken).returns⟩

/-- With both groups done, the cup of six has come to its finals. -/
theorem finals_sixCup {t : Tournament} (h : create sixCup smallStamp .seeded = .ok t) :
    ∃ m ∈ (t.recordAll sixCalls).arena, m.stage = .finals := by
  have hrun : (create sixCup smallStamp .seeded).map
      (fun t => (t.recordAll sixCalls).arena.any (·.stage = .finals)) = .ok true := by cbv
  rw [h] at hrun
  simpa using Except.ok.inj hrun

theorem well_formed_sixCup : ∃ t, create sixCup smallStamp .seeded = .ok t ∧
    Returns t sixCalls ∧ WellFormed sixCup.players (t.recordAll sixCalls) ∧
      ∀ id o, ((t.recordAll sixCalls).record id o).answer ≠ .error .outOfRange →
        (t.recordAll sixCalls).arena.map Match.outline <+:
          ((t.recordAll sixCalls).record id o).state.arena.map Match.outline := by
  obtain ⟨t, h, hr⟩ := exists_sixCup
  exact ⟨t, h, hr, well_formed h hr⟩

end Tournament

end Tourney
