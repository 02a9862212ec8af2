import Tourney.Proofs.Arena.Determined
import Tourney.Proofs.Elimination.GrandFinal
import Tourney.Proofs.Tournament.TwoLosses
import Tourney.Proofs.Tournament.WellFormed

/-!
# The end of a double elimination

A double elimination, the whole tournament or the finals behind two groups, ends in a grand final
and its reset at every moment (`Running.exists_ending`). The winner of the reset is the champion
(`Running.champion_eq`), and the result of the grand final decides in the same call whether the
reset has to be played (`Running.decides_record`).
-/

namespace Tourney.Tournament

open Arena Elimination Seeding

/-- The matches of the stage are those of a double elimination. -/
inductive DoubleStage (t : Tournament) : Stage → Prop
  | whole (hf : t.format = .doubleElimination) : DoubleStage t .main
  | finals {plan : StagePlan} (hf : t.format = .groups plan)
      (hp : plan.finalsFormat = .doubleElimination) (hm : ∃ m ∈ t.arena, m.stage = .finals) :
      DoubleStage t .finals

theorem DoubleStage.format_ne_swiss {t : Tournament} {s : Stage} (h : t.DoubleStage s) :
    t.format ≠ .swiss := by
  cases h with
  | whole hf => simp [hf]
  | finals hf => simp [hf]

/-- The grand final `g` of a stage and its reset `r` decide about the tournament. -/
structure GrandFinal (t : Tournament) (s : Stage) (g r : Match) : Prop where
  ending : Ending (t.arena.filter (·.stage = s)) g r
  champion : t.champion = r.winner
  /-- A result of the grand final settles the reset, or has it played, in the same call. -/
  decided : ∀ o effects, (t.record g.id o).answer = .ok effects →
    ∃ r' ∈ (t.record g.id o).state.arena, r'.id = r.id ∧ Decides (g.withOutcome o) r' ∧
      (g.player2 = some o.winner → r'.status = .pending)

section Stage

variable {t : Tournament} {s : Stage} {g r : Match} (h : Running t) (hd : t.FinalsDrawn)
  (hs : t.DoubleStage s)

include h hd hs

/-- Only matches of the double elimination are open. -/
theorem Running.resolved_of_other {m : Match} (hm : m ∈ t.arena) (hne : m.stage ≠ s) :
    m.status.isResolved := by
  cases hs with
  | whole hf =>
    obtain ⟨entrants, -, he⟩ := h.stages.of_doubleElimination hf
    obtain ⟨a, ha, hev⟩ := exists_left he hm
    rw [Match.outline_stage hev.outline] at hne
    exact absurd (fresh_doubleTree ha).2 hne
  | finals hf hp hfinals =>
    obtain ⟨g, hg, -⟩ := h.stages.of_groups hf
    exact (hd _ g hf hg ((h.exists_finals_iff hf hg).1 hfinals)).done m hm hne

theorem Running.exists_ending : ∃ g r, Ending (t.arena.filter (·.stage = s)) g r := by
  have hc := h.sound.coherent.ofStage s
  cases hs with
  | whole hf =>
    have hfits := h.sound.fits
    have hnd := (Roster.check_eq_ok_iff.1 h.sound.roster).2.2
    have htwo := two_le_players h.sound
    obtain ⟨entrants, hperm, he⟩ := h.stages.of_doubleElimination hf
    have hmain := evolves_filter he .main
    rw [List.filter_eq_self.2 fun m hm => by simp [(fresh_doubleTree hm).2]] at hmain
    rw [← he.length_eq, length_doubleTree (rounds_pos _)] at hfits
    exact ends_doubleTree (hperm.length_eq ▸ htwo) (hperm.nodup_iff.2 hnd)
      (by rw [toNat_firstMatchId, bracketSize]; omega) _ hc hmain
  | @finals plan hf hp hfinals =>
    obtain ⟨g, hg, -⟩ := h.stages.of_groups hf
    have hgen := (h.exists_finals_iff hf hg).1 hfinals
    obtain ⟨htwo, hnd, hlen, hfit⟩ := h.qualifiers_fit hf hg hgen
    have he := (hd plan g hf hg hgen).evolves
    simp only [Groups.finalsTree, Groups.finalsCount, hp] at he hfit
    rw [← hlen] at hfit
    exact ends_doubleTree htwo hnd (Nat.le_of_lt hfit) _ hc he

/-- The winner of the reset is the champion. -/
theorem Running.champion_eq (he : Ending (t.arena.filter (·.stage = s)) g r) :
    t.champion = r.winner := by
  obtain ⟨hr, hstage⟩ := List.mem_filter.1 he.resetMem
  have hstage : r.stage = s := of_decide_eq_true hstage
  by_cases hc : t.status = .complete
  · have hwinner : t.bracketWinner r.stage = r.winner := by
      refine bracketWinner_eq hr ((he.last r he.resetMem).2 rfl) fun m hm hms hnext => ?_
      exact (he.last m (List.mem_filter.2 ⟨hm, by simp [hms, hstage]⟩)).1 hnext
    rw [hstage] at hwinner
    cases hs with
    | whole hf => simp [champion, isComplete, hc, hf, hwinner]
    | finals hf => simp [champion, isComplete, hc, hf, hwinner]
  · -- some match of the stage is open, so the reset is to come
    obtain ⟨m, hm, ho⟩ := not_not.1 fun ho => hc (h.complete_iff.2 ho)
    have hms : m.stage = s := by
      by_contra hne
      rw [h.resolved_of_other hd hs hm hne] at ho
      cases ho
    have hrc : r.status ≠ .complete := fun hrc => by
      rw [he.closed.1 hrc m (List.mem_filter.2 ⟨hm, by simp [hms]⟩)] at ho
      cases ho
    have hnone : r.winner = none := by
      by_contra hne
      exact hrc ((h.sound.coherent.atRest hr).complete_iff.2 hne)
    simp [champion, isComplete, hc, hnone]

end Stage

/-! ## The result of the grand final -/

/-- A tally leaves the matches alone, and keeps to the format. -/
theorem tally_frame {t t' : Tournament} {m : Match} (h : t.tally m = .ok t') :
    t'.arena = t.arena ∧ (t.swiss = none → t'.swiss = none) := by
  unfold tally at h
  split at h
  · rename_i e _ hs
    obtain ⟨standings, -, h⟩ := bind_eq_ok.1 h
    cases h
    exact ⟨rfl, fun hn => by rw [hs] at hn; cases hn⟩
  · obtain ⟨table, -, h⟩ := bind_eq_ok.1 h
    cases h
    exact ⟨rfl, fun hn => hn⟩
  · obtain ⟨g, -, h⟩ := bind_eq_ok.1 h
    cases h
    exact ⟨rfl, fun hn => hn⟩
  · cases h
    exact ⟨rfl, fun hn => hn⟩

/-- Where no rounds are paired, the matches settle behind a result, and others are added at most. -/
theorem Running.settles_of_record {t : Tournament} (h : Running t) (hs : t.swiss = none) {m : Match}
    (hm : m ∈ t.arena) {o : Outcome} (ho : checkOutcome m o = .ok ()) {effects : Effects}
    (hr : (t.record m.id o).answer = .ok effects) : ∃ ms new,
      List.Forall₂ Match.Settles (Arena.modify m.id (·.withOutcome o) t.arena) ms ∧
        (t.record m.id o).state.arena = ms ++ new := by
  obtain ⟨ms, hcomplete, hsettles⟩ := h.sound.coherent.complete_settles hm ho
  obtain ⟨t₁, hent⟩ := exists_enter hr
  have hrecord := record_of_enter hent
  obtain ⟨⟨⟩, -, hent⟩ := bind_eq_ok.1 hent
  obtain ⟨m', -, hent⟩ := bind_eq_ok.1 hent
  rw [hcomplete] at hent
  obtain ⟨harena, hswiss⟩ := tally_frame hent
  obtain ⟨-, new, hnew, -⟩ := advance_league (hswiss hs)
  rw [hrecord, hnew, harena]
  exact ⟨ms, new, hsettles.settles, rfl⟩

section Decide

variable {t : Tournament} {s : Stage} {g r : Match} (h : Running t) (hs : t.DoubleStage s)

include h hs

theorem Running.decides_record (he : Ending (t.arena.filter (·.stage = s)) g r) {o : Outcome}
    {effects : Effects} (hr : (t.record g.id o).answer = .ok effects)
    (hrun : Running (t.record g.id o).state) (hd : (t.record g.id o).state.FinalsDrawn)
    (hs' : (t.record g.id o).state.DoubleStage s) :
    ∃ r' ∈ (t.record g.id o).state.arena, r'.id = r.id ∧ Decides (g.withOutcome o) r' ∧
      (g.player2 = some o.winner → r'.status = .pending) := by
  obtain ⟨hg, hgs⟩ := List.mem_filter.1 he.mem
  obtain ⟨hrm, hrs⟩ := List.mem_filter.1 he.resetMem
  have hord := h.sound.coherent.wired.ordered
  obtain ⟨m, hm, ho⟩ := match_of_record hr
  obtain rfl : g = m := Option.some.inj ((hord.find? hg).symm.trans hm)
  obtain ⟨hopen, hready, -⟩ := checkOutcome_eq_ok_iff.1 ho
  have hseats := he.awaits hopen
  have hid : r.id ≠ g.id := fun hid => by
    obtain rfl := hord.eq_of_id_eq hrm hg hid
    exact Match.isReady_ne_open hready .first (hseats .first)
  obtain ⟨ms, new, hms, harena⟩ :=
    h.settles_of_record (h.stages.swiss_eq_none hs.format_ne_swiss) hg ho hr
  -- the grand final stays as it has been won, and the reset is the one match behind it
  obtain ⟨g', hg', hgg⟩ := exists_right hms ((hord.mem_modify hg).2 (.inl rfl))
  obtain rfl := hgg.fixed (.inl (by simp [Match.withOutcome]))
  obtain ⟨r', hr', hrr⟩ := exists_right hms ((hord.mem_modify hg).2 (.inr ⟨hrm, hid⟩))
  have hmem : ∀ a ∈ ms, a.stage = s → a ∈ (t.record g.id o).state.arena.filter (·.stage = s) :=
    fun a ha has => List.mem_filter.2
      ⟨by rw [harena]; exact List.mem_append_left _ ha, decide_eq_true has⟩
  have hg' := hmem _ hg' (of_decide_eq_true hgs)
  have hr' := hmem _ hr' ((Match.outline_stage hrr.outline).trans (of_decide_eq_true hrs))
  obtain ⟨g₁, r₁, he'⟩ := hrun.exists_ending hd hs'
  obtain rfl := (he'.grandFinal _ hg').1 ((he.grandFinal g he.mem).2 rfl)
  obtain rfl := (he'.reset r' hr').1 (by
    rw [Match.outline_isGrandFinalReset hrr.outline]
    exact (he.reset r he.resetMem).2 rfl)
  have hdecides := he'.decides rfl
  refine ⟨r', (List.mem_filter.1 hr').1, Match.outline_id hrr.outline, hdecides, fun h2 => ?_⟩
  -- settling leaves a match with both players to be played
  obtain ⟨hready', -⟩ := hdecides.overturned h2.symm
  have hpending := ((h.sound.coherent.atRest hrm).unsettled (hseats .first)).1
  rcases hrr.status with hst | hres
  · rw [hst, hpending]
  · rw [hrr.spares hready' hres] at hready'
    exact absurd (hseats .first) (Match.isReady_ne_open hready' .first)

end Decide

/-- A stage that is there stays. -/
theorem Live.doubleStage_record {c : Config} {t : Tournament} (h : Live c t) {s : Stage}
    (hs : t.DoubleStage s) {id : MatchId} {o : Outcome}
    (hne : (t.record id o).answer ≠ .error .outOfRange) : (t.record id o).state.DoubleStage s := by
  have hformat := (h.record_of_ne hne).format.trans h.format.symm
  cases hs with
  | whole hf => exact .whole (hformat.trans hf)
  | finals hf hp hm =>
    obtain ⟨m, hm, hms⟩ := hm
    refine .finals (hformat.trans hf) hp ?_
    have hout := (h.running.outlines_record hne).subset (List.mem_map_of_mem hm)
    obtain ⟨m', hm', hmm⟩ := List.mem_map.1 hout
    exact ⟨m', hm', (Match.outline_stage hmm).trans hms⟩

/-- Whatever is recorded, the grand final and its reset decide about a double elimination. -/
theorem grand_final_and_reset {c : Config} {stamp : Stamp} {draw : Draw} {t : Tournament}
    (h : create c stamp draw = .ok t) {calls : List (MatchId × Outcome)}
    (hr : c.format ≠ .doubleElimination → Returns t calls) {s : Stage}
    (hs : (t.recordAll calls).DoubleStage s) : ∃ g r, GrandFinal (t.recordAll calls) s g r := by
  have hr : Returns t calls := by
    by_cases hf : c.format = .doubleElimination
    · exact returns_of_knockout h (.inr hf) calls
    · exact hr hf
  obtain ⟨hlive, hd⟩ := drawn_of_returns h hr
  obtain ⟨g, r, he⟩ := hlive.running.exists_ending hd hs
  refine ⟨g, r, he, hlive.running.champion_eq hd hs he, fun o effects ho => ?_⟩
  have hne : ((t.recordAll calls).record g.id o).answer ≠ .error .outOfRange := by simp [ho]
  exact hlive.running.decides_record hs he ho (hlive.record_of_ne hne).running
    (hlive.finalsDrawn_record hd hne) (hlive.doubleStage_record hs hne)

theorem grand_final_and_reset_sixCup : ∃ t, create sixCup smallStamp .seeded = .ok t ∧
    (sixCup.format ≠ .doubleElimination → Returns t sixCalls) ∧
      (t.recordAll sixCalls).DoubleStage .finals ∧
        ∃ g r, GrandFinal (t.recordAll sixCalls) .finals g r := by
  obtain ⟨t, h, hr⟩ := exists_sixCup
  have hs : (t.recordAll sixCalls).DoubleStage .finals :=
    .finals ((live_of_create h).of_returns hr).format rfl (finals_sixCup h)
  exact ⟨t, h, fun _ => hr, hs, grand_final_and_reset h (fun _ => hr) hs⟩

end Tourney.Tournament
