import Tourney.Proofs.Tournament.Tabled

/-!
# Room in the tables

A result that may be recorded is recorded exactly if the points of its players fit the counters of
their table (`isOk_record_iff`). Wins and losses always fit; points need not, since any score may be
reported (`record_overflows_trio`).
-/

namespace Tourney.Tournament

open Arena RoundRobin

/-- With the scores of a result the points of no player of its league pass what a counter holds. -/
def PointsFit (t : Tournament) (m : Match) (o : Outcome) : Prop :=
  m.stage ∈ t.leagues → ∀ p ∈ t.field m.stage,
    ((wonOf m.stage t.arena).map (scoredBy p)).sum + scoredBy p (m.withOutcome o) < UInt32.size ∧
    ((wonOf m.stage t.arena).map (concededBy p)).sum + concededBy p (m.withOutcome o) <
      UInt32.size

/-- There are fewer complete matches than ids. -/
theorem Running.length_wonOf_lt {t : Tournament} (h : Running t) (s : Stage) :
    (wonOf s t.arena).length + 1 < UInt32.size := by
  have hle : (wonOf s t.arena).length ≤ t.arena.length :=
    (List.length_filter_le ..).trans (List.length_filter_le ..)
  have := h.sound.fits
  omega

section Counted

variable {c : Config} {t₀ t : Tournament} (h : Counted c t₀ t) (hl : t₀.leagues ≠ []) {m : Match}
  (hm : t.match? m.id = some m) {o : Outcome} (ho : checkOutcome m o = .ok ())

include h hl hm ho

/-- A result can be tallied exactly if its points fit. -/
theorem Counted.exists_tally_iff :
    (∃ t', t.tally (m.withOutcome o) = .ok t') ↔ PointsFit t m o := by
  have hrunning := h.live.running
  have hmem := (mem_of_find? hm).1
  rcases hrunning.stage_cases (h.leagues ▸ hl) hmem with hs | ⟨hs, plan, g, hf, hg, -⟩
  swap
  · rw [tally_finals (m := m.withOutcome o) hf hg hs]
    refine iff_of_true ⟨t, rfl⟩ fun hleague => ?_
    rw [leagues_groups hf hg, hs] at hleague
    simp at hleague
  obtain ⟨p1, p2, hne, h1, h2⟩ := hrunning.fixture hmem hs
  have hplayed := played_withOutcome ho hne h1 h2
  have htallied := h.tallied m.stage (h.leagues ▸ hs)
  rw [← h.field] at htallied
  have hms : ∀ a ∈ wonOf m.stage t.arena ++ [m.withOutcome o], ∃ p1 p2, Played a p1 p2 := by
    refine List.forall_mem_append.2 ⟨fun a ha => hrunning.played hs ha, fun a ha => ?_⟩
    exact List.mem_singleton.1 ha ▸ ⟨p1, p2, hplayed⟩
  rw [tally_league (m := m.withOutcome o) (s := m.stage) rfl hs]
  constructor
  · rintro ⟨t', ht'⟩ - p hp
    obtain ⟨table, hrec, -⟩ := bind_eq_ok.1 ht'
    have hroom := (htallied.recordAndRank hplayed hrec).room hp
    rw [total_eq hms] at hroom
    simpa using hroom.2.2
  · intro hfit
    obtain ⟨table, hrec⟩ := htallied.exists_recordAndRank hplayed fun p hp => by
      have hcount := wins_add_losses_le hms p
      have hlen := hrunning.length_wonOf_lt m.stage
      rw [List.length_append, List.length_singleton] at hcount
      have hpoints := hfit hs p hp
      refine ⟨by omega, by omega, ?_⟩
      rw [total_eq hms]
      simpa using hpoints
    exact ⟨_, bind_eq_ok.2 ⟨table, hrec, rfl⟩⟩

/-- A result whose points fit is recorded; any other leaves the tables behind the arena. -/
theorem Counted.record_cases (hfits : Fits c.format c.players.length) :
    PointsFit t m o ∧ (t.record m.id o).answer.isOk ∨
      ¬PointsFit t m o ∧ (t.record m.id o).answer = .error .outOfRange ∧
        (t.record m.id o).state.match? m.id = some (m.withOutcome o) := by
  have hrunning := h.live.running
  have hmem := (mem_of_find? hm).1
  have hiff := h.exists_tally_iff hl hm ho
  cases hrunning.recorded m.id o with
  | refused f hf hr hno => exact absurd ho (hno m hm)
  | overflows m' hm' ho' hwhy hr =>
    obtain rfl : m = m' := Option.some.inj (hm.symm.trans hm')
    rcases hwhy with ⟨-, htally⟩ | hn
    swap
    · rw [h.live.format, h.live.players] at hn
      exact absurd hfits hn
    refine .inr ⟨fun hfit => ?_, hr, ?_⟩
    · obtain ⟨t', ht'⟩ := hiff.2 hfit
      rw [htally] at ht'
      cases ht'
    · obtain ⟨ms, hcomplete, -, -, hfind⟩ := hrunning.sound.exists_complete hmem ho
      rw [record_eq_refused hcomplete hfind (by rw [tally_arena, htally]; rfl)]
      change find? ms m.id = _
      rw [Arena.find] at hfind
      split at hfind
      · rw [‹find? ms m.id = _›, Except.ok.inj hfind]
      · cases hfind
  | done m' ms t' effects hm' ho' htally hms hr =>
    have hok : (t.record m.id o).answer = .ok effects := by rw [hr]; rfl
    obtain ⟨t₁, hent⟩ := exists_enter hok
    obtain ⟨ms, heq⟩ := hrunning.enter_eq_map hmem ho
    rw [heq, map_eq_ok] at hent
    obtain ⟨t₂, ht₂, -⟩ := hent
    exact .inl ⟨hiff.1 ⟨t₂, ht₂⟩, by rw [hok]; rfl⟩

end Counted

/-- In a round robin or a group stage a result for an unresolved match with both seats taken, won
by one of its players, is recorded exactly if its points fit. Otherwise the call overflows, when the
match has already been completed. -/
theorem isOk_record_iff {c : Config} {stamp : Stamp} {draw : Draw} {t : Tournament}
    (h : create c stamp draw = .ok t)
    (hf : c.format = .roundRobin ∨ ∃ plan, c.format = .groups plan)
    (hfits : Fits c.format c.players.length) {calls : List (MatchId × Outcome)}
    (hr : Returns t calls) {id : MatchId} {m : Match}
    (hm : (t.recordAll calls).match? id = some m) (hopen : m.status.isResolved = false)
    (hready : m.isReady) {o : Outcome} (ho : m.hasPlayer o.winner) :
    (((t.recordAll calls).record id o).answer.isOk ↔ PointsFit (t.recordAll calls) m o) ∧
      (¬PointsFit (t.recordAll calls) m o →
        ((t.recordAll calls).record id o).answer = .error .outOfRange ∧
          ((t.recordAll calls).record id o).state.match? id = some (m.withOutcome o)) := by
  obtain ⟨-, rfl⟩ := mem_of_find? hm
  rcases (counted_of_returns h hf hr).record_cases ((live_of_create h).leagues_ne_nil hf) hm
    (checkOutcome_eq_ok_iff.2 ⟨hopen, hready, ho⟩) hfits with ⟨hfit, hok⟩ | ⟨hno, hover, hdone⟩
  · exact ⟨iff_of_true hok hfit, fun hno => absurd hfit hno⟩
  · exact ⟨iff_of_false (by simp [hover, Except.isOk, Except.toBool]) hno, fun _ => ⟨hover, hdone⟩⟩

/-- A match with as many points as a counter holds. -/
def fullScore : List (MatchId × Outcome) := [(⟨1⟩, scored "B" 4294967295 0)]

theorem isOk_record_iff_trio : ∃ t m, create trio smallStamp .seeded = .ok t ∧
    Fits trio.format trio.players.length ∧ Returns t fullScore ∧
    (t.recordAll fullScore).match? ⟨3⟩ = some m ∧ m.status.isResolved = false ∧ m.isReady ∧
    m.hasPlayer (scored "B" 0 1).winner ∧
    (((t.recordAll fullScore).record ⟨3⟩ (scored "B" 0 1)).answer.isOk ↔
      PointsFit (t.recordAll fullScore) m (scored "B" 0 1)) ∧
    (¬PointsFit (t.recordAll fullScore) m (scored "B" 0 1) →
      ((t.recordAll fullScore).record ⟨3⟩ (scored "B" 0 1)).answer = .error .outOfRange ∧
        ((t.recordAll fullScore).record ⟨3⟩ (scored "B" 0 1)).state.match? ⟨3⟩ =
          some (m.withOutcome (scored "B" 0 1))) := by
  have hrun : (create trio smallStamp .seeded).map (fun t =>
      (decide (Taken t fullScore), ((t.recordAll fullScore).match? ⟨3⟩).map fun m =>
        (m.status.isResolved, m.isReady, m.hasPlayer "B"))) =
      .ok (true, some (false, true, true)) := by cbv
  obtain ⟨t, h, hrun⟩ := map_eq_ok.1 hrun
  simp only [Prod.mk.injEq, decide_eq_true_eq, Option.map_eq_some_iff] at hrun
  obtain ⟨htaken, m, hm, hopen, hready, hplayer⟩ := hrun
  have hfits : Fits trio.format trio.players.length := by decide
  exact ⟨t, m, h, hfits, htaken.returns, hm, hopen, hready, hplayer,
    isOk_record_iff h (.inl rfl) hfits htaken.returns hm hopen hready hplayer⟩

/-- One point more is one too many, and the match is complete all the same. -/
theorem record_overflows_trio : ∃ t m, create trio smallStamp .seeded = .ok t ∧
    Taken t fullScore ∧ (t.recordAll fullScore).match? ⟨3⟩ = some m ∧
    m.status.isResolved = false ∧ m.isReady ∧ m.hasPlayer "B" ∧
    ((t.recordAll fullScore).record ⟨3⟩ (scored "B" 0 1)).answer = .error .outOfRange ∧
    (((t.recordAll fullScore).record ⟨3⟩ (scored "B" 0 1)).state.match? ⟨3⟩).map Match.status =
      some .complete := by
  have hrun : (create trio smallStamp .seeded).map (fun t =>
      (decide (Taken t fullScore), ((t.recordAll fullScore).match? ⟨3⟩).map (fun m =>
        (m.status.isResolved, m.isReady, m.hasPlayer "B")),
        ((t.recordAll fullScore).record ⟨3⟩ (scored "B" 0 1)).answer,
        (((t.recordAll fullScore).record ⟨3⟩ (scored "B" 0 1)).state.match? ⟨3⟩).map
          Match.status)) =
      .ok (true, some (false, true, true), .error .outOfRange, some .complete) := by cbv
  obtain ⟨t, h, hrun⟩ := map_eq_ok.1 hrun
  simp only [Prod.mk.injEq, decide_eq_true_eq, Option.map_eq_some_iff] at hrun
  obtain ⟨htaken, ⟨m, hm, hopen, hready, hplayer⟩, hover, hdone⟩ := hrun
  exact ⟨t, m, h, htaken, hm, hopen, hready, hplayer, hover, Option.map_eq_some_iff.2 hdone⟩

end Tourney.Tournament
