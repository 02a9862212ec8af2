import Tourney.Proofs.Tournament.Completion

/-!
# Progress

A tournament of any format that is driven by results alone never gets stuck (`no_deadlock`): until
it is complete some match is ready, every result for a ready match is taken, and it is complete as
soon as everything there is to generate has been generated and resolved.
-/

namespace Tourney.Tournament

open Arena Elimination Seeding

/-- A Swiss event has matches of every round, and a group stage has its finals. -/
def AllGenerated (c : Config) (t : Tournament) : Prop :=
  match c.format with
  | .swiss => ∀ r, 1 ≤ r → r ≤ Swiss.roundCount c.players.length →
      ∃ m ∈ t.arena, m.round.toNat = r
  | .groups _ => ∃ m ∈ t.arena, m.stage = .finals
  | _ => True

structure Unstuck (c : Config) (t : Tournament) : Prop where
  started : t.status ≠ .notStarted
  ready : t.status = .inProgress → ∃ m ∈ t.arena, m.status = .pending ∧ m.isReady
  takes : ∀ m ∈ t.arena, m.status = .pending → m.isReady → ∀ o, m.hasPlayer o.winner →
    ¬t.Overflows m.id o → ∃ effects, (t.record m.id o).answer = .ok effects
  complete : t.status = .complete ↔
    (∀ m ∈ t.arena, m.status.isResolved) ∧ AllGenerated c t
  champion : t.status = .complete → ∃ p ∈ c.players, t.champion = some p
  length : t.status = .complete → t.arena.length = matchCount c.format c.players.length

section Progress

variable {c : Config} {t : Tournament}

theorem not_open_iff : ¬t.Open ↔ ∀ m ∈ t.arena, m.status.isResolved := by
  simp [Open]

theorem Running.allGenerated (h : Running t) (hf : t.format = c.format)
    (hp : t.players = c.players) (ho : ¬t.Open) : AllGenerated c t := by
  unfold AllGenerated
  rw [← hf, ← hp]
  cases h.stages with
  | whole entrants fresh hs hg _ hfresh =>
    rcases hformat : t.format with _ | _ | _ | _ | plan
    · trivial
    · trivial
    · rw [hformat] at hfresh
      cases hfresh
    · trivial
    · rw [hformat] at hfresh
      cases hfresh
  | swiss e hf' hs hg hr =>
    rw [hf']
    intro r h1 hle
    refine (hr.rounds r).2 ⟨h1, ?_⟩
    by_contra hlt
    exact ho (h.roundsWait e hs (by rw [hr.total]; omega))
  | groups plan g hf' hs hg hr =>
    rw [hf']
    have hgen : g.finalsGenerated = true := by
      by_contra hgen
      exact ho (h.finalsWait g hg (by simpa using hgen))
    obtain ⟨finals, hfin, he⟩ := hr.arena
    have hlen := length_finals hfin
    rw [if_pos hgen] at hlen
    obtain ⟨m, hm⟩ := List.exists_mem_of_length_pos (hlen ▸ Groups.finalsCount_pos plan)
    rw [Finals, if_pos hgen] at hfin
    obtain ⟨seeds, rfl, -⟩ := hfin
    obtain ⟨m', hm', hev⟩ := exists_right he (List.mem_append_right _ hm)
    exact ⟨m', hm', by rw [Match.outline_stage hev.outline, (Groups.mem_finalsTree hm).2.1]⟩

theorem Live.unstuck (h : Live c t) (hfits : Fits c.format c.players.length) :
    Unstuck c t where
  started := by
    rw [h.running.settled]
    split_ifs <;> simp
  ready hst := by
    obtain ⟨m, hm, ho⟩ := h.running.inProgress_iff.1 hst
    obtain ⟨m', hm', ho', hready⟩ := h.running.sound.coherent.exists_ready hm ho
    have hheld := (h.free m' hm').2
    refine ⟨m', hm', ?_, hready⟩
    cases hs : m'.status <;> simp_all [MatchStatus.isResolved, MatchStatus.isHeld]
  takes m hm hpending hready o ho hne := by
    have hok : checkOutcome m o = .ok () :=
      checkOutcome_eq_ok_iff.2 ⟨by rw [hpending]; rfl, hready, ho⟩
    have hfind : t.match? m.id = some m := h.running.sound.coherent.wired.ordered.find? hm
    cases h.running.recorded m.id o with
    | refused f hf hr hno => exact absurd hok (hno m hfind)
    | overflows m' hm' ho' hwhy hr =>
      rcases hwhy with ⟨-, htally⟩ | hn
      · exact absurd ⟨m', hm', ho', htally⟩ hne
      · rw [h.format, h.players] at hn
        exact absurd hfits hn
    | done m' ms t' effects hm' ho' hok' hms hr hrun he => exact ⟨effects, by rw [hr]; rfl⟩
  complete := by
    rw [h.running.complete_iff, not_open_iff]
    exact ⟨fun hres => ⟨hres, h.running.allGenerated h.format h.players (not_open_iff.2 hres)⟩,
      And.left⟩
  champion hst := by
    rw [← h.players]
    exact h.running.exists_champion hst
  length hst := by
    rw [h.running.length_of_closed (h.running.complete_iff.1 hst), h.format, h.players]

end Progress

theorem no_deadlock {c : Config} (stamp : Stamp) (draw : Draw) (hc : c.check = .ok ())
    (hfits : Fits c.format c.players.length) :
    ∃ t, create c stamp draw = .ok t ∧
      ∀ calls, InRange t calls → Unstuck c (t.recordAll calls) := by
  obtain ⟨t, ht, hlive⟩ := (create_yields stamp draw hc).exists_ok hfits
  exact ⟨t, ht, fun calls hr => (hlive.recordAll hfits hr).unstuck hfits⟩

theorem no_deadlock_smallCup : ∃ t, create (smallCup .swiss) smallStamp .seeded = .ok t ∧
    InRange t [(⟨1⟩, ⟨"B", {}⟩), (⟨2⟩, ⟨"C", {}⟩)] ∧
    Unstuck (smallCup .swiss) (t.recordAll [(⟨1⟩, ⟨"B", {}⟩), (⟨2⟩, ⟨"C", {}⟩)]) := by
  have hfits : Fits (smallCup .swiss).format (smallCup .swiss).players.length := by decide
  obtain ⟨t, ht, hall⟩ := no_deadlock (c := smallCup .swiss) smallStamp .seeded (by decide) hfits
  have hr := (live_of_create ht).inRange hfits (.inr (.inr rfl))
    [(⟨1⟩, ⟨"B", {}⟩), (⟨2⟩, ⟨"C", {}⟩)]
  exact ⟨t, ht, hr, hall _ hr⟩

end Tourney.Tournament
