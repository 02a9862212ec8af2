import Tourney.Proofs.Tournament.Commute

/-!
# Devices make no difference

A match that a device holds counts as one that nobody has started (`Match.unheld`). Settling, the
standings and whatever is generated next look only at who sits where and at what is resolved, so
recording a result and forgetting the devices can be done in either order (`record_unheld`).
-/

namespace Tourney

/-- The match as if no device had taken it. -/
def Match.unheld (m : Match) : Match :=
  { m with status := if m.status.isHeld then .pending else m.status, device := none }

namespace Match

variable {m m' : Match}

theorem seat_unheld (m : Match) (slot : Slot) : m.unheld.seat slot = m.seat slot := by
  cases slot <;> rfl

theorem isResolved_unheld (m : Match) : m.unheld.status.isResolved = m.status.isResolved := by
  unfold unheld
  cases m.status <;> rfl

theorem Free.unheld (h : m.Free) : m.unheld = m := by
  obtain ⟨hd, hh⟩ := h
  simp [Match.unheld, hh, ← hd]

theorem withOutcome_unheld (m : Match) (o : Outcome) :
    m.unheld.withOutcome o = m.withOutcome o := rfl

theorem outputs_unheld (m : Match) : m.unheld.outputs = m.outputs := by
  have hsends : ∀ p, m.unheld.sends p = m.sends p := fun p => by
    unfold sends Match.unheld
    cases m.status <;> rfl
  unfold outputs
  rw [hsends, hsends]
  rfl

theorem AtRest.unheld (h : m.AtRest) : m.unheld.AtRest := by
  unfold AtRest at h ⊢
  unfold Match.unheld
  cases hs : m.status <;> rw [hs] at h
  · exact ⟨h.1, h.2⟩
  · exact ⟨h.1, .inl h.2⟩
  · exact ⟨h.1, .inl h.2⟩
  · exact ⟨h.1, .inl h.2⟩
  · exact ⟨h.1, h.2⟩
  · exact ⟨h.1, h.2⟩

theorem Settles.unheld (h : m.Settles m') : m.unheld.Settles m'.unheld where
  outline := h.outline
  figures := h.figures
  device := rfl
  seats slot hs := by
    rw [seat_unheld] at hs
    rw [seat_unheld, seat_unheld, h.seats slot hs]
  fixed hm := by
    rw [h.fixed (hm.imp (fun hs hp => hs ?_) fun hr => hr)]
    simp [Match.unheld, hp, MatchStatus.isHeld]
  status := by
    rcases h.status with hs | hs
    · exact .inl (by simp [Match.unheld, hs])
    · exact .inr (by rwa [isResolved_unheld])
  spares hr hs := by
    rw [isResolved_unheld] at hs
    rw [h.spares hr hs]

end Match

namespace Arena

variable {ms ms' : List Match}

theorem Coherent.unheld (h : Coherent ms []) : Coherent (ms.map Match.unheld) [] := by
  have houtl : (ms.map Match.unheld).map Match.outline = ms.map Match.outline := by
    rw [List.map_map]
    rfl
  refine ⟨h.wired.of_outlines houtl, ?_, ?_, ?_, ?_, by simp [loads], by simp [loads], by simp,
    by simp⟩
  · intro a ha slot
    obtain ⟨m, hm, rfl⟩ := List.mem_map.1 ha
    rw [Match.seat_unheld]
    exact h.proper m hm slot
  · intro a ha
    obtain ⟨m, hm, rfl⟩ := List.mem_map.1 ha
    exact .inl (h.atRest hm).unheld
  · intro a ha r s hl b hb hid
    obtain ⟨m, hm, rfl⟩ := List.mem_map.1 ha
    obtain ⟨m', hm', rfl⟩ := List.mem_map.1 hb
    rw [Match.outputs_unheld] at hl
    rw [Match.seat_unheld]
    exact h.arrives m hm r s hl m' hm' hid
  · intro b hb slot hs
    obtain ⟨m, hm, rfl⟩ := List.mem_map.1 hb
    rw [Match.seat_unheld] at hs
    obtain ⟨a, ha, hat⟩ := h.fed m hm slot hs
    exact ⟨a.unheld, List.mem_map_of_mem ha, hat⟩

theorem SettlesTo.unheld (h : SettlesTo ms ms') :
    SettlesTo (ms.map Match.unheld) (ms'.map Match.unheld) where
  coherent := h.coherent.unheld
  settles := by
    rw [List.forall₂_map_left_iff, List.forall₂_map_right_iff]
    exact h.settles.imp fun _ _ hs => hs.unheld

theorem map_unheld_withOutcome (id : MatchId) (o : Outcome) (ms : List Match) :
    (modify id (·.withOutcome o) ms).map Match.unheld =
      modify id (·.withOutcome o) (ms.map Match.unheld) := by
  induction ms with
  | nil => rfl
  | cons m ms ih =>
    have hid : m.unheld.id = m.id := rfl
    simp only [modify, List.map_cons, hid]
    split_ifs
    · rfl
    · rw [List.map_cons, ih]

theorem checkOutcome_unheld {m : Match} {o : Outcome} :
    checkOutcome m.unheld o = .ok () ↔ checkOutcome m o = .ok () := by
  rw [checkOutcome_eq_ok_iff, checkOutcome_eq_ok_iff, Match.isResolved_unheld]
  rfl

end Arena

namespace Tournament

open Arena

/-- The tournament over another arena. -/
def withArena (t : Tournament) (ms : List Match) : Tournament := { t with arena := ms }

/-- The tournament as if there were no devices. -/
def unheld (t : Tournament) : Tournament := t.withArena (t.arena.map Match.unheld)

variable {t t' t₁ : Tournament} {m : Match} {o : Outcome}

theorem Takes.unheld (h : Takes t m o t₁) : Takes t.unheld m.unheld o t₁.unheld where
  mem := List.mem_map_of_mem h.mem
  check := checkOutcome_unheld.2 h.check
  settles := by
    change SettlesTo (Arena.modify m.id _ (t.arena.map Match.unheld)) (t₁.arena.map Match.unheld)
    rw [← map_unheld_withOutcome]
    exact h.settles.unheld
  tally := by
    change ({ t with arena := t.arena.map Match.unheld } : Tournament).tally
      (m.unheld.withOutcome o) = _
    rw [Match.withOutcome_unheld, tally_arena, h.tally]
    rfl

/-! ## What an advance looks at -/

/-- Match by match the same places, and the same matches resolved. -/
def Alike (as bs : List Match) : Prop :=
  List.Forall₂ (fun a b => b.stage = a.stage ∧ b.round = a.round ∧
    b.status.isResolved = a.status.isResolved) as bs

theorem alike_unheld (ms : List Match) : Alike ms (ms.map Match.unheld) := by
  rw [Alike, List.forall₂_map_right_iff]
  exact List.forall₂_same.2 fun m _ => ⟨rfl, rfl, m.isResolved_unheld⟩

section Alike

variable {as bs : List Match} (h : Alike as bs)

include h

theorem Alike.append (new : List Match) : Alike (as ++ new) (bs ++ new) :=
  List.rel_append h (List.forall₂_same.2 fun _ _ => ⟨rfl, rfl, rfl⟩)

theorem Alike.all_eq {p : Match → Bool} (hp : ∀ a b : Match, b.stage = a.stage →
    b.round = a.round → b.status.isResolved = a.status.isResolved → p b = p a) :
    bs.all p = as.all p := by
  induction h with
  | nil => rfl
  | cons hab _ ih => rw [List.all_cons, List.all_cons, hp _ _ hab.1 hab.2.1 hab.2.2, ih]

theorem Alike.isEmpty_eq : bs.isEmpty = as.isEmpty := by
  cases h <;> rfl

end Alike

/-- The same matches are appended to any arena. -/
theorem append_withArena {new : List Match} (ha : t.append new = .ok t') (as : List Match) :
    t'.arena = t.arena ++ new ∧ (t.withArena as).append new = .ok (t'.withArena (as ++ new)) := by
  unfold append at ha ⊢
  rcases hlast : new.getLast? with _ | last
  · rw [List.getLast?_eq_none_iff] at hlast
    subst hlast
    cases ha
    simp
  · rw [hlast] at ha
    obtain ⟨next, hnext, ha⟩ := bind_eq_ok.1 ha
    cases ha
    exact ⟨rfl, bind_eq_ok.2 ⟨next, hnext, rfl⟩⟩

theorem pairNextRound_eq {e : SwissEvent} (hs : t.swiss = some e) : t.pairNextRound =
    if e.totalRounds ≤ e.currentRound ∨ !t.roundResolved .main e.currentRound then .ok (t, [])
    else (do
      let ms ← Swiss.nextRound e.standings (e.currentRound + 1) t.nextMatchId .main
      let standings ← recordByes e.standings ms
      let t ← { t with
        swiss := some { e with standings, currentRound := e.currentRound + 1 } }.append ms
      .ok (t, [(.main, e.currentRound + 1)])) := by
  unfold pairNextRound
  rw [hs]

section Advance

variable {as : List Match} (h : Alike t.arena as)

include h

theorem roundResolved_alike (stage : Stage) (round : UInt32) :
    (t.withArena as).roundResolved stage round = t.roundResolved stage round :=
  h.all_eq fun a b hs hr hres => by rw [hs, hr, hres]

theorem stageResolved_alike (stage : Stage) :
    (t.withArena as).stageResolved stage = t.stageResolved stage :=
  h.all_eq fun a b hs hr hres => by rw [hs, hres]

theorem isOver_alike : (t.withArena as).isOver = t.isOver := by
  simp only [isOver, allStagesDone, withArena, h.isEmpty_eq, h.all_eq fun a b hs hr hres => hres]
  rfl

theorem pairNextRound_alike {rounds : List (Stage × UInt32)}
    (hp : t.pairNextRound = .ok (t', rounds)) : ∃ new, t'.arena = t.arena ++ new ∧
      (t.withArena as).pairNextRound = .ok (t'.withArena (as ++ new), rounds) := by
  rcases hs : t.swiss with _ | e
  · rw [pairNextRound_league hs] at hp
    cases hp
    exact ⟨[], by simp, by rw [pairNextRound_league (t := t.withArena as) hs, List.append_nil]⟩
  rw [pairNextRound_eq hs] at hp
  rw [pairNextRound_eq (t := t.withArena as) hs, roundResolved_alike h]
  split_ifs at hp ⊢ with hheld
  · cases hp
    exact ⟨[], by simp, by rw [List.append_nil]⟩
  obtain ⟨ms, hms, hp⟩ := bind_eq_ok.1 hp
  obtain ⟨standings, hbyes, hp⟩ := bind_eq_ok.1 hp
  obtain ⟨t₁, happ, hp⟩ := bind_eq_ok.1 hp
  cases hp
  obtain ⟨harena, happ⟩ := append_withArena happ as
  exact ⟨ms, harena, bind_eq_ok.2 ⟨ms, hms, bind_eq_ok.2 ⟨standings, hbyes,
    bind_eq_ok.2 ⟨_, happ, rfl⟩⟩⟩⟩

theorem drawFinals_alike {rounds : List (Stage × UInt32)}
    (hd : t.drawFinals = .ok (t', rounds)) : ∃ new, t'.arena = t.arena ++ new ∧
      (t.withArena as).drawFinals = .ok (t'.withArena (as ++ new), rounds) := by
  by_cases hfg : ∃ plan g, t.format = .groups plan ∧ t.groups = some g
  · obtain ⟨plan, g, hf, hg⟩ := hfg
    rw [drawFinals_eq hf hg] at hd
    rw [drawFinals_eq (t := t.withArena as) hf hg, stageResolved_alike h, stageResolved_alike h]
    split_ifs at hd ⊢
    · cases hd
      exact ⟨[], by simp, by rw [List.append_nil]⟩
    obtain ⟨ms, hms, hd⟩ := bind_eq_ok.1 hd
    obtain ⟨t₁, happ, hd⟩ := bind_eq_ok.1 hd
    cases hd
    obtain ⟨harena, happ⟩ := append_withArena happ as
    exact ⟨ms, harena, bind_eq_ok.2 ⟨ms, hms, bind_eq_ok.2 ⟨_, happ, rfl⟩⟩⟩
  · have hnone : ∀ {u : Tournament}, u.format = t.format → u.groups = t.groups →
        u.drawFinals = .ok (u, []) := fun {u} hf hg => by
      unfold drawFinals
      rw [hf, hg]
      split
      · exact absurd ⟨_, _, ‹_›, ‹_›⟩ hfg
      · rfl
    rw [hnone rfl rfl] at hd
    cases hd
    exact ⟨[], by simp, by rw [hnone (u := t.withArena as) rfl rfl, List.append_nil]⟩

/-- An advance generates the same matches behind an arena that looks alike. -/
theorem advance_alike {effects : Effects} (ha : t.advance = .done t' effects) :
    ∃ new, t'.arena = t.arena ++ new ∧
      (t.withArena as).advance = .done (t'.withArena (as ++ new)) effects := by
  unfold advance at ha ⊢
  rcases hp : t.pairNextRound with f | ⟨t₁, rounds⟩
  · rw [hp] at ha
    cases ha
  obtain ⟨new, hnew, hp'⟩ := pairNextRound_alike h hp
  have h₁ : Alike t₁.arena (as ++ new) := hnew ▸ h.append new
  rcases hd : t₁.drawFinals with f | ⟨t₂, finals⟩
  · simp only [hp, hd] at ha
    cases ha
  obtain ⟨new', hnew', hd'⟩ := drawFinals_alike h₁ hd
  have h₂ : Alike t₂.arena (as ++ new ++ new') := hnew' ▸ h₁.append new'
  have harena : t₂.arena = t.arena ++ (new ++ new') := by
    rw [hnew', hnew, List.append_assoc]
  simp only [hp, hd] at ha
  simp only [hp', hd', isOver_alike h₂]
  split_ifs at ha ⊢ <;> cases ha
  · exact ⟨new ++ new', harena, by rw [List.append_assoc]; rfl⟩
  · exact ⟨new ++ new', harena, by rw [List.append_assoc]⟩

end Advance

/-! ## Results -/

/-- A result sets the same in motion whether or not devices hold matches. -/
theorem Running.record_unheld (h : Running t) {id : MatchId} {effects : Effects}
    (hrec : t.record id o = .done t' effects) :
    t.unheld.record id o = .done t'.unheld effects := by
  have hc := h.sound.coherent
  have hok : (t.record id o).answer = .ok effects := by
    rw [hrec]
    rfl
  obtain ⟨m, t₁, hm, htakes⟩ := exists_takes hc hok
  obtain ⟨-, rfl⟩ := mem_of_find? hm
  have hadv := htakes.record hc
  rw [hrec] at hadv
  have hadv' := htakes.unheld.record hc.unheld
  obtain ⟨new, hnew, hsame⟩ := advance_alike (alike_unheld t₁.arena) hadv.symm
  -- what is generated is in nobody's hands
  have hfree : ∀ a ∈ new, a.unheld = a := fun a ha => by
    cases h.recorded m.id o with
    | refused f _ hr =>
      rw [hr] at hrec
      cases hrec
    | overflows _ _ _ _ hr =>
      rw [hrec] at hr
      cases hr
    | done _ ms _ _ _ _ _ hms hr hrun he =>
      rw [hrec] at hr
      cases hr
      obtain ⟨new', hnew', hfresh⟩ := he.arena
      have hlen : t₁.arena.length = ms.length :=
        htakes.settles.settles.length_eq.symm.trans hms.length_eq
      have hsplit : t₁.arena ++ new = ms ++ new' := hnew.symm.trans hnew'
      rw [(List.append_inj hsplit hlen).2] at ha
      exact (hfresh a ha).free.unheld
  change t.unheld.record m.unheld.id o = _
  rw [hadv', unheld, hsame, unheld, hnew, List.map_append, List.map_congr_left hfree, List.map_id']

end Tournament

end Tourney
