import Tourney.Proofs.Arena.Settling

/-!
# Results in a coherent arena

Between results an arena is coherent with no errand left. It then has a match that can be played
as long as any is unresolved (`Coherent.exists_ready`), and such a match may be handed out and taken
back (`Coherent.move`). An arena stays coherent when a coherent one is put behind it
(`Coherent.append`), and so is each of its stages (`Coherent.ofStage`).
-/

namespace Tourney

/-- How far results and devices change a match. -/
structure Match.Evolves (m m' : Match) : Prop where
  outline : m'.outline = m.outline
  seats : ∀ slot, m.seat slot ≠ {} → m'.seat slot = m.seat slot
  fixed : m.status.isResolved → m' = m

namespace Match

theorem Evolves.refl (m : Match) : m.Evolves m := ⟨rfl, fun _ _ => rfl, fun _ => rfl⟩

theorem Evolves.trans {a b c : Match} (h : a.Evolves b) (h' : b.Evolves c) : a.Evolves c where
  outline := h'.outline.trans h.outline
  seats slot hs := by
    rw [h'.seats slot (by rw [h.seats slot hs]; exact hs), h.seats slot hs]
  fixed ha := by
    obtain rfl := h.fixed ha
    exact h'.fixed ha

/-- The match in another status, with another device. -/
def move (m : Match) (status : MatchStatus) (device : Option DeviceId) : Match :=
  { m with status, device }

theorem atRest_move {m : Match} {s : MatchStatus} {d : Option DeviceId} (h : m.AtRest)
    (hready : m.isReady) (ho : m.status.isResolved = false) (hs : s.isResolved = false) :
    (m.move s d).AtRest := by
  have hwinner : m.winner = none := by
    unfold AtRest at h
    split at h
    · simp_all [MatchStatus.isResolved]
    · exact h.1
    · exact h.1
    · exact h.1
  unfold AtRest
  cases s with
  | complete => cases hs
  | skipped => cases hs
  | pending => exact ⟨hwinner, .inl hready⟩
  | assigned => exact ⟨hwinner, hready⟩
  | inProgress => exact ⟨hwinner, hready⟩
  | awaitingApproval => exact ⟨hwinner, hready⟩

theorem Follows.evolves {m m' : Match} (h : m.Follows m') : m.Evolves m' :=
  ⟨h.outline, h.seats, fun hr => h.fixed (.inl fun hp => by rw [hp] at hr; cases hr)⟩

end Match

namespace Arena

theorem evolves_refl (ms : List Match) : List.Forall₂ Match.Evolves ms ms :=
  List.forall₂_same.2 fun m _ => .refl m

theorem evolves_trans {as bs cs : List Match} (h : List.Forall₂ Match.Evolves as bs)
    (h' : List.Forall₂ Match.Evolves bs cs) : List.Forall₂ Match.Evolves as cs :=
  forall₂_trans h h' fun _ _ _ => Match.Evolves.trans

theorem map_outline_of_evolves {ms ms' : List Match} (h : List.Forall₂ Match.Evolves ms ms') :
    ms'.map Match.outline = ms.map Match.outline := by
  induction h with
  | nil => rfl
  | cons hab _ ih => rw [List.map_cons, List.map_cons, hab.outline, ih]

theorem evolves_filter {as bs : List Match} (h : List.Forall₂ Match.Evolves as bs) (s : Stage) :
    List.Forall₂ Match.Evolves (as.filter (·.stage = s)) (bs.filter (·.stage = s)) :=
  List.rel_filter (fun _ _ hm => by simp [Match.outline_stage hm.outline]) h

section Coherent

variable {ms : List Match}

theorem Coherent.atRest (h : Coherent ms []) {m : Match} (hm : m ∈ ms) : m.AtRest :=
  (h.rest m hm).resolve_right fun hu => by simp at hu

/-- A seat holds what the match that feeds it has sent. -/
theorem Coherent.seat_eq (h : Coherent ms []) {m m' : Match} (hm : m ∈ ms) (hm' : m' ∈ ms)
    {r : SeatRef} {s : Seat} (hl : (r, s) ∈ m.outputs) (hr : m'.id = r.id) :
    m'.seat r.slot = s :=
  (h.arrives m hm r s hl m' hm' hr).elim And.left fun hs => by simp [loads] at hs

theorem ready_of_seats {m : Match} (hr : m.AtRest) (ho : m.status.isResolved = false)
    (hs : ∀ slot, m.seat slot ≠ {}) : m.isReady := by
  unfold Match.AtRest at hr
  split at hr
  · simp_all [MatchStatus.isResolved]
  · simp_all [MatchStatus.isResolved]
  · refine hr.2.resolve_right ?_
    rintro ⟨slot, h⟩
    exact hs slot h
  · exact hr.2

/-- A match with an open seat waits for an unresolved match before it. -/
theorem Coherent.exists_feeder (h : Coherent ms []) {m : Match} (hm : m ∈ ms) {slot : Slot}
    (hs : m.seat slot = {}) :
    ∃ a ∈ ms, a.status.isResolved = false ∧ a.id.val < m.id.val ∧ ⟨m.id, slot⟩ ∈ a.targets := by
  obtain ⟨a, ha, hat⟩ := h.fed m hm slot hs
  refine ⟨a, ha, ?_, (h.wired.leads a ha _ hat).1, hat⟩
  by_contra hres
  have hres : a.status.isResolved := by simpa using hres
  have hsettled : ∀ p, ∃ q, a.sends p = .settled q := by
    intro p
    unfold Match.sends
    split
    · exact ⟨p, rfl⟩
    · exact ⟨none, rfl⟩
    · rename_i h1 h2
      cases hst : a.status <;> simp_all [MatchStatus.isResolved]
  obtain ⟨s, hl⟩ := Match.exists_mem_outputs hat
  have hseat := h.seat_eq ha hm hl rfl
  rw [hs] at hseat
  subst hseat
  simp only [Match.outputs, List.mem_append, List.mem_map, Prod.mk.injEq] at hl
  rcases hl with ⟨_, _, _, hopen⟩ | ⟨_, _, _, hopen⟩
  · obtain ⟨q, hq⟩ := hsettled a.winner
    exact Seat.settled_ne_open q (hq ▸ hopen)
  · obtain ⟨q, hq⟩ := hsettled a.dropped
    exact Seat.settled_ne_open q (hq ▸ hopen)

/-- As long as a match is unresolved, some unresolved match has both its players. -/
theorem Coherent.exists_ready (h : Coherent ms []) {m : Match} (hm : m ∈ ms)
    (ho : m.status.isResolved = false) :
    ∃ m' ∈ ms, m'.status.isResolved = false ∧ m'.isReady := by
  by_cases hs : ∀ slot, m.seat slot ≠ {}
  · exact ⟨m, hm, ho, ready_of_seats (h.atRest hm) ho hs⟩
  · obtain ⟨slot, hs⟩ := not_forall.1 hs
    obtain ⟨a, ha, hao, hlt, -⟩ := h.exists_feeder hm (not_not.1 hs)
    exact h.exists_ready ha hao
termination_by m.id.val.toNat
decreasing_by exact hlt

/-- A match may be looked at again at any time. -/
theorem Coherent.wake (h : Coherent ms []) {m : Match} (hm : m ∈ ms) :
    Coherent ms [.settle m.id] where
  wired := h.wired
  proper := h.proper
  rest a ha := .inl (h.atRest ha)
  arrives := h.arrives
  fed := h.fed
  sent := h.sent
  single := h.single
  settles id hmem := ⟨m, hm, (Errand.settle.inj (List.mem_singleton.1 hmem)).symm⟩
  resets id w l b hmem := by simp at hmem

/-! ## Recording a result -/

theorem checkOutcome_eq_ok_iff {m : Match} {o : Outcome} :
    checkOutcome m o = .ok () ↔
      m.status.isResolved = false ∧ m.isReady ∧ m.hasPlayer o.winner := by
  have hc : m.status.canBecome .complete = !m.status.isResolved := by cases m.status <;> rfl
  unfold checkOutcome
  rw [hc]
  cases m.status.isResolved <;> cases m.isReady <;> cases m.hasPlayer o.winner <;> simp

theorem atRest_withOutcome {m : Match} {o : Outcome} (h : checkOutcome m o = .ok ()) :
    (m.withOutcome o).AtRest := by
  obtain ⟨-, hr, hp⟩ := checkOutcome_eq_ok_iff.1 h
  exact ⟨⟨o.winner, rfl, hp⟩, fun slot => Match.isReady_ne_open (m := m) hr slot⟩

theorem evolves_modify_withOutcome (h : Coherent ms []) {m : Match} (hm : m ∈ ms) {o : Outcome}
    (ho : checkOutcome m o = .ok ()) :
    List.Forall₂ Match.Evolves ms (modify m.id (·.withOutcome o) ms) := by
  refine h.wired.ordered.forall₂_modify .refl hm ?_
  refine ⟨rfl, fun _ _ => rfl, fun hr => ?_⟩
  rw [(checkOutcome_eq_ok_iff.1 ho).1] at hr
  cases hr

/-! ## Handing matches out -/

/-- A match that can be played may be handed out and taken back. -/
theorem Coherent.move (h : Coherent ms []) {m : Match} (hm : m ∈ ms) (hready : m.isReady)
    (ho : m.status.isResolved = false) {f : Match → Match} {s : MatchStatus}
    {d : Option DeviceId} (hf : f m = m.move s d) (hs : s.isResolved = false) :
    Coherent (modify m.id f ms) [] ∧ List.Forall₂ Match.Evolves ms (modify m.id f ms) := by
  have hmem : ∀ a, a ∈ modify m.id f ms ↔ a = f m ∨ a ∈ ms ∧ a.id ≠ m.id :=
    fun a => h.wired.ordered.mem_modify hm
  have hseat : ∀ slot, (f m).seat slot = m.seat slot := fun slot => by
    rw [hf]
    cases slot <;> rfl
  have hout : (f m).outputs = m.outputs := by
    rw [hf]
    simp only [Match.outputs, Match.sends_of_unresolved ho,
      Match.sends_of_unresolved (m := m.move s d) hs]
    rfl
  have houtl : (f m).outline = m.outline := by
    rw [hf]
    rfl
  constructor
  · refine h.change hm houtl (fun slot => ?_) (fun slot hopen => ?_) (.inl ?_) (by simp)
      (fun a' ha' r v hl b hb hbr => ?_) (by simp [loads]) (by simp [loads]) (by simp) (by simp)
    · rw [hseat]
      exact h.proper m hm slot
    · rwa [← hseat]
    · rw [hf]
      exact Match.atRest_move (h.atRest hm) hready ho hs
    · obtain ⟨a, ha, hl⟩ : ∃ a ∈ ms, (r, v) ∈ a.outputs := by
        rcases (hmem a').1 ha' with rfl | ⟨ha, -⟩
        · exact ⟨m, hm, hout ▸ hl⟩
        · exact ⟨a', ha, hl⟩
      rcases (hmem b).1 hb with rfl | ⟨hb, -⟩
      · rw [hseat]
        exact h.arrives a ha r v hl m hm ((Match.outline_id houtl).symm.trans hbr)
      · exact h.arrives a ha r v hl b hb hbr
  · refine h.wired.ordered.forall₂_modify .refl hm ?_
    refine ⟨houtl, fun slot _ => hseat slot, fun hr => ?_⟩
    rw [ho] at hr
    cases hr

/-! ## Putting arenas together -/

/-- An arena in which nothing has happened yet is coherent, with the matches that are not at rest
still to be settled. -/
theorem Coherent.of_fresh {ids : List MatchId} (hw : Wired ms) (hfresh : ∀ m ∈ ms, m.Unsettled)
    (hproper : ∀ m ∈ ms, ∀ slot, (m.seat slot).Proper)
    (hopen : ∀ m ∈ ms, ∀ r ∈ m.targets, ∀ m' ∈ ms, m'.id = r.id → m'.seat r.slot = {})
    (hfed : ∀ m ∈ ms, ∀ slot, m.seat slot = {} → ∃ m' ∈ ms, ⟨m.id, slot⟩ ∈ m'.targets)
    (hrest : ∀ m ∈ ms, m.AtRest ∨ m.id ∈ ids) (hids : ∀ id ∈ ids, ∃ m ∈ ms, m.id = id) :
    Coherent ms (ids.map .settle) := by
  have hloads : loads (ids.map .settle) = [] := by
    refine List.flatMap_eq_nil_iff.2 fun e he => ?_
    obtain ⟨id, -, rfl⟩ := List.mem_map.1 he
    rfl
  refine ⟨hw, hproper, ?_, ?_, hfed, by simp [hloads], by simp [hloads], ?_, by simp⟩
  · intro m hm
    refine (hrest m hm).imp_right fun hid => ⟨hfresh m hm, List.mem_map_of_mem hid⟩
  · intro m hm r s hl m' hm' hr
    have hun : m.status.isResolved = false := by rw [(hfresh m hm).1]; rfl
    rw [Match.outputs_of_unresolved hun hl, hloads]
    exact .inl ⟨hopen m hm r (Match.mem_targets_of_mem_outputs hl) m' hm' hr, by simp⟩
  · intro id hmem
    obtain ⟨id', hid', heq⟩ := List.mem_map.1 hmem
    exact hids id (by rw [← Errand.settle.inj heq]; exact hid')

/-- Matches that lead nowhere, with both seats settled, make a coherent arena. -/
theorem Coherent.of_apart {ids : List MatchId} (ho : Ordered ms)
    (htargets : ∀ m ∈ ms, m.targets = []) (hgf : ∀ m ∈ ms, m.isGrandFinal = false)
    (hfresh : ∀ m ∈ ms, m.Unsettled) (hseat : ∀ m ∈ ms, ∀ slot, ∃ p, m.seat slot = .settled p)
    (hrest : ∀ m ∈ ms, m.AtRest ∨ m.id ∈ ids) (hids : ∀ id ∈ ids, ∃ m ∈ ms, m.id = id) :
    Coherent ms (ids.map .settle) := by
  refine .of_fresh ⟨ho, ?_, ?_, ?_⟩ hfresh ?_ ?_ ?_ hrest hids
  · intro m hm r hr
    simp [htargets m hm] at hr
  · rw [List.flatMap_eq_nil_iff.2 htargets]
    exact List.nodup_nil
  · intro m hm hg
    rw [hgf m hm] at hg
    cases hg
  · intro m hm slot
    obtain ⟨p, hp⟩ := hseat m hm slot
    rw [hp]
    exact Seat.proper_settled p
  · intro m hm r hr
    simp [htargets m hm] at hr
  · intro m hm slot hs
    obtain ⟨p, hp⟩ := hseat m hm slot
    rw [hp] at hs
    exact absurd hs (Seat.settled_ne_open p)

variable {ms' : List Match}

theorem Wired.append (h : Wired ms) (h' : Wired ms')
    (hlt : ∀ a ∈ ms, ∀ b ∈ ms', a.id.val < b.id.val) : Wired (ms ++ ms') where
  ordered := List.pairwise_append.2 ⟨h.ordered, h'.ordered, hlt⟩
  leads := by
    intro m hm r hr
    rcases List.mem_append.1 hm with hm | hm
    · obtain ⟨hl, a, ha, har⟩ := h.leads m hm r hr
      exact ⟨hl, a, List.mem_append_left _ ha, har⟩
    · obtain ⟨hl, a, ha, har⟩ := h'.leads m hm r hr
      exact ⟨hl, a, List.mem_append_right _ ha, har⟩
  apart := by
    rw [List.flatMap_append, List.nodup_append]
    refine ⟨h.apart, h'.apart, fun r hr r' hr' heq => ?_⟩
    subst heq
    obtain ⟨a, ha, har⟩ := List.mem_flatMap.1 hr
    obtain ⟨b, hb, hbr⟩ := List.mem_flatMap.1 hr'
    obtain ⟨-, a', ha', hai, -⟩ := h.leads a ha r har
    obtain ⟨-, b', hb', hbi, -⟩ := h'.leads b hb r hbr
    have := hlt a' ha' b' hb'
    rw [hai, hbi] at this
    exact UInt32.lt_irrefl _ this
  grandFinal := by
    intro m hm hg
    rcases List.mem_append.1 hm with hm | hm
    · obtain ⟨id, hn, hl, hend⟩ := h.grandFinal m hm hg
      refine ⟨id, hn, hl, fun a ha hai => ?_⟩
      rcases List.mem_append.1 ha with ha | ha
      · exact hend a ha hai
      · obtain ⟨-, b, hb, hbi, -⟩ := h.leads m hm ⟨id, .first⟩ (by simp [Match.targets, hn])
        have := hlt b hb a ha
        rw [hbi, hai] at this
        exact absurd this (UInt32.lt_irrefl _)
    · obtain ⟨id, hn, hl, hend⟩ := h'.grandFinal m hm hg
      refine ⟨id, hn, hl, fun a ha hai => ?_⟩
      rcases List.mem_append.1 ha with ha | ha
      · obtain ⟨-, b, hb, hbi, -⟩ := h'.leads m hm ⟨id, .first⟩ (by simp [Match.targets, hn])
        have := hlt a ha b hb
        rw [hbi, hai] at this
        exact absurd this (UInt32.lt_irrefl _)
      · exact hend a ha hai

theorem Coherent.append (h : Coherent ms []) (h' : Coherent ms' [])
    (hlt : ∀ a ∈ ms, ∀ b ∈ ms', a.id.val < b.id.val) : Coherent (ms ++ ms') [] := by
  have hw := h.wired.append h'.wired hlt
  refine ⟨hw, ?_, ?_, ?_, ?_, by simp [loads], by simp [loads], by simp, by simp⟩
  · exact List.forall_mem_append.2 ⟨h.proper, h'.proper⟩
  · exact List.forall_mem_append.2 ⟨fun m hm => .inl (h.atRest hm), fun m hm => .inl (h'.atRest hm)⟩
  · refine List.forall_mem_append.2 ⟨fun m hm r s hl => ?_, fun m hm r s hl => ?_⟩
    · obtain ⟨-, a, ha, hai, -⟩ := h.wired.leads m hm r (Match.mem_targets_of_mem_outputs hl)
      intro b hb hbi
      rw [hw.ordered.eq_of_id_eq hb (List.mem_append_left _ ha) (hbi.trans hai.symm)]
      exact h.arrives m hm r s hl a ha hai
    · obtain ⟨-, a, ha, hai, -⟩ := h'.wired.leads m hm r (Match.mem_targets_of_mem_outputs hl)
      intro b hb hbi
      rw [hw.ordered.eq_of_id_eq hb (List.mem_append_right _ ha) (hbi.trans hai.symm)]
      exact h'.arrives m hm r s hl a ha hai
  · refine List.forall_mem_append.2 ⟨fun m hm slot hs => ?_, fun m hm slot hs => ?_⟩
    · obtain ⟨a, ha, hat⟩ := h.fed m hm slot hs
      exact ⟨a, List.mem_append_left _ ha, hat⟩
    · obtain ⟨a, ha, hat⟩ := h'.fed m hm slot hs
      exact ⟨a, List.mem_append_right _ ha, hat⟩

/-- The matches of a stage make an arena of their own. -/
theorem Coherent.ofStage (h : Coherent ms []) (s : Stage) :
    Coherent (ms.filter (·.stage = s)) [] := by
  have hmem : ∀ m, m ∈ ms.filter (·.stage = s) ↔ m ∈ ms ∧ m.stage = s := by simp
  have hsub : (ms.filter (·.stage = s)).Sublist ms := List.filter_sublist
  refine ⟨⟨h.wired.ordered.sublist hsub, ?_, ?_, ?_⟩, ?_, ?_, ?_, ?_, by simp [loads],
    by simp [loads], by simp, by simp⟩
  · intro m hm r hr
    obtain ⟨hm, hs⟩ := (hmem m).1 hm
    obtain ⟨hlt, a, ha, hai, has⟩ := h.wired.leads m hm r hr
    exact ⟨hlt, a, (hmem a).2 ⟨ha, has.trans hs⟩, hai, has⟩
  · obtain ⟨hnd, hpw⟩ := List.nodup_flatMap.1 h.wired.apart
    exact List.nodup_flatMap.2 ⟨fun m hm => hnd m (hsub.subset hm), hpw.sublist hsub⟩
  · intro m hm hg
    obtain ⟨id, hn, hl, hend⟩ := h.wired.grandFinal m ((hmem m).1 hm).1 hg
    exact ⟨id, hn, hl, fun a ha => hend a ((hmem a).1 ha).1⟩
  · exact fun m hm => h.proper m ((hmem m).1 hm).1
  · exact fun m hm => .inl (h.atRest ((hmem m).1 hm).1)
  · exact fun m hm r v hl a ha hai =>
      h.arrives m ((hmem m).1 hm).1 r v hl a ((hmem a).1 ha).1 hai
  · intro m hm slot hopen
    obtain ⟨hm, hs⟩ := (hmem m).1 hm
    obtain ⟨a, ha, hat⟩ := h.fed m hm slot hopen
    refine ⟨a, (hmem a).2 ⟨ha, ?_⟩, hat⟩
    obtain ⟨-, b, hb, hbi, hbs⟩ := h.wired.leads a ha _ hat
    rw [← hbs, h.wired.ordered.eq_of_id_eq hb hm hbi, hs]

end Coherent

end Arena

end Tourney
