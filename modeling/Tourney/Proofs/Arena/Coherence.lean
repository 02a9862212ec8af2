import Tourney.Proofs.Arena.Wiring

/-!
# Coherent arenas

In a coherent arena every seat that a match feeds holds what that match has sent, or still waits
for the errand that brings it, and every match that has nothing left to settle is at rest. One
errand keeps an arena coherent with the errands that follow it (`Coherent.perform`), since
resolving a match hands its outputs to new errands (`Coherent.resolve`) and seating a player
delivers one of them.
-/

namespace Tourney

namespace Seat

/-- A vacant seat holds no player. -/
def Proper (s : Seat) : Prop := s.vacant = true → s.player = none

theorem settled_ne_open (p : Option Player) : settled p ≠ {} := by
  cases p <;> simp [settled]

theorem proper_settled (p : Option Player) : (settled p).Proper := by
  cases p <;> simp [settled, Proper]

theorem Proper.cases {s : Seat} (h : s.Proper) :
    s = {} ∨ s = .settled none ∨ ∃ p, s = .settled (some p) := by
  obtain ⟨_ | p, v⟩ := s
  · cases v
    · exact .inl rfl
    · exact .inr (.inl rfl)
  · cases v
    · exact .inr (.inr ⟨p, rfl⟩)
    · exact absurd (h rfl) (by simp)

end Seat

namespace Match

/-- What a match puts into a seat it feeds, if `player` goes there from a complete match. -/
def sends (m : Match) (player : Option Player) : Seat :=
  match m.status with
  | .complete => .settled player
  | .skipped => .settled none
  | _ => {}

/-- Who leaves a complete match by the loser's pointer: nobody if the first seat took a grand
final, so that the reset is won without play. -/
def dropped (m : Match) : Option Player :=
  if m.isGrandFinal ∧ m.winnerSlot = some .first then none else m.loser

/-- The seats a match feeds, and what they get from it so far. -/
def outputs (m : Match) : List (SeatRef × Seat) :=
  m.next.toList.map (·, m.sends m.winner) ++ m.loserNext.toList.map (·, m.sends m.dropped)

theorem map_fst_outputs (m : Match) : m.outputs.map Prod.fst = m.targets := by
  simp [outputs, targets, Function.comp_def]

theorem mem_targets_of_mem_outputs {m : Match} {r : SeatRef} {s : Seat} (h : (r, s) ∈ m.outputs) :
    r ∈ m.targets :=
  map_fst_outputs m ▸ List.mem_map_of_mem (f := Prod.fst) h

theorem exists_mem_outputs {m : Match} {r : SeatRef} (h : r ∈ m.targets) :
    ∃ s, (r, s) ∈ m.outputs := by
  rw [← map_fst_outputs] at h
  obtain ⟨⟨r', s⟩, hl, rfl⟩ := List.mem_map.1 h
  exact ⟨s, hl⟩

theorem sends_of_unresolved {m : Match} (h : m.status.isResolved = false) (p : Option Player) :
    m.sends p = {} := by
  unfold sends
  split <;> simp_all [MatchStatus.isResolved]

theorem outputs_of_unresolved {m : Match} (h : m.status.isResolved = false) {r : SeatRef}
    {s : Seat} (hl : (r, s) ∈ m.outputs) : s = {} := by
  simp only [outputs, sends_of_unresolved h, List.mem_append, List.mem_map, Prod.mk.injEq] at hl
  rcases hl with ⟨_, _, _, rfl⟩ | ⟨_, _, _, rfl⟩ <;> rfl

/-- Nothing happens to the match by itself: it is resolved, or has two players, or waits for one. -/
def AtRest (m : Match) : Prop :=
  match m.status with
  | .complete => (∃ w, m.winner = some w ∧ m.hasPlayer w) ∧ ∀ slot, m.seat slot ≠ {}
  | .skipped => m.winner = none ∧ ∀ slot, m.seat slot = .settled none
  | .pending => m.winner = none ∧ (m.isReady ∨ ∃ slot, m.seat slot = {})
  | _ => m.winner = none ∧ m.isReady

/-- The match may have become a bye or empty, and has to be looked at. -/
def Unsettled (m : Match) : Prop := m.status = .pending ∧ m.winner = none

theorem isReady_ne_open {m : Match} (h : m.isReady) (slot : Slot) : m.seat slot ≠ {} := by
  simp only [isReady, player1, player2, Bool.and_eq_true] at h
  cases slot <;> intro hs <;> simp_all [seat]

/-- A match that waits for a player is pending. -/
theorem AtRest.unsettled {m : Match} (h : m.AtRest) {slot : Slot} (hs : m.seat slot = {}) :
    m.Unsettled := by
  unfold AtRest at h
  split at h
  · exact absurd hs (h.2 slot)
  · rw [h.2 slot] at hs
    exact absurd hs (Seat.settled_ne_open none)
  · exact ⟨‹_›, h.1⟩
  · exact absurd hs (isReady_ne_open h.2 slot)

end Match

namespace Arena

/-! ## What errands carry -/

/-- The seats an errand is to fill, and what it puts there. -/
def Errand.loads : Errand → List (SeatRef × Seat)
  | .settle _ => []
  | .seat target player => [(target, .settled player)]
  | .reset id winner loser fromFirst =>
    [(⟨id, .first⟩, .settled (some winner)),
      (⟨id, .second⟩, .settled (if fromFirst then none else loser))]

def loads (es : List Errand) : List (SeatRef × Seat) := es.flatMap Errand.loads

theorem loads_cons (e : Errand) (es : List Errand) : loads (e :: es) = e.loads ++ loads es := rfl

theorem loads_append (es es' : List Errand) : loads (es ++ es') = loads es ++ loads es' :=
  List.flatMap_append ..

theorem ne_open_of_mem_loads {es : List Errand} {r : SeatRef} {s : Seat} (h : (r, s) ∈ loads es) :
    s ≠ {} := by
  obtain ⟨e, -, he⟩ := List.mem_flatMap.1 h
  cases e with
  | settle id => simp [Errand.loads] at he
  | seat target player =>
    simp only [Errand.loads, List.mem_singleton, Prod.mk.injEq] at he
    exact he.2 ▸ Seat.settled_ne_open _
  | reset id w l b =>
    simp only [Errand.loads, List.mem_cons, Prod.mk.injEq, List.not_mem_nil, or_false] at he
    rcases he with ⟨-, rfl⟩ | ⟨-, rfl⟩ <;> exact Seat.settled_ne_open _

/-- A seat holds `s`, or is open while an errand carries `s` to it. -/
def Arrives (ms : List Match) (es : List Errand) (r : SeatRef) (s : Seat) : Prop :=
  ∀ m ∈ ms, m.id = r.id →
    (m.seat r.slot = s ∧ r ∉ (loads es).map Prod.fst) ∨ (m.seat r.slot = {} ∧ (r, s) ∈ loads es)

structure Coherent (ms : List Match) (es : List Errand) : Prop where
  wired : Wired ms
  proper : ∀ m ∈ ms, ∀ slot, (m.seat slot).Proper
  rest : ∀ m ∈ ms, m.AtRest ∨ m.Unsettled ∧ .settle m.id ∈ es
  arrives : ∀ m ∈ ms, ∀ r s, (r, s) ∈ m.outputs → Arrives ms es r s
  /-- An open seat is fed by some match. -/
  fed : ∀ m ∈ ms, ∀ slot, m.seat slot = {} → ∃ m' ∈ ms, ⟨m.id, slot⟩ ∈ m'.targets
  /-- Every load was sent by a match, and each seat gets one. -/
  sent : ∀ l ∈ loads es, ∃ m ∈ ms, l ∈ m.outputs
  single : ((loads es).map Prod.fst).Nodup
  settles : ∀ id, .settle id ∈ es → ∃ m ∈ ms, m.id = id
  resets : ∀ id w l b, .reset id w l b ∈ es → ∀ m ∈ ms, m.id = id → m.targets = []

/-! ## Changing a match -/

section Change

variable {ms : List Match} {e : Errand} {es es' new : List Errand} {m : Match} {f : Match → Match}

/-- An arena in which one match changes, and the errands with it, is coherent if that match is in
order and what has been sent still arrives. -/
theorem Coherent.change (h : Coherent ms es) (hm : m ∈ ms) (hout : (f m).outline = m.outline)
    (hproper : ∀ slot, ((f m).seat slot).Proper)
    (hopen : ∀ slot, (f m).seat slot = {} → m.seat slot = {})
    (hrest : (f m).AtRest ∨ (f m).Unsettled ∧ .settle m.id ∈ es')
    (hothers : ∀ id, id ≠ m.id → .settle id ∈ es → .settle id ∈ es')
    (harrives : ∀ a ∈ modify m.id f ms, ∀ r s, (r, s) ∈ a.outputs →
      Arrives (modify m.id f ms) es' r s)
    (hsent : ∀ l ∈ loads es', ∃ a ∈ modify m.id f ms, l ∈ a.outputs)
    (hsingle : ((loads es').map Prod.fst).Nodup)
    (hsettles : ∀ id, .settle id ∈ es' → ∃ a ∈ ms, a.id = id)
    (hresets : ∀ id w l b, .reset id w l b ∈ es' → ∀ a ∈ ms, a.id = id → a.targets = []) :
    Coherent (modify m.id f ms) es' := by
  have hmem : ∀ a, a ∈ modify m.id f ms ↔ a = f m ∨ a ∈ ms ∧ a.id ≠ m.id :=
    fun a => h.wired.ordered.mem_modify hm
  have houtl : (modify m.id f ms).map Match.outline = ms.map Match.outline :=
    map_outline_modify fun a ha hid => by rw [h.wired.ordered.eq_of_id_eq ha hm hid, hout]
  refine ⟨h.wired.of_outlines houtl, fun a ha => ?_, fun a ha => ?_, harrives,
    fun a ha slot hs => ?_, hsent, hsingle, fun id hset => ?_,
    fun id w l b hres a' ha' hid => ?_⟩
  · rcases (hmem a).1 ha with rfl | ⟨ha, -⟩
    · exact hproper
    · exact h.proper a ha
  · rcases (hmem a).1 ha with rfl | ⟨ha, hne⟩
    · rwa [Match.outline_id hout]
    · exact (h.rest a ha).imp_right fun ⟨hu, hset⟩ => ⟨hu, hothers a.id hne hset⟩
  · obtain ⟨a₀, ha₀, hid, hs₀⟩ : ∃ a₀ ∈ ms, a₀.id = a.id ∧ a₀.seat slot = {} := by
      rcases (hmem a).1 ha with rfl | ⟨ha, -⟩
      · exact ⟨m, hm, (Match.outline_id hout).symm, hopen slot hs⟩
      · exact ⟨a, ha, rfl, hs⟩
    obtain ⟨b, hb, hbt⟩ := h.fed a₀ ha₀ slot hs₀
    obtain ⟨b', hb', ho⟩ := mem_map_outline houtl.symm hb
    exact ⟨b', hb', by rw [← Match.outline_targets ho, ← hid]; exact hbt⟩
  · obtain ⟨a, ha, rfl⟩ := hsettles id hset
    obtain ⟨a', ha', ho⟩ := mem_map_outline houtl.symm ha
    exact ⟨a', ha', (Match.outline_id ho).symm⟩
  · obtain ⟨a, ha, ho⟩ := mem_map_outline houtl ha'
    rw [Match.outline_targets ho]
    exact hresets id w l b hres a ha (by rw [← Match.outline_id ho, hid])

/-! ### Resolving a match -/

theorem Coherent.not_mem_loads (h : Coherent ms es) (hm : m ∈ ms)
    (hopen : m.status.isResolved = false) {r : SeatRef} (hr : r ∈ m.targets) :
    r ∉ (loads es).map Prod.fst := by
  intro hc
  obtain ⟨⟨r', s⟩, hl, rfl⟩ := List.mem_map.1 hc
  obtain ⟨a, ha, hla⟩ := h.sent _ hl
  have := h.wired.eq_of_target hm ha hr (Match.mem_targets_of_mem_outputs hla)
  subst this
  exact ne_open_of_mem_loads hl (Match.outputs_of_unresolved hopen hla)

/-- A match that is resolved leaves an arena coherent with errands that carry its outputs. -/
theorem Coherent.resolve (h : Coherent ms (.settle m.id :: es)) (hm : m ∈ ms)
    (hopen : m.status.isResolved = false) (hout : (f m).outline = m.outline)
    (hseat : ∀ slot, (f m).seat slot = m.seat slot) (hrest : (f m).AtRest)
    (hloads : loads new = (f m).outputs) (hsettle : ∀ id, .settle id ∉ new)
    (hreset : ∀ id w l b, .reset id w l b ∈ new → ∀ a ∈ ms, a.id = id → a.targets = []) :
    Coherent (modify m.id f ms) (new ++ es) := by
  have hmem : ∀ a, a ∈ modify m.id f ms ↔ a = f m ∨ a ∈ ms ∧ a.id ≠ m.id :=
    fun a => h.wired.ordered.mem_modify hm
  have hfst : (loads new).map Prod.fst = m.targets := by
    rw [hloads, Match.map_fst_outputs, Match.outline_targets hout]
  refine h.change hm hout (fun slot => ?_) (fun slot hs => ?_) (.inl hrest) (fun id hne hset => ?_)
    (fun a ha r s hl b hb hbr => ?_) ?_ ?_ (fun id hset => ?_) fun id w l b hres a ha hid => ?_
  · rw [hseat]
    exact h.proper m hm slot
  · rwa [← hseat]
  · exact List.mem_append_right _ (by simpa [hne] using hset)
  · obtain ⟨b₀, hb₀, hbr₀, hs₀⟩ : ∃ b₀ ∈ ms, b₀.id = r.id ∧ b.seat r.slot = b₀.seat r.slot := by
      rcases (hmem b).1 hb with rfl | ⟨hb, -⟩
      · exact ⟨m, hm, (Match.outline_id hout).symm.trans hbr, hseat _⟩
      · exact ⟨b, hb, hbr, rfl⟩
    rw [hs₀, loads_append, List.map_append, hfst]
    rcases (hmem a).1 ha with rfl | ⟨ha, hne⟩
    · -- an output of the match itself: the seat was open, and is now carried for
      have hr : r ∈ m.targets := by
        rw [← Match.outline_targets hout]
        exact Match.mem_targets_of_mem_outputs hl
      obtain ⟨s₀, hl₀⟩ := Match.exists_mem_outputs hr
      rcases h.arrives m hm r s₀ hl₀ b₀ hb₀ hbr₀ with ⟨hs, -⟩ | ⟨-, hc⟩
      · rw [Match.outputs_of_unresolved hopen hl₀] at hs
        exact .inr ⟨hs, List.mem_append_left _ (hloads ▸ hl)⟩
      · exact absurd (List.mem_map_of_mem hc) (h.not_mem_loads hm hopen hr)
    · have hr : r ∉ m.targets := fun hrm => hne <| by
        rw [h.wired.eq_of_target ha hm (Match.mem_targets_of_mem_outputs hl) hrm]
      rcases h.arrives a ha r s hl b₀ hb₀ hbr₀ with ⟨hs, hn⟩ | ⟨hs, hc⟩
      · exact .inl ⟨hs, fun hc => (List.mem_append.1 hc).elim hr hn⟩
      · exact .inr ⟨hs, List.mem_append_right _ hc⟩
  · rw [loads_append, hloads]
    intro l hl
    rcases List.mem_append.1 hl with hl | hl
    · exact ⟨f m, (hmem _).2 (.inl rfl), hl⟩
    · obtain ⟨a, ha, hla⟩ := h.sent l hl
      refine ⟨a, (hmem a).2 (.inr ⟨ha, fun hid => ?_⟩), hla⟩
      rw [h.wired.ordered.eq_of_id_eq ha hm hid] at hla
      exact h.not_mem_loads hm hopen (Match.mem_targets_of_mem_outputs (s := l.2) hla)
        (List.mem_map_of_mem hl)
  · rw [loads_append, List.map_append, hfst, List.nodup_append]
    refine ⟨h.wired.targets_nodup hm, h.single, fun r hr r' hr' heq => ?_⟩
    subst heq
    exact h.not_mem_loads hm hopen hr hr'
  · rcases List.mem_append.1 hset with hset | hset
    · exact absurd hset (hsettle id)
    · exact h.settles id (List.mem_cons_of_mem _ hset)
  · rcases List.mem_append.1 hres with hres | hres
    · exact hreset id w l b hres a ha hid
    · exact h.resets id w l b (List.mem_cons_of_mem _ hres) a ha hid

/-! ### Delivering an errand -/

theorem Coherent.load_unique (h : Coherent ms es) {r : SeatRef} {s s' : Seat}
    (hs : (r, s) ∈ loads es) (hs' : (r, s') ∈ loads es) : s = s' :=
  congrArg Prod.snd (List.inj_on_of_nodup_map h.single hs hs' rfl)

/-- Filling the seats of an errand in an unsettled match leaves an arena coherent with the errands
that follow, once the match is at rest or to be looked at again. -/
theorem Coherent.deliver (h : Coherent ms (e :: es)) (hm : m ∈ ms) (he : ∀ id, e ≠ .settle id)
    (hout : (f m).outline = m.outline) (hsame : (f m).outputs = m.outputs)
    (hrefs : ∀ l ∈ e.loads, l.1.id = m.id)
    (hseat : ∀ slot, (⟨m.id, slot⟩, (f m).seat slot) ∈ e.loads ∨
      ⟨m.id, slot⟩ ∉ e.loads.map Prod.fst ∧ (f m).seat slot = m.seat slot)
    (hproper : ∀ slot, ((f m).seat slot).Proper)
    (hrest : (f m).AtRest ∨ (f m).Unsettled ∧ .settle m.id ∈ new)
    (hnew : ∀ e' ∈ new, e' = .settle m.id) : Coherent (modify m.id f ms) (new ++ es) := by
  have hmem : ∀ a, a ∈ modify m.id f ms ↔ a = f m ∨ a ∈ ms ∧ a.id ≠ m.id :=
    fun a => h.wired.ordered.mem_modify hm
  have hnil : loads new = [] := List.flatMap_eq_nil_iff.2 fun e' he' => by rw [hnew e' he']; rfl
  have hloads : loads (new ++ es) = loads es := by rw [loads_append, hnil, List.nil_append]
  have hsingle := h.single
  rw [loads_cons, List.map_append, List.nodup_append] at hsingle
  refine h.change hm hout hproper (fun slot hs => ?_)
    (hrest.imp_right fun ⟨hu, hset⟩ => ⟨hu, List.mem_append_left _ hset⟩) (fun id hne hset => ?_)
    (fun a' ha' r s hl b hb hbr => ?_) (fun l hl => ?_) (hloads ▸ hsingle.2.1) (fun id hset => ?_)
    fun id w l b hres a ha hid => ?_
  · rcases hseat slot with hl | ⟨-, heq⟩
    · exact absurd hs (@ne_open_of_mem_loads [e] _ _ (by simpa [loads] using hl))
    · rw [← heq, hs]
  · exact List.mem_append_right _ ((List.mem_cons.1 hset).resolve_left fun heq => he _ heq.symm)
  · obtain ⟨a, ha, hl⟩ : ∃ a ∈ ms, (r, s) ∈ a.outputs := by
      rcases (hmem a').1 ha' with rfl | ⟨ha, -⟩
      · exact ⟨m, hm, hsame ▸ hl⟩
      · exact ⟨a', ha, hl⟩
    rw [hloads]
    have hold := h.arrives a ha r s hl
    unfold Arrives at hold
    simp only [loads_cons, List.map_append, List.mem_append, not_or] at hold
    rcases (hmem b).1 hb with rfl | ⟨hb, hne⟩
    · obtain ⟨id, slot⟩ := r
      obtain rfl : m.id = id := (Match.outline_id hout).symm.trans hbr
      rcases hseat slot with hs | ⟨hn, hs⟩
      · have hin : (⟨m.id, slot⟩ : SeatRef) ∈ e.loads.map Prod.fst := List.mem_map_of_mem hs
        rcases hold m hm rfl with ⟨-, hn, -⟩ | ⟨-, hl'⟩
        · exact absurd hin hn
        · refine .inl ⟨?_, fun hn => hsingle.2.2 _ hin _ hn rfl⟩
          exact h.load_unique (List.mem_append_left _ hs) (List.mem_append.2 hl')
      · rw [hs]
        rcases hold m hm rfl with ⟨hs', -, hn'⟩ | ⟨hs', hl' | hl'⟩
        · exact .inl ⟨hs', hn'⟩
        · exact absurd (List.mem_map_of_mem hl') hn
        · exact .inr ⟨hs', hl'⟩
    · rcases hold b hb hbr with ⟨hs, -, hn⟩ | ⟨hs, hl' | hl'⟩
      · exact .inl ⟨hs, hn⟩
      · exact absurd (hbr.trans (hrefs _ hl')) hne
      · exact .inr ⟨hs, hl'⟩
  · rw [hloads] at hl
    obtain ⟨a, ha, hla⟩ := h.sent l (List.mem_append_right _ hl)
    by_cases hid : a.id = m.id
    · rw [h.wired.ordered.eq_of_id_eq ha hm hid, ← hsame] at hla
      exact ⟨f m, (hmem _).2 (.inl rfl), hla⟩
    · exact ⟨a, (hmem a).2 (.inr ⟨ha, hid⟩), hla⟩
  · rcases List.mem_append.1 hset with hset | hset
    · cases hnew _ hset
      exact ⟨m, hm, rfl⟩
    · exact h.settles id (List.mem_cons_of_mem _ hset)
  · rcases List.mem_append.1 hres with hres | hres
    · cases hnew _ hres
    · exact h.resets id w l b (List.mem_cons_of_mem _ hres) a ha hid

end Change

end Arena

end Tourney
