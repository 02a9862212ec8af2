import Tourney.Proofs.Arena.Coherence
import Tourney.Proofs.Except

/-!
# Settling an arena

On a coherent arena every errand can be done and leaves a coherent arena with the errands that
follow (`Coherent.perform`). Of the matches it changes each only goes on from where it was
(`Match.Follows`): one that is resolved, with a device or ready to be played stays as it is.
-/

namespace Tourney

/-- How far settling changes a match. -/
structure Match.Follows (m m' : Match) : Prop where
  outline : m'.outline = m.outline
  figures : m'.figures = m.figures
  device : m'.device = m.device
  seats : ∀ slot, m.seat slot ≠ {} → m'.seat slot = m.seat slot
  fixed : m.status ≠ .pending ∨ m.isReady → m' = m
  status : m'.status = m.status ∨ m'.status.isResolved

namespace Match

theorem Follows.refl (m : Match) : m.Follows m :=
  ⟨rfl, rfl, rfl, fun _ _ => rfl, fun _ => rfl, .inl rfl⟩

theorem Follows.trans {a b c : Match} (h : a.Follows b) (h' : b.Follows c) : a.Follows c where
  outline := h'.outline.trans h.outline
  figures := h'.figures.trans h.figures
  device := h'.device.trans h.device
  seats slot hs := by
    rw [h'.seats slot (by rw [h.seats slot hs]; exact hs), h.seats slot hs]
  fixed ha := by
    obtain rfl := h.fixed ha
    exact h'.fixed ha
  status := by
    rcases h'.status with hs | hs
    · rw [hs]
      exact h.status
    · exact .inr hs

/-- No device holds the match. -/
def Free (m : Match) : Prop := m.device = none ∧ m.status.isHeld = false

theorem Free.follows {m m' : Match} (h : m.Free) (hf : m.Follows m') : m'.Free := by
  refine ⟨hf.device.trans h.1, ?_⟩
  rcases hf.status with hs | hs
  · rw [hs]
    exact h.2
  · cases hst : m'.status <;> simp_all [MatchStatus.isResolved, MatchStatus.isHeld]

end Match

namespace Arena

theorem follows_refl (ms : List Match) : List.Forall₂ Match.Follows ms ms :=
  List.forall₂_same.2 fun m _ => .refl m

theorem forall₂_modify {R : Match → Match → Prop} (hrefl : ∀ m, R m m) {id : MatchId}
    {f : Match → Match} {ms : List Match} (hf : ∀ m ∈ ms, m.id = id → R m (f m)) :
    List.Forall₂ R ms (modify id f ms) := by
  induction ms with
  | nil => exact .nil
  | cons m ms ih =>
    by_cases hid : m.id = id
    · simp only [modify, hid, if_true]
      exact .cons (hf m (by simp) hid) (List.forall₂_same.2 fun a _ => hrefl a)
    · simp only [modify, hid, if_false]
      exact .cons (hrefl m) (ih fun a ha => hf a (List.mem_cons_of_mem _ ha))

theorem Ordered.forall₂_modify {R : Match → Match → Prop} {ms : List Match} (h : Ordered ms)
    (hrefl : ∀ m, R m m) {m : Match} (hm : m ∈ ms) {f : Match → Match} (hf : R m (f m)) :
    List.Forall₂ R ms (modify m.id f ms) :=
  Arena.forall₂_modify hrefl fun a ha hid => by rwa [h.eq_of_id_eq ha hm hid]

theorem filter_modify_perm {p : Match → Bool} {f : Match → Match} {id : MatchId}
    {ms : List Match} {m : Match} (hm : find? ms id = some m) (hp : p m = false)
    (hf : p (f m) = true) : ((modify id f ms).filter p).Perm (f m :: ms.filter p) := by
  induction ms with
  | nil => simp [find?] at hm
  | cons a ms ih =>
    by_cases h : a.id = id
    · subst h
      rw [find?_cons_self] at hm
      cases hm
      simp [modify, hp, hf]
    · rw [find?_cons_ne h] at hm
      simp only [modify, h, if_false, List.filter_cons]
      split_ifs
      · exact ((ih hm).cons a).trans (.swap ..)
      · exact ih hm

theorem countP_modify {p : Match → Bool} {f : Match → Match} {id : MatchId} {ms : List Match}
    {m : Match} (hm : find? ms id = some m) (hp : p m = false) (hf : p (f m) = true) :
    (modify id f ms).countP p = ms.countP p + 1 := by
  rw [List.countP_eq_length_filter, (filter_modify_perm hm hp hf).length_eq, List.length_cons,
    List.countP_eq_length_filter]

/-! ## Errands that resolve a match -/

theorem loads_vacancies (m : Match) : loads (vacancies m) = (skip m).outputs := by
  have hs : ∀ p, (skip m).sends p = .settled none := fun _ => rfl
  simp only [vacancies, Match.outputs, hs, loads_append]
  rcases hn : m.next with _ | r <;> rcases hl : m.loserNext with _ | r' <;>
    simp [hn, hl, loads, Errand.loads, skip]

theorem loads_sequel {m : Match} {w : Player} (hc : m.status = .complete) (hw : m.winner = some w)
    (hgf : m.isGrandFinal → ∃ id, m.next = some ⟨id, .first⟩ ∧ m.loserNext = some ⟨id, .second⟩) :
    loads (sequel m) = m.outputs := by
  have hs : ∀ p, m.sends p = .settled p := fun p => by simp [Match.sends, hc]
  simp only [sequel, hw, Match.outputs, hs, Match.dropped]
  by_cases hg : m.isGrandFinal
  · obtain ⟨id, hn, hl⟩ := hgf hg
    simp [hg, hn, hl, loads, Errand.loads]
  · rcases hn : m.next with _ | r <;> rcases hl : m.loserNext with _ | r' <;>
      simp [hg, loads, Errand.loads]

theorem settle_not_mem_sequel (m : Match) (id : MatchId) : .settle id ∉ sequel m := by
  unfold sequel
  split
  · simp
  · split_ifs <;> simp

theorem settle_not_mem_vacancies (m : Match) (id : MatchId) : .settle id ∉ vacancies m := by
  simp [vacancies]

theorem reset_not_mem_vacancies (m : Match) (id : MatchId) (w : Player) (l : Option Player)
    (b : Bool) : .reset id w l b ∉ vacancies m := by
  simp [vacancies]

theorem of_reset_mem_sequel {m : Match} {id : MatchId} {w : Player} {l : Option Player} {b : Bool}
    (h : .reset id w l b ∈ sequel m) : m.isGrandFinal ∧ ∃ r, m.next = some r ∧ r.id = id := by
  unfold sequel at h
  split at h
  · simp at h
  · split_ifs at h with hg
    · simp only [List.mem_map, Option.mem_toList, Errand.reset.injEq] at h
      obtain ⟨r, hr, hid, -⟩ := h
      exact ⟨hg, r, hr, hid⟩
    · simp at h

section Steps

variable {ms : List Match} {es : List Errand}

/-- A match that is won, played or not, leaves an arena coherent with its sequel. -/
theorem Coherent.win {m : Match} {f : Match → Match} {w : Player}
    (h : Coherent ms (.settle m.id :: es)) (hm : m ∈ ms) (hopen : m.status.isResolved = false)
    (hout : (f m).outline = m.outline) (hseat : ∀ slot, (f m).seat slot = m.seat slot)
    (hc : (f m).status = .complete) (hw : (f m).winner = some w) (hrest : (f m).AtRest) :
    Coherent (modify m.id f ms) (sequel (f m) ++ es) := by
  refine h.resolve hm hopen hout hseat hrest (loads_sequel hc hw fun hg => ?_)
    (settle_not_mem_sequel _) fun id w l b hmem a ha hai => ?_
  · rw [Match.outline_isGrandFinal hout] at hg
    obtain ⟨id, hn, hl, -⟩ := h.wired.grandFinal m hm hg
    exact ⟨id, by rw [Match.outline_next hout, hn], by rw [Match.outline_loserNext hout, hl]⟩
  · obtain ⟨hg, r, hr, hri⟩ := of_reset_mem_sequel hmem
    rw [Match.outline_isGrandFinal hout] at hg
    rw [Match.outline_next hout] at hr
    obtain ⟨id', hn, -, hend⟩ := h.wired.grandFinal m hm hg
    rw [hn, Option.some.injEq] at hr
    subst hr
    exact hend a ha (hai.trans hri.symm)

theorem Coherent.settled {id : MatchId} (h : Coherent ms (.settle id :: es))
    (hrest : ∀ m ∈ ms, m.id = id → m.AtRest) : Coherent ms es where
  wired := h.wired
  proper := h.proper
  rest m hm := by
    rcases h.rest m hm with hr | ⟨hu, hmem⟩
    · exact .inl hr
    · rcases List.mem_cons.1 hmem with heq | hmem
      · exact .inl (hrest m hm (Errand.settle.inj heq))
      · exact .inr ⟨hu, hmem⟩
  arrives := h.arrives
  fed := h.fed
  sent := h.sent
  single := h.single
  settles id' hmem := h.settles id' (List.mem_cons_of_mem _ hmem)
  resets id' w l b hmem := h.resets id' w l b (List.mem_cons_of_mem _ hmem)

theorem Coherent.unsettled_of_pending (h : Coherent ms es) {m : Match} (hm : m ∈ ms)
    (hp : m.status = .pending) : m.Unsettled := by
  rcases h.rest m hm with hr | ⟨hu, -⟩
  · unfold Match.AtRest at hr
    rw [hp] at hr
    exact ⟨hp, hr.1⟩
  · exact hu

theorem Coherent.unsettled_of_open (h : Coherent ms es) {m : Match} (hm : m ∈ ms) {slot : Slot}
    (hs : m.seat slot = {}) : m.Unsettled := by
  rcases h.rest m hm with hr | ⟨hu, -⟩
  · exact hr.unsettled hs
  · exact hu

/-- The match an errand is about to fill a seat of. -/
theorem Coherent.exists_open (h : Coherent ms es) {r : SeatRef} {s : Seat}
    (hl : (r, s) ∈ loads es) : ∃ m ∈ ms, m.id = r.id ∧ m.seat r.slot = {} := by
  obtain ⟨a, ha, hla⟩ := h.sent _ hl
  obtain ⟨-, m, hm, hmr, -⟩ := h.wired.leads a ha r (Match.mem_targets_of_mem_outputs hla)
  refine ⟨m, hm, hmr, ?_⟩
  rcases h.arrives a ha r s hla m hm hmr with ⟨-, hn⟩ | ⟨hs, -⟩
  · exact absurd (List.mem_map_of_mem hl) hn
  · exact hs

/-! ## One errand -/

/-- An errand can be done, and the work goes on from a coherent arena. -/
def Goes (ms : List Match) (e : Errand) (es : List Errand) : Prop :=
  ∃ ms' more, perform ms e = .ok (ms', more) ∧ Coherent ms' (more ++ es) ∧
    List.Forall₂ Match.Follows ms ms'

theorem follows_of_pending {m m' : Match} (hp : m.status = .pending) (hr : m.isReady = false)
    (hout : m'.outline = m.outline) (hfig : m'.figures = m.figures) (hdev : m'.device = m.device)
    (hseat : ∀ slot, m.seat slot ≠ {} → m'.seat slot = m.seat slot)
    (hs : m'.status = .pending ∨ m'.status.isResolved) : m.Follows m' :=
  ⟨hout, hfig, hdev, hseat, fun h => by simp [hp, hr] at h, by rw [hp]; exact hs⟩

section Settle

variable {m : Match} (h : Coherent ms (.settle m.id :: es)) (hm : m ∈ ms) (hp : m.status = .pending)

include h hm hp

/-- A match with two players, or one that waits for a player, is left alone. -/
theorem Coherent.leave (hr : m.isReady ∨ ∃ slot, m.seat slot = {}) : Coherent ms es :=
  h.settled fun a ha hai => by
    rw [h.wired.ordered.eq_of_id_eq ha hm hai]
    unfold Match.AtRest
    rw [hp]
    exact ⟨(h.unsettled_of_pending hm hp).2, hr⟩

/-- A match with two vacant seats is skipped. -/
theorem Coherent.skip (h1 : m.seat1 = .settled none) (h2 : m.seat2 = .settled none) :
    Coherent (modify m.id skip ms) (vacancies m ++ es) ∧
      List.Forall₂ Match.Follows ms (modify m.id skip ms) := by
  have hopen : m.status.isResolved = false := by rw [hp]; rfl
  constructor
  · refine h.resolve hm hopen rfl (fun _ => rfl) ⟨(h.unsettled_of_pending hm hp).2, ?_⟩
      (loads_vacancies m) (settle_not_mem_vacancies m)
      fun id w l b hmem => absurd hmem (reset_not_mem_vacancies m id w l b)
    rintro (_ | _)
    · exact h1
    · exact h2
  · refine h.wired.ordered.forall₂_modify .refl hm ?_
    refine follows_of_pending hp ?_ rfl rfl rfl (fun _ _ => rfl) (.inr rfl)
    simp [Match.isReady, Match.player1, h1, Seat.settled]

/-- A match with one player and one vacant seat is won by that player. -/
theorem Coherent.bye {p : Player} (hw : byeWinner m = some p) (hplayer : m.hasPlayer p)
    (hseats : ∀ slot, m.seat slot ≠ {}) (hr : m.isReady = false) :
    Coherent (modify m.id winBye ms) (sequel (winBye m) ++ es) ∧
      List.Forall₂ Match.Follows ms (modify m.id winBye ms) := by
  have hopen : m.status.isResolved = false := by rw [hp]; rfl
  refine ⟨h.win hm hopen rfl (fun _ => rfl) rfl hw ⟨⟨p, hw, hplayer⟩, hseats⟩, ?_⟩
  refine h.wired.ordered.forall₂_modify .refl hm ?_
  exact follows_of_pending hp hr rfl rfl rfl (fun _ _ => rfl) (.inr rfl)

end Settle

theorem Coherent.perform_settle {id : MatchId} (h : Coherent ms (.settle id :: es)) :
    Goes ms (.settle id) es := by
  obtain ⟨m, hm, rfl⟩ := h.settles id (by simp)
  unfold Goes
  simp only [perform, h.wired.ordered.find? hm]
  by_cases hp : m.status = .pending
  swap
  · refine ⟨ms, [], if_pos hp, h.settled fun a ha hai => ?_, follows_refl ms⟩
    rw [h.wired.ordered.eq_of_id_eq ha hm hai]
    exact (h.rest m hm).resolve_right fun hu => hp hu.1.1
  rw [if_neg (by simp [hp])]
  -- what the errand does is decided by the two seats
  rcases (h.proper m hm .first).cases with h1 | h1 | ⟨p1, h1⟩ <;>
    rcases (h.proper m hm .second).cases with h2 | h2 | ⟨p2, h2⟩ <;>
    simp only [Match.seat] at h1 h2
  all_goals
    simp only [h1, h2, Match.isBye, Match.player1, Match.player2, Seat.settled]
  · exact ⟨ms, [], rfl, h.leave hm hp (.inr ⟨.first, h1⟩), follows_refl ms⟩
  · exact ⟨ms, [], rfl, h.leave hm hp (.inr ⟨.first, h1⟩), follows_refl ms⟩
  · exact ⟨ms, [], rfl, h.leave hm hp (.inr ⟨.first, h1⟩), follows_refl ms⟩
  · exact ⟨ms, [], rfl, h.leave hm hp (.inr ⟨.second, h2⟩), follows_refl ms⟩
  · exact ⟨_, _, rfl, h.skip hm hp h1 h2⟩
  · refine ⟨_, _, rfl, h.bye hm hp (p := p2) ?_ ?_ ?_ ?_⟩
    · simp [byeWinner, Match.player1, Match.player2, h1, h2, Seat.settled]
    · simp [Match.hasPlayer, Match.player2, h2, Seat.settled]
    · rintro (_ | _) <;> simp [Match.seat, h1, h2, Seat.settled]
    · simp [Match.isReady, Match.player1, h1, Seat.settled]
  · exact ⟨ms, [], rfl, h.leave hm hp (.inr ⟨.second, h2⟩), follows_refl ms⟩
  · refine ⟨_, _, rfl, h.bye hm hp (p := p1) ?_ ?_ ?_ ?_⟩
    · simp [byeWinner, Match.player1, h1, Seat.settled]
    · simp [Match.hasPlayer, Match.player1, h1, Seat.settled]
    · rintro (_ | _) <;> simp [Match.seat, h1, h2, Seat.settled]
    · simp [Match.isReady, Match.player2, h2, Seat.settled]
  · refine ⟨ms, [], rfl, h.leave hm hp (.inl ?_), follows_refl ms⟩
    simp [Match.isReady, Match.player1, Match.player2, h1, h2, Seat.settled]

theorem outputs_eq_of_unresolved {m m' : Match} (hout : m'.outline = m.outline)
    (hm : m.status.isResolved = false) (hm' : m'.status.isResolved = false) :
    m'.outputs = m.outputs := by
  simp only [Match.outputs, Match.sends_of_unresolved hm, Match.sends_of_unresolved hm',
    Match.outline_next hout, Match.outline_loserNext hout]

theorem isReady_eq_false {m : Match} {slot : Slot} (hs : m.seat slot = {}) : m.isReady = false := by
  cases slot <;> simp only [Match.seat] at hs <;>
    simp [Match.isReady, Match.player1, Match.player2, hs]

theorem Coherent.perform_seat {r : SeatRef} {p : Option Player}
    (h : Coherent ms (.seat r p :: es)) : Goes ms (.seat r p) es := by
  have hl : (r, Seat.settled p) ∈ loads (.seat r p :: es) := by simp [loads, Errand.loads]
  obtain ⟨m, hm, hmr, hs⟩ := h.exists_open hl
  have hu := h.unsettled_of_open hm hs
  obtain ⟨id, slot⟩ := r
  obtain rfl : m.id = id := hmr
  have hst : (m.setSeat slot (.settled p)).status = m.status := setSeat_status ..
  have hw : (m.setSeat slot (.settled p)).winner = m.winner := by cases slot <;> rfl
  have hopen : m.status.isResolved = false := by rw [hu.1]; rfl
  unfold Goes
  simp only [perform, h.wired.ordered.find? hm]
  refine ⟨_, _, rfl, ?_, ?_⟩
  · refine h.deliver hm (by simp) (Match.outline_setSeat ..) ?_ ?_ ?_ ?_ ?_ (by simp)
    · exact outputs_eq_of_unresolved (Match.outline_setSeat ..) hopen (by rw [hst, hopen])
    · simp [Errand.loads]
    · intro slot'
      rw [Match.seat_setSeat]
      by_cases hc : slot' = slot
      · subst hc
        simp [Errand.loads]
      · simp [Errand.loads, hc]
    · intro slot'
      rw [Match.seat_setSeat]
      split_ifs
      · exact Seat.proper_settled p
      · exact h.proper m hm slot'
    · exact .inr ⟨⟨hst.trans hu.1, hw.trans hu.2⟩, by simp⟩
  · refine h.wired.ordered.forall₂_modify .refl hm ?_
    refine follows_of_pending hu.1 (isReady_eq_false hs) (Match.outline_setSeat ..)
      (by cases slot <;> rfl) (by cases slot <;> rfl) (fun slot' hs' => ?_)
      (.inl (hst.trans hu.1))
    rw [Match.seat_setSeat, if_neg]
    rintro rfl
    exact hs' hs

theorem outline_setReset (m : Match) (w : Player) (l : Option Player) (b : Bool) :
    (setReset w l b m).outline = m.outline := by
  unfold setReset
  split_ifs <;> rfl

theorem seat_setReset (m : Match) (w : Player) (l : Option Player) (b : Bool) (slot : Slot) :
    (setReset w l b m).seat slot =
      .settled (match slot with | .first => some w | .second => if b then none else l) := by
  unfold setReset
  cases b <;> cases l <;> cases slot <;> rfl

theorem atRest_setReset {m : Match} (hu : m.Unsettled) (w : Player) (l : Option Player) (b : Bool) :
    (setReset w l b m).AtRest := by
  unfold setReset
  split_ifs with hc
  · refine ⟨⟨w, rfl, by simp [Match.hasPlayer, Match.player1]⟩, ?_⟩
    rintro (_ | _) <;> simp [Match.seat]
  · obtain ⟨x, rfl⟩ := Option.isSome_iff_exists.1 (by cases l <;> simp_all : l.isSome)
    simp [Match.AtRest, hu.1, hu.2, Match.isReady, Match.player1, Match.player2]

theorem Coherent.perform_reset {id : MatchId} {w : Player} {l : Option Player} {b : Bool}
    (h : Coherent ms (.reset id w l b :: es)) : Goes ms (.reset id w l b) es := by
  have hl : (⟨id, .first⟩, .settled (some w)) ∈ loads (.reset id w l b :: es) := by
    simp [loads, Errand.loads]
  obtain ⟨m, hm, hmr, hs⟩ := h.exists_open hl
  have hu := h.unsettled_of_open hm hs
  obtain rfl : m.id = id := hmr
  have hend : m.targets = [] := h.resets _ w l b (by simp) m hm rfl
  have hopen₂ : m.seat .second = {} := by
    have hl₂ : (⟨m.id, .second⟩, .settled (if b then none else l)) ∈
        loads (.reset m.id w l b :: es) := by
      simp [loads, Errand.loads]
    obtain ⟨a, ha, hai, hs₂⟩ := h.exists_open hl₂
    rwa [h.wired.ordered.eq_of_id_eq ha hm hai] at hs₂
  unfold Goes
  simp only [perform, h.wired.ordered.find? hm]
  refine ⟨_, [], rfl, ?_, ?_⟩
  · refine h.deliver hm (by simp) (outline_setReset ..) ?_ ?_ ?_ ?_ (.inl (atRest_setReset hu ..))
      (by simp)
    · have hnil : ∀ a : Match, a.targets = [] → a.outputs = [] := fun a ha => by
        rw [← List.map_eq_nil_iff (f := Prod.fst), Match.map_fst_outputs, ha]
      rw [hnil m hend, hnil _ (by rw [Match.outline_targets (outline_setReset ..), hend])]
    · simp [Errand.loads]
    · intro slot
      rw [seat_setReset]
      cases slot <;> simp [Errand.loads]
    · intro slot
      rw [seat_setReset]
      exact Seat.proper_settled _
  · refine h.wired.ordered.forall₂_modify .refl hm ?_
    refine follows_of_pending hu.1 (isReady_eq_false hs) (outline_setReset ..) ?_ ?_ ?_ ?_
    · unfold setReset
      split_ifs <;> rfl
    · unfold setReset
      split_ifs <;> rfl
    · rintro (_ | _) hs'
      · exact absurd hs hs'
      · exact absurd hopen₂ hs'
    · unfold setReset
      split_ifs
      · exact .inr rfl
      · exact .inl hu.1

theorem Coherent.perform {e : Errand} (h : Coherent ms (e :: es)) : Goes ms e es := by
  cases e with
  | settle id => exact h.perform_settle
  | seat r p => exact h.perform_seat
  | reset id w l b => exact h.perform_reset

end Steps

end Arena

end Tourney
