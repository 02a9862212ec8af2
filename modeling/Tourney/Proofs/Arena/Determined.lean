import Tourney.Proofs.Arena.Flow

/-!
# What settling comes to

On a coherent arena a list of errands runs to its end (`Coherent.run_settles`), and resolves only
matches that nobody will play (`Match.Settles`). The coherent arena that settling reaches from a
given one is the only such arena (`SettlesTo.unique`): from the first match on, the seats of a match
are what its feeders sent, and its seats say whether it is still to be played, won without play, or
empty.
-/

namespace Tourney

/-- How settling changes a match: one with both its players is not resolved. -/
structure Match.Settles (m m' : Match) : Prop extends m.Follows m' where
  spares : m'.isReady → m'.status.isResolved → m' = m

namespace Match

theorem Settles.refl (m : Match) : m.Settles m := ⟨.refl m, fun _ _ => rfl⟩

theorem Settles.trans {a b c : Match} (h : a.Settles b) (h' : b.Settles c) : a.Settles c where
  toFollows := h.toFollows.trans h'.toFollows
  spares hr hs := by
    obtain rfl := h'.spares hr hs
    exact h.spares hr hs

/-- A match as it is drawn: no device holds it and nobody has played it. -/
structure Fresh (m : Match) : Prop where
  free : m.Free
  unplayed : m.isPlayed = false

theorem fresh_of_pending {m : Match} (hs : m.status = .pending) (hd : m.device = none) : m.Fresh :=
  ⟨⟨hd, by rw [hs]; rfl⟩, by simp [isPlayed, hs]⟩

theorem Settles.isPlayed_eq {m m' : Match} (h : m.Settles m') : m'.isPlayed = m.isPlayed := by
  by_cases hp : m'.isPlayed
  · have hp' := hp
    simp only [isPlayed, Bool.and_eq_true, decide_eq_true_eq] at hp'
    rw [h.spares hp'.2 (by rw [hp'.1]; rfl)]
  · rw [Bool.not_eq_true] at hp
    by_contra hne
    rw [hp, eq_comm, Bool.not_eq_false] at hne
    have hm := hne
    simp only [isPlayed, Bool.and_eq_true, decide_eq_true_eq] at hm
    rw [h.fixed (.inr hm.2), hne] at hp
    cases hp

theorem Fresh.settles {m m' : Match} (h : m.Fresh) (hs : m.Settles m') : m'.Fresh :=
  ⟨h.free.follows hs.toFollows, hs.isPlayed_eq.trans h.unplayed⟩

theorem Settles.id_eq {m m' : Match} (h : m.Settles m') : m'.id = m.id := outline_id h.outline

theorem isReady_of_seats {m m' : Match} (h : ∀ slot, m'.seat slot = m.seat slot) :
    m'.isReady = m.isReady := by
  have h1 : m'.seat1 = m.seat1 := h .first
  have h2 : m'.seat2 = m.seat2 := h .second
  simp [isReady, player1, player2, h1, h2]

theorem eq_of_outline {m m' : Match} (hout : m'.outline = m.outline)
    (hseat : ∀ slot, m'.seat slot = m.seat slot) (hfig : m'.figures = m.figures)
    (hst : m'.status = m.status) (hdev : m'.device = m.device) (hw : m'.winner = m.winner) :
    m' = m := by
  have h1 : m'.seat1 = m.seat1 := hseat .first
  have h2 : m'.seat2 = m.seat2 := hseat .second
  cases m
  cases m'
  simp only [outline, mk.injEq] at hout h1 h2 hfig hst hdev hw ⊢
  exact ⟨hout.1, hout.2.1, hout.2.2.1, hout.2.2.2.1, h1, h2, hfig, hst, hdev, hw,
    hout.2.2.2.2.2.2.2.2.2.2⟩

/-! ## What the seats of a match come to -/

/-- How a match stands that nobody has touched, by who has reached its seats. -/
def standing (m : Match) : MatchStatus × Option Player :=
  if m.isReady ∨ m.seat1 = {} ∨ m.seat2 = {} then (.pending, none)
  else
    match m.player1.or m.player2 with
    | some p => (.complete, some p)
    | none => (.skipped, none)

theorem standing_congr {m m' : Match} (h : ∀ slot, m'.seat slot = m.seat slot) :
    m'.standing = m.standing := by
  have h1 : m'.seat1 = m.seat1 := h .first
  have h2 : m'.seat2 = m.seat2 := h .second
  simp only [standing, isReady_of_seats h, player1, player2, h1, h2]

/-- At rest, a match without a device or a recorded result stands as its seats say. -/
theorem AtRest.eq_standing {m : Match} (h : m.AtRest)
    (hs : m.status = .pending ∨ m.status.isResolved)
    (hready : m.isReady → m.status.isResolved = false) :
    (m.status, m.winner) = m.standing := by
  unfold AtRest at h
  unfold standing
  split at h
  · rename_i hc
    obtain ⟨⟨w, hw, hp⟩, hseats⟩ := h
    have hr : m.isReady = false := by
      by_contra hr
      have hres := hready (by simpa using hr)
      rw [hc] at hres
      cases hres
    have h1 : m.seat1 ≠ {} := hseats .first
    have h2 : m.seat2 ≠ {} := hseats .second
    have hor : m.player1.or m.player2 = some w := by
      unfold isReady at hr
      unfold hasPlayer at hp
      cases hp1 : m.player1 <;> cases hp2 : m.player2 <;> simp_all
    simp only [hr, h1, h2, hor, hc, hw, Bool.false_eq_true, or_self, if_false]
  · rename_i hc
    have h1 : m.seat1 = .settled none := h.2 .first
    have h2 : m.seat2 = .settled none := h.2 .second
    simp [hc, h.1, isReady, player1, player2, h1, h2, Seat.settled]
  · rename_i hc
    rw [if_pos, hc, h.1]
    refine h.2.imp_right ?_
    rintro ⟨_ | _, hslot⟩
    · exact .inl hslot
    · exact .inr hslot
  · rcases hs with hs | hs
    · exact absurd hs ‹_›
    · cases hst : m.status <;> simp_all [MatchStatus.isResolved]

/-- What settling has made of a pending match stands as its seats say. -/
theorem AtRest.eq_standing_of_settles {m m' : Match} (h : m'.AtRest) (hp : m.status = .pending)
    (hs : m.Settles m') : (m'.status, m'.winner) = m'.standing := by
  refine h.eq_standing (hp ▸ hs.status) fun hready => ?_
  by_contra hres
  rw [hs.spares hready (by simpa using hres), hp] at hres
  exact hres rfl

end Match

namespace Arena

variable {ms ms' : List Match} {es : List Errand}

/-! ## Settling -/

/-- No errand resolves a match that has both its players. -/
theorem Coherent.spares_of_perform {e : Errand} {more : List Errand} (h : Coherent ms (e :: es))
    (hok : Arena.perform ms e = .ok (ms', more)) :
    List.Forall₂ (fun m m' => m'.isReady → m'.status.isResolved → m' = m) ms ms' := by
  have hsame : List.Forall₂ (fun m m' : Match => m'.isReady → m'.status.isResolved → m' = m)
      ms ms := List.forall₂_same.2 fun _ _ _ _ => rfl
  cases e with
  | settle id =>
    obtain ⟨m, hm, rfl⟩ := h.settles id (by simp)
    have hproper : ∀ slot, (m.seat slot).vacant → (m.seat slot).player = none := h.proper m hm
    have h1 := hproper .first
    have h2 := hproper .second
    simp only [Match.seat] at h1 h2
    simp only [Arena.perform, h.wired.ordered.find? hm] at hok
    split_ifs at hok with hp hv hb
    · cases hok
      exact hsame
    · cases hok
      refine h.wired.ordered.forall₂_modify (fun _ _ _ => rfl) hm fun hr => ?_
      simp_all [Arena.skip, Match.isReady, Match.player1]
    · cases hok
      refine h.wired.ordered.forall₂_modify (fun _ _ _ => rfl) hm fun hr => ?_
      have hr : m.isReady := hr
      unfold Match.isReady at hr
      unfold Match.isBye at hb
      split at hb <;> simp_all
    · cases hok
      exact hsame
  | seat r p =>
    obtain ⟨m, hm, hmr, hs⟩ := h.exists_open (r := r) (s := .settled p)
      (by simp [loads, Errand.loads])
    have hu := h.unsettled_of_open hm hs
    obtain ⟨id, slot⟩ := r
    obtain rfl : m.id = id := hmr
    simp only [Arena.perform, h.wired.ordered.find? hm] at hok
    cases hok
    refine h.wired.ordered.forall₂_modify (fun _ _ _ => rfl) hm fun _ hres => ?_
    rw [setSeat_status, hu.1] at hres
    cases hres
  | reset id w l b =>
    obtain ⟨m, hm, hmr, hs⟩ := h.exists_open (r := ⟨id, .first⟩) (s := .settled (some w))
      (by simp [loads, Errand.loads])
    have hu := h.unsettled_of_open hm hs
    obtain rfl : m.id = id := hmr
    simp only [Arena.perform, h.wired.ordered.find? hm] at hok
    cases hok
    refine h.wired.ordered.forall₂_modify (fun _ _ _ => rfl) hm fun hr hres => ?_
    unfold setReset at hr hres
    split_ifs at hr hres with hc
    · simp [Match.isReady, Match.player2] at hr
    · rw [hu.1] at hres
      cases hres

/-- Settling has come to `ms` from `base`. -/
structure SettlesTo (base ms : List Match) : Prop where
  coherent : Coherent ms []
  settles : List.Forall₂ Match.Settles base ms

theorem settles_refl (ms : List Match) : List.Forall₂ Match.Settles ms ms :=
  List.forall₂_same.2 fun m _ => .refl m

theorem settles_trans {as bs cs : List Match} (h : List.Forall₂ Match.Settles as bs)
    (h' : List.Forall₂ Match.Settles bs cs) : List.Forall₂ Match.Settles as cs :=
  forall₂_trans h h' fun _ _ _ => Match.Settles.trans

theorem filter_isPlayed_of_settles {as bs : List Match} (h : List.Forall₂ Match.Settles as bs) :
    bs.filter Match.isPlayed = as.filter Match.isPlayed := by
  induction h with
  | nil => rfl
  | @cons a b as bs hab _ ih =>
    by_cases hp : a.isPlayed
    · have hready : a.isReady := by simp_all [Match.isPlayed]
      rw [hab.fixed (.inr hready), List.filter_cons_of_pos hp, List.filter_cons_of_pos hp, ih]
    · rw [List.filter_cons_of_neg hp, List.filter_cons_of_neg (by rwa [hab.isPlayed_eq]), ih]

theorem settles_of_follows (h : List.Forall₂ Match.Follows ms ms')
    (h' : List.Forall₂ (fun m m' : Match => m'.isReady → m'.status.isResolved → m' = m) ms ms') :
    List.Forall₂ Match.Settles ms ms' := by
  induction h with
  | nil => exact .nil
  | cons hab _ ih =>
    cases h' with
    | cons hs h' => exact .cons ⟨hab, hs⟩ (ih h')

/-- A list of errands runs to its end. -/
theorem Coherent.run_settles (h : Coherent ms es) :
    ∃ ms', Arena.run ms es = .done ms' () ∧ SettlesTo ms ms' := by
  induction ms, es using Arena.run.induct with
  | case1 ms => exact ⟨ms, by rw [Arena.run], h, settles_refl ms⟩
  | case2 ms e rest f hf =>
    obtain ⟨_, _, hok, -⟩ := h.perform
    rw [hf] at hok
    cases hok
  | case3 ms e rest ms₁ more hok ih =>
    obtain ⟨_, _, hok', hc, hf⟩ := h.perform
    rw [hok] at hok'
    cases hok'
    obtain ⟨ms', hrun, hs⟩ := ih hc
    have hstep := settles_of_follows hf (h.spares_of_perform hok)
    refine ⟨ms', ?_, hs.coherent, settles_trans hstep hs.settles⟩
    rw [Arena.run]
    split <;> simp_all

/-- Resolving byes that stand in the arena settles it. -/
theorem Coherent.resolveByes {ids : List MatchId} (h : Coherent ms (ids.map .settle)) :
    ∃ ms', resolveByes ms ids = .done ms' () ∧ SettlesTo ms ms' :=
  h.run_settles

/-- A result that may be recorded is entered, and then the arena settles. -/
theorem Coherent.complete_settles (h : Coherent ms []) {m : Match} (hm : m ∈ ms) {o : Outcome}
    (ho : checkOutcome m o = .ok ()) : ∃ ms', Arena.complete ms m.id o = .done ms' () ∧
      SettlesTo (modify m.id (·.withOutcome o) ms) ms' := by
  have hc := (h.wake hm).win (f := (·.withOutcome o)) hm (checkOutcome_eq_ok_iff.1 ho).1
    (Match.outline_withOutcome m o) (fun _ => rfl) rfl rfl (atRest_withOutcome ho)
  rw [List.append_nil] at hc
  obtain ⟨ms', hrun, hs⟩ := hc.run_settles
  refine ⟨ms', ?_, hs⟩
  simp only [Arena.complete, h.wired.ordered.find? hm, ho, hrun]

/-! ## There is one way to settle -/

/-- Open seats are fed. -/
def Fed (ms : List Match) : Prop :=
  ∀ m ∈ ms, ∀ slot, m.seat slot = {} → ∃ a ∈ ms, ⟨m.id, slot⟩ ∈ a.targets

theorem Fed.of_forall₂ {R : Match → Match → Prop} (h : Fed ms) (hr : List.Forall₂ R ms ms')
    (hout : ∀ m m', R m m' → m'.outline = m.outline)
    (hseat : ∀ m m', R m m' → ∀ slot, m'.seat slot = {} → m.seat slot = {}) : Fed ms' := by
  intro m' hm' slot hs
  obtain ⟨m, hm, hmm⟩ := exists_left hr hm'
  obtain ⟨a, ha, hat⟩ := h m hm slot (hseat m m' hmm slot hs)
  obtain ⟨a', ha', haa⟩ := exists_right hr ha
  refine ⟨a', ha', ?_⟩
  rw [Match.outline_targets (hout a a' haa), Match.outline_id (hout m m' hmm)]
  exact hat

variable {base ms₁ ms₂ : List Match}

/-- A match comes to the same in both arenas. -/
theorem SettlesTo.eq_of_settles (h₁ : SettlesTo base ms₁) (h₂ : SettlesTo base ms₂)
    (hfed : Fed base) {m m₁ m₂ : Match} (hm : m ∈ base) (hm₁ : m₁ ∈ ms₁) (hm₂ : m₂ ∈ ms₂)
    (hs₁ : m.Settles m₁) (hs₂ : m.Settles m₂) : m₁ = m₂ := by
  have hseat : ∀ slot, m₁.seat slot = m₂.seat slot := by
    intro slot
    by_cases hs : m.seat slot = {}
    · -- what an open seat gets comes from an earlier match, where both arenas agree
      obtain ⟨a, ha, hat⟩ := hfed m hm slot hs
      obtain ⟨a₁, ha₁, has₁⟩ := exists_right h₁.settles ha
      obtain ⟨a₂, ha₂, has₂⟩ := exists_right h₂.settles ha
      rw [← Match.outline_targets has₁.outline] at hat
      have hlt : a.id.val < m.id.val := by
        rw [← has₁.id_eq]
        exact (h₁.coherent.wired.leads a₁ ha₁ _ hat).1
      obtain rfl := h₁.eq_of_settles h₂ hfed ha ha₁ ha₂ has₁ has₂
      obtain ⟨s, hl⟩ := Match.exists_mem_outputs hat
      rw [h₁.coherent.seat_eq ha₁ hm₁ hl hs₁.id_eq, h₂.coherent.seat_eq ha₂ hm₂ hl hs₂.id_eq]
    · rw [hs₁.seats slot hs, hs₂.seats slot hs]
  by_cases hfixed : m.status ≠ .pending ∨ m.isReady
  · rw [hs₁.fixed hfixed, hs₂.fixed hfixed]
  have hp : m.status = .pending := not_not.1 (not_or.1 hfixed).1
  have hst : (m₁.status, m₁.winner) = (m₂.status, m₂.winner) := by
    rw [(h₁.coherent.atRest hm₁).eq_standing_of_settles hp hs₁,
      (h₂.coherent.atRest hm₂).eq_standing_of_settles hp hs₂]
    exact Match.standing_congr hseat
  exact Match.eq_of_outline (hs₁.outline.trans hs₂.outline.symm) hseat
    (hs₁.figures.trans hs₂.figures.symm) (congrArg Prod.fst hst)
    (hs₁.device.trans hs₂.device.symm) (congrArg Prod.snd hst)
termination_by m.id.val.toNat
decreasing_by exact hlt

theorem SettlesTo.unique (h₁ : SettlesTo base ms₁) (h₂ : SettlesTo base ms₂) (hfed : Fed base) :
    ms₁ = ms₂ := by
  have key : ∀ {as bs : List Match}, List.Forall₂ Match.Settles as bs →
      ∀ {cs : List Match}, List.Forall₂ Match.Settles as cs → (∀ a ∈ as, a ∈ base) →
        (∀ b ∈ bs, b ∈ ms₁) → (∀ c ∈ cs, c ∈ ms₂) → bs = cs := by
    intro as bs hb
    induction hb with
    | nil =>
      intro cs hc _ _ _
      cases hc
      rfl
    | cons hab _ ih =>
      intro cs hc ha hb hc'
      cases hc with
      | cons hac hc =>
        rw [List.forall_mem_cons] at ha hb hc'
        rw [h₁.eq_of_settles h₂ hfed ha.1 hb.1 hc'.1 hab hac, ih hc ha.2 hb.2 hc'.2]
  exact key h₁.settles h₂.settles (fun _ h => h) (fun _ h => h) fun _ h => h

end Arena

end Tourney
