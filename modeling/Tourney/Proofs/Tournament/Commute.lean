import Mathlib
import Tourney.Proofs.Swiss.Commute
import Tourney.Proofs.Tournament.Books
import Tourney.Proofs.Tournament.Run

/-!
# Results of different matches commute

In a knockout and in a Swiss event, a result that leaves another match to play does nothing beyond
entering itself (`Steady.advance`), and two results can be entered in either order
(`Takes.swap`). So a taken call can be made first (`Steady.take_first`), and runs that take the
same calls end in the same tournament (`recordAll_eq_of_mem_iff`).
-/

namespace Tourney

namespace Arena

/-! ## Two results in one arena -/

section Settling

variable {base ms ms' : List Match}

theorem Fed.modify_withOutcome (h : Fed ms) (id : MatchId) (o : Outcome) :
    Fed (modify id (·.withOutcome o) ms) := by
  have hsame : List.Forall₂ (fun m m' : Match => m'.outline = m.outline ∧
      ∀ slot, m'.seat slot = m.seat slot) ms (modify id (·.withOutcome o) ms) :=
    forall₂_modify (fun _ => ⟨rfl, fun _ => rfl⟩) fun m _ _ =>
      ⟨Match.outline_withOutcome m o, fun _ => rfl⟩
  exact h.of_forall₂ hsame (fun _ _ hm => hm.1) fun _ _ hm slot hs => (hm.2 slot).symm.trans hs

/-- Entering a result on both sides of settling changes nothing about the settling. -/
theorem settles_modify {id : MatchId} {f : Match → Match}
    (h : List.Forall₂ Match.Settles ms ms')
    (hf : ∀ m ∈ ms, m.id = id → ∀ m', m.Settles m' → m' = m) :
    List.Forall₂ Match.Settles (modify id f ms) (modify id f ms') := by
  induction h with
  | nil => exact .nil
  | @cons m m' ms ms' hm hrest ih =>
    rw [List.forall_mem_cons] at hf
    by_cases hid : m.id = id
    · rw [hf.1 hid m' hm]
      simp only [modify, hid, if_true]
      exact .cons (.refl _) hrest
    · simp only [modify, hm.id_eq, hid, if_false]
      exact .cons hm (ih hf.2)

/-- A match that has been won stays so while the arena settles. -/
theorem SettlesTo.find_won {m : Match} {o : Outcome}
    (h : SettlesTo (modify m.id (·.withOutcome o) ms) ms') (hc : Coherent ms []) (hm : m ∈ ms) :
    find ms' m.id = .ok (m.withOutcome o) := by
  obtain ⟨m', hm', hs⟩ := exists_right h.settles
    ((hc.wired.ordered.mem_modify hm (f := (·.withOutcome o))).2 (.inl rfl))
  obtain rfl := hs.fixed (.inl (by simp [Match.withOutcome]))
  have := h.coherent.wired.ordered.find? hm'
  rw [find, show find? ms' m.id = some (m.withOutcome o) from this]

/-- Settling between two results can wait until both have been entered. -/
theorem SettlesTo.twice {ms₁ ms₂ : List Match} {x y : Match} {o p : Outcome} (hc : Coherent ms [])
    (hx : x ∈ ms) (hy : y ∈ ms) (hne : y.id ≠ x.id) (hready : y.isReady)
    (h₁ : SettlesTo (modify x.id (·.withOutcome o) ms) ms₁)
    (h₂ : SettlesTo (modify y.id (·.withOutcome p) ms₁) ms₂) :
    SettlesTo (modify y.id (·.withOutcome p) (modify x.id (·.withOutcome o) ms)) ms₂ := by
  refine ⟨h₂.coherent, settles_trans (settles_modify h₁.settles fun z hz hid z' hs => ?_)
    h₂.settles⟩
  rcases (hc.wired.ordered.mem_modify hx).1 hz with rfl | ⟨hz, -⟩
  · exact absurd hid.symm hne
  · rw [hc.wired.ordered.eq_of_id_eq hz hy hid] at hs ⊢
    exact hs.fixed (.inr hready)

/-- Results of two ready matches settle to the same in either order. -/
theorem SettlesTo.comm {ms₁ ms₂ ms₁' ms₂' : List Match} {x y : Match} {o p : Outcome}
    (hc : Coherent ms []) (hx : x ∈ ms) (hy : y ∈ ms) (hne : y.id ≠ x.id) (hrx : x.isReady)
    (hry : y.isReady) (h₁ : SettlesTo (modify x.id (·.withOutcome o) ms) ms₁)
    (h₂ : SettlesTo (modify y.id (·.withOutcome p) ms₁) ms₂)
    (h₁' : SettlesTo (modify y.id (·.withOutcome p) ms) ms₁')
    (h₂' : SettlesTo (modify x.id (·.withOutcome o) ms₁') ms₂') : ms₂' = ms₂ := by
  have htwice := h₁'.twice hc hy hx hne.symm hrx h₂'
  rw [modify_comm (Match.id_withOutcome o) (Match.id_withOutcome p) hne.symm] at htwice
  refine htwice.unique (h₁.twice hc hx hy hne hry h₂) ?_
  exact (Fed.modify_withOutcome hc.fed x.id o).modify_withOutcome y.id p

end Settling

end Arena

namespace Tournament

open Arena

/-! ## Entering a result -/

/-- The result of a match may be recorded, and `t₁` is the tournament with the result in it, before
it goes on. -/
structure Takes (t : Tournament) (m : Match) (o : Outcome) (t₁ : Tournament) : Prop where
  mem : m ∈ t.arena
  check : checkOutcome m o = .ok ()
  settles : SettlesTo (Arena.modify m.id (·.withOutcome o) t.arena) t₁.arena
  tally : t.tally (m.withOutcome o) = .ok { t₁ with arena := t.arena }

theorem tally_keeps_arena {t t' : Tournament} {m : Match} (h : t.tally m = .ok t') :
    t'.arena = t.arena := by
  have htally := tally_arena t t.arena m
  rw [show ({ t with arena := t.arena } : Tournament) = t from rfl, h] at htally
  have harena := congrArg Tournament.arena (Except.ok.inj htally)
  exact harena

section Takes

variable {t t₁ t₂ : Tournament} {m : Match} {o : Outcome}

theorem Takes.record (h : Takes t m o t₁) (hc : Coherent t.arena []) :
    t.record m.id o = t₁.advance := by
  obtain ⟨ms, hdone, hset⟩ := hc.complete_settles h.mem h.check
  obtain rfl := hset.unique h.settles (Fed.modify_withOutcome hc.fed m.id o)
  refine record_eq_advance hdone (hset.find_won hc h.mem) ?_
  rw [tally_arena, h.tally]
  rfl

theorem exists_takes (hc : Coherent t.arena []) {id : MatchId} {effects : Effects}
    (h : (t.record id o).answer = .ok effects) :
    ∃ m t₁, t.match? id = some m ∧ Takes t m o t₁ := by
  obtain ⟨m, hm, ho⟩ := match_of_record h
  obtain ⟨hmem, rfl⟩ := mem_of_find? hm
  obtain ⟨ms, hdone, hset⟩ := hc.complete_settles hmem ho
  rcases htally : t.tally (m.withOutcome o) with f | t₀
  · have hrec := record_eq_refused hdone (hset.find_won hc hmem) (f := f)
      (by rw [tally_arena, htally]; rfl)
    rw [hrec] at h
    cases h
  · refine ⟨m, { t₀ with arena := ms }, hm, hmem, ho, hset, ?_⟩
    rw [htally, ← tally_keeps_arena htally]

/-- A ready match stays as it is while another result is entered. -/
theorem Takes.keeps (h : Takes t m o t₁) (hc : Coherent t.arena []) {a : Match}
    (ha : a ∈ t.arena) (hne : a.id ≠ m.id) (hready : a.isReady) : a ∈ t₁.arena := by
  obtain ⟨a', ha', hs⟩ := exists_right h.settles.settles
    ((hc.wired.ordered.mem_modify h.mem (f := (·.withOutcome o))).2 (.inr ⟨ha, hne⟩))
  rwa [hs.fixed (.inr hready)] at ha'

/-- Results can be entered in either order if the standings can take them so. -/
theorem Takes.swap {a : Match} {p : Outcome} (hm : Takes t m o t₁) (ha : Takes t₁ a p t₂)
    (hc : Coherent t.arena []) (hmem : a ∈ t.arena) (hne : a.id ≠ m.id)
    (hfold : ∀ {u₁ u₂ : Tournament}, t.tally (m.withOutcome o) = .ok u₁ →
      u₁.tally (a.withOutcome p) = .ok u₂ → ∃ v₁, t.tally (a.withOutcome p) = .ok v₁ ∧
        v₁.tally (m.withOutcome o) = .ok u₂) :
    ∃ s₁, Takes t a p s₁ ∧ Takes s₁ m o t₂ := by
  have hready := (checkOutcome_eq_ok_iff.1 ha.check).2.1
  have hready' := (checkOutcome_eq_ok_iff.1 hm.check).2.1
  have htally : Tournament.tally { t₁ with arena := t.arena } (a.withOutcome p) =
      .ok { t₂ with arena := t.arena } := by
    rw [tally_arena, ha.tally]
    rfl
  obtain ⟨v₁, hv₁, hv₂⟩ := hfold hm.tally htally
  obtain ⟨ms, -, hset⟩ := hc.complete_settles hmem ha.check
  have hs : Takes t a p { v₁ with arena := ms } :=
    ⟨hmem, ha.check, hset, by rw [hv₁, ← tally_keeps_arena hv₁]⟩
  have hm' : m ∈ ms := hs.keeps hc hm.mem (Ne.symm hne) hready'
  obtain ⟨ms', -, hset'⟩ := hset.coherent.complete_settles hm' hm.check
  obtain rfl := hm.settles.comm hc hm.mem hmem hne hready' hready ha.settles hset hset'
  refine ⟨_, hs, hm', hm.check, hset', ?_⟩
  rw [tally_arena, hv₂]
  rfl

end Takes

/-! ## Tournaments without tables -/

/-- A knockout, or a Swiss event with its books in order. -/
def Steady (t : Tournament) : Prop :=
  (t.format = .singleElimination ∨ t.format = .doubleElimination) ∧ t.swiss = none ∨
    t.format = .swiss ∧ ∃ e, Books t e

section Steady

variable {c : Config} {t t₁ t₂ : Tournament} {m : Match} {o : Outcome}

/-- As long as a match is to be played, an advance does nothing. -/
theorem Steady.advance (h : Steady t) (ho : t.Open) : t.advance = .done t {} := by
  have hpair : t.pairNextRound = .ok (t, []) := by
    rcases h with ⟨-, hs⟩ | ⟨-, e, he⟩
    · exact pairNextRound_league hs
    · obtain ⟨m, hm, hopen⟩ := ho
      have hres : t.roundResolved .main e.currentRound = false := by
        by_contra hres
        rw [he.resolved (by simpa using hres) m hm] at hopen
        cases hopen
      simp [pairNextRound, he.event, hres]
  have hfinals : t.drawFinals = .ok (t, []) := by
    unfold drawFinals
    rcases h with ⟨hf | hf, -⟩ | ⟨hf, -⟩ <;> rw [hf]
  have hover : t.isOver = false := by
    rw [isOver, Bool.eq_false_iff.2 ho.not_allStagesDone, Bool.and_false]
  simp only [Tournament.advance, hpair, hfinals, hover]
  rfl

theorem Takes.eq_withResult (h : Takes t m o t₁) (hs : Sound t) (hf : t.format = .swiss)
    {e : SwissEvent} (he : Books t e) : ∃ standings,
      Swiss.record e.standings (m.withOutcome o) = .ok standings ∧
        t₁ = t.withResult e m.id o standings := by
  have htally := h.tally
  rw [tally_swiss hf he.event] at htally
  obtain ⟨standings, hrec, htally⟩ := bind_eq_ok.1 htally
  obtain ⟨ms, hdone, hset⟩ := hs.coherent.complete_settles h.mem h.check
  rw [complete_of_targets (hs.coherent.wired.ordered.find? h.mem) h.check
    (he.rounds.apart m h.mem).1] at hdone
  cases hdone
  have harena := hset.unique h.settles (Fed.modify_withOutcome hs.coherent.fed m.id o)
  refine ⟨standings, hrec, ?_⟩
  have heq := congrArg (fun u : Tournament => { u with arena := t₁.arena })
    (Except.ok.inj htally)
  rw [withResult, harena]
  exact heq.symm

theorem Takes.steady (h : Takes t m o t₁) (hs : Sound t) (hst : Steady t) : Steady t₁ := by
  rcases hst with ⟨hf, hsw⟩ | ⟨hf, e, he⟩
  · have htally := h.tally
    rw [tally_of_knockout hf] at htally
    have hformat := congrArg Tournament.format (Except.ok.inj htally)
    have hswiss := congrArg Tournament.swiss (Except.ok.inj htally)
    refine .inl ⟨?_, hswiss.symm.trans hsw⟩
    rw [show t₁.format = t.format from hformat.symm]
    exact hf
  · obtain ⟨standings, hrec, rfl⟩ := h.eq_withResult hs hf he
    exact .inr ⟨hf, _, (he.withResult hs (hs.coherent.wired.ordered.find? h.mem) h.check hrec).2⟩

/-- A result that may be recorded is a win against another player. -/
theorem exists_beats (ho : checkOutcome m o = .ok ()) :
    ∃ l, Swiss.Beats (m.withOutcome o) o.winner l ∧ m.hasPlayer l := by
  obtain ⟨-, hready, hp⟩ := checkOutcome_eq_ok_iff.1 ho
  have h1 : (m.withOutcome o).player1 = m.player1 := rfl
  have h2 : (m.withOutcome o).player2 = m.player2 := rfl
  have hw : (m.withOutcome o).winner = some o.winner := rfl
  simp only [Match.isReady, Bool.and_eq_true] at hready
  obtain ⟨a, ha⟩ := Option.isSome_iff_exists.1 hready.1
  obtain ⟨b, hb⟩ := Option.isSome_iff_exists.1 hready.2
  simp only [Match.hasPlayer, ha, hb, Bool.or_eq_true, beq_iff_eq, Option.some.injEq] at hp ⊢
  by_cases haw : a = o.winner
  · exact ⟨b, ⟨rfl, hw, by simp [Match.loser, Match.winnerSlot, hw, h1, h2, ha, hb, haw]⟩,
      .inr rfl⟩
  · have hbw := hp.resolve_left haw
    exact ⟨a, ⟨rfl, hw, by simp [Match.loser, Match.winnerSlot, hw, h1, h2, ha, hb, haw, hbw]⟩,
      .inl rfl⟩

/-- The standings take two results in either order. -/
theorem Steady.tally_comm (hst : Steady t) (hs : Sound t) {a : Match} {p : Outcome}
    (hm : m ∈ t.arena) (ha : a ∈ t.arena) (hne : a.id ≠ m.id) (ho : checkOutcome m o = .ok ())
    (hp : checkOutcome a p = .ok ()) {u₁ u₂ : Tournament}
    (h₁ : t.tally (m.withOutcome o) = .ok u₁) (h₂ : u₁.tally (a.withOutcome p) = .ok u₂) :
    ∃ v₁, t.tally (a.withOutcome p) = .ok v₁ ∧ v₁.tally (m.withOutcome o) = .ok u₂ := by
  rcases hst with ⟨hf, -⟩ | ⟨hf, e, he⟩
  · rw [tally_of_knockout hf] at h₁
    cases h₁
    rw [tally_of_knockout hf] at h₂
    cases h₂
    exact ⟨t, tally_of_knockout hf _, tally_of_knockout hf _⟩
  · have hshare : ∀ q, m.hasPlayer q → a.hasPlayer q → False := fun q hmq haq =>
      hne (congrArg Match.id (he.rounds.eq_of_open (hs.rostered a ha q haq) ha hm
        (checkOutcome_eq_ok_iff.1 hp).1 (checkOutcome_eq_ok_iff.1 ho).1 haq hmq))
    obtain ⟨l, hbeats, hl⟩ := exists_beats ho
    obtain ⟨l', hbeats', hl'⟩ := exists_beats hp
    have hw := (checkOutcome_eq_ok_iff.1 ho).2.2
    have hw' := (checkOutcome_eq_ok_iff.1 hp).2.2
    have hdis : ∀ q, q = o.winner ∨ q = l → q ≠ p.winner ∧ q ≠ l' := by
      intro q hq
      have hmq : m.hasPlayer q := by rcases hq with rfl | rfl <;> assumption
      exact ⟨fun heq => hshare q hmq (heq ▸ hw'), fun heq => hshare q hmq (heq ▸ hl')⟩
    rw [tally_swiss hf he.event] at h₁
    obtain ⟨ss₁, hss₁, h₁⟩ := bind_eq_ok.1 h₁
    cases h₁
    rw [tally_swiss (by exact hf) rfl] at h₂
    obtain ⟨ss₂, hss₂, h₂⟩ := bind_eq_ok.1 h₂
    cases h₂
    obtain ⟨ss₁', hss₁', hss₂'⟩ := Swiss.record_comm hdis hbeats hbeats' hss₁ hss₂
    refine ⟨{ t with swiss := some { e with standings := ss₁' } }, ?_, ?_⟩
    · rw [tally_swiss hf he.event, hss₁']
      rfl
    · rw [tally_swiss (by exact hf) rfl, hss₂']
      rfl

theorem Live.steady (h : Live c t)
    (hf : c.format = .singleElimination ∨ c.format = .doubleElimination) : Steady t := by
  rw [← h.format] at hf
  refine .inl ⟨hf, ?_⟩
  cases h.running.stages with
  | whole _ _ hs => exact hs
  | swiss e hswiss => simp [hswiss] at hf
  | groups plan g hgroups hs => exact hs

theorem steady_of_create {stamp : Stamp} {draw : Draw} (h : create c stamp draw = .ok t)
    (hf : c.format = .singleElimination ∨ c.format = .doubleElimination ∨ c.format = .swiss) :
    Steady t := by
  have hlive := live_of_create h
  rcases hf with hf | hf | hf
  · exact hlive.steady (.inl hf)
  · exact hlive.steady (.inr hf)
  · exact .inr ⟨hlive.format.trans hf, (books_of_create h hf).imp fun _ he => he.1⟩

/-! ## One call before another -/

/-- The call would be taken, if the numbers stay in range. -/
def Accepts (t : Tournament) (call : MatchId × Outcome) : Prop :=
  ∃ m, t.match? call.1 = some m ∧ checkOutcome m call.2 = .ok ()

variable {id : MatchId} {effects : Effects}

theorem Live.record_of_ok (h : Live c t) (hok : (t.record id o).answer = .ok effects) :
    Live c (t.record id o).state :=
  h.record_of_ne (by rw [hok]; simp)

theorem Steady.record (hst : Steady t) (h : Live c t)
    (hok : (t.record id o).answer = .ok effects) : Steady (t.record id o).state := by
  have hlive := h.record_of_ok hok
  have hformat := hlive.format.trans h.format.symm
  have hdone : t.record id o = .done (t.record id o).state effects := by
    rw [Reply.done, ← hok]
  rcases hst with ⟨hf, -⟩ | ⟨hf, e, he⟩
  · rw [h.format] at hf
    exact hlive.steady hf
  · exact .inr ⟨hformat.trans hf, he.record h.running.sound hf hdone⟩

/-- A match that settling leaves alone is found as it was entered. -/
theorem match?_of_extends {ms : List Match} {t' : Tournament} (hrun : Running t')
    (hms : List.Forall₂ Match.Settles (Arena.modify m.id (·.withOutcome o) t.arena) ms)
    (he : { t with arena := ms }.Extends t') {b : Match}
    (hb : b ∈ Arena.modify m.id (·.withOutcome o) t.arena)
    (hfixed : b.status ≠ .pending ∨ b.isReady) : t'.match? b.id = some b := by
  obtain ⟨b', hb', hf⟩ := exists_right hms hb
  obtain rfl : b' = b := hf.fixed hfixed
  obtain ⟨new, hnew, -⟩ := he.arena
  refine hrun.sound.coherent.wired.ordered.find? (m := b') ?_
  rw [hnew]
  exact List.mem_append_left _ hb'

/-- What a taken call leaves of the other matches. -/
theorem Live.match?_of_ok (h : Live c t) (hok : (t.record id o).answer = .ok effects)
    {a : Match} {id' : MatchId} (ha : t.match? id' = some a)
    (hfixed : a.status.isResolved ∨ id' ≠ id ∧ a.isReady) :
    (t.record id o).state.match? id' = some a := by
  have hr : t.record id o = .done (t.record id o).state effects := by rw [Reply.done, ← hok]
  obtain ⟨m, ms, hm, ho, hms, hrun, he⟩ := h.running.exists_of_done hr
  obtain ⟨hmem, rfl⟩ := mem_of_find? hm
  obtain ⟨hamem, rfl⟩ := mem_of_find? ha
  have hne : a.id ≠ m.id := by
    rcases hfixed with hres | ⟨hne, -⟩
    · intro hid
      rw [h.running.sound.coherent.wired.ordered.eq_of_id_eq hamem hmem hid,
        (checkOutcome_eq_ok_iff.1 ho).1] at hres
      cases hres
    · exact hne
  have hbase : a ∈ Arena.modify m.id (·.withOutcome o) t.arena :=
    (h.running.sound.coherent.wired.ordered.mem_modify hmem).2 (.inr ⟨hamem, hne⟩)
  exact match?_of_extends hrun hms he hbase <| hfixed.imp
    (fun hres hp => by rw [hp] at hres; cases hres) And.right

/-- As long as another match is to be played, a result is only entered. -/
theorem Takes.record_of_open (h : Takes t m o t₁) (hs : Sound t) (hst : Steady t) {a : Match}
    (ha : a ∈ t₁.arena) (hopen : a.status.isResolved = false) :
    t.record m.id o = .done t₁ {} := by
  rw [h.record hs.coherent]
  exact (h.steady hs hst).advance ⟨a, ha, hopen⟩

/-- A taken call can be put off for one that is accepted already. -/
theorem Steady.exchange (hst : Steady t) (h : Live c t) {x a : MatchId × Outcome}
    (hne : a.1 ≠ x.1) (hx : Accepts t x) {calls : List (MatchId × Outcome)}
    (htaken : Taken t (a :: x :: calls)) : Taken t (x :: a :: calls) ∧
      t.recordAll (x :: a :: calls) = t.recordAll (a :: x :: calls) := by
  obtain ⟨id, o⟩ := a
  obtain ⟨id', o'⟩ := x
  obtain ⟨hok, hokx, hrest⟩ := htaken
  have hs := h.running.sound
  obtain ⟨effects, heffects⟩ := isOk_iff.1 hok
  obtain ⟨m, t₁, hm, htakes⟩ := exists_takes hs.coherent heffects
  obtain ⟨m', hm', hcheck⟩ := hx
  obtain ⟨-, rfl⟩ := mem_of_find? hm
  obtain ⟨hmem', rfl⟩ := mem_of_find? hm'
  have hopen := checkOutcome_eq_ok_iff.1 hcheck
  -- the match of the second call waits for it, so each of the two only enters itself
  have hkept := htakes.keeps hs.coherent hmem' hne.symm hopen.2.1
  have hrec := htakes.record_of_open hs hst hkept hopen.1
  obtain ⟨effects', heffects'⟩ := isOk_iff.1 hokx
  rw [hrec] at heffects'
  obtain ⟨m'', t₂, hm'', htakes'⟩ := exists_takes htakes.settles.coherent heffects'
  rw [Tournament.match?, htakes.settles.coherent.wired.ordered.find? hkept] at hm''
  obtain rfl := Option.some.inj hm''
  obtain ⟨s₁, hs₁, hs₂⟩ := htakes.swap htakes' hs.coherent hmem' hne.symm
    (hst.tally_comm hs htakes.mem hmem' hne.symm htakes.check hcheck)
  have hrec' := hs₁.record_of_open hs hst hs₂.mem (checkOutcome_eq_ok_iff.1 hs₂.check).1
  have hsame : (t.record m'.id o').state.record m.id o =
      (t.record m.id o).state.record m'.id o' := by
    rw [hrec, hrec']
    exact (hs₂.record hs₁.settles.coherent).trans (htakes'.record htakes.settles.coherent).symm
  refine ⟨⟨by rw [hrec']; rfl, ?_⟩, ?_⟩
  · rw [← hsame] at hokx hrest
    exact ⟨hokx, hrest⟩
  · simp only [recordAll, List.foldl_cons, hsame]

/-! ## Runs -/

/-- Nothing is recorded for a match that is resolved. -/
theorem Live.not_mem_of_resolved (h : Live c t) {calls : List (MatchId × Outcome)}
    (htaken : Taken t calls) {m : Match} (hm : t.match? id = some m) (hres : m.status.isResolved) :
    id ∉ calls.map Prod.fst := by
  induction calls generalizing t with
  | nil => simp
  | cons call calls ih =>
    obtain ⟨effects, heffects⟩ := isOk_iff.1 htaken.1
    rw [List.map_cons, List.mem_cons, not_or]
    refine ⟨?_, ih (h.record_of_ok heffects) htaken.2 (h.match?_of_ok heffects hm (.inl hres))⟩
    rintro rfl
    obtain ⟨a, ha, ho⟩ := match_of_record heffects
    rw [hm] at ha
    cases ha
    rw [(checkOutcome_eq_ok_iff.1 ho).1] at hres
    cases hres

/-- Nothing is recorded for a match again. -/
theorem Live.not_mem_of_taken (h : Live c t) {call : MatchId × Outcome}
    {calls : List (MatchId × Outcome)} (htaken : Taken t (call :: calls)) :
    call.1 ∉ calls.map Prod.fst := by
  obtain ⟨effects, heffects⟩ := isOk_iff.1 htaken.1
  cases h.running.recorded call.1 call.2 with
  | refused f hf hr =>
    rw [hr] at heffects
    cases heffects
  | overflows m hm ho hwhy hr =>
    rw [hr] at heffects
    cases heffects
  | done m ms t' effects' hm ho htally hms hr hrun he =>
    obtain ⟨hmem, hid⟩ := mem_of_find? hm
    rw [← hid] at hms
    have hwon := match?_of_extends hrun hms he
      ((h.running.sound.coherent.wired.ordered.mem_modify hmem).2 (.inl rfl))
      (.inl (by simp [Match.withOutcome]))
    refine (h.record_of_ok heffects).not_mem_of_resolved htaken.2 (m := m.withOutcome call.2) ?_ rfl
    rw [hr, ← hid]
    exact hwon

/-- A taken call that is accepted from the start can be made first. -/
theorem Steady.take_first (hst : Steady t) (h : Live c t) {x : MatchId × Outcome}
    (hx : Accepts t x) {pre post : List (MatchId × Outcome)}
    (htaken : Taken t (pre ++ x :: post)) : Taken t (x :: (pre ++ post)) ∧
      t.recordAll (x :: (pre ++ post)) = t.recordAll (pre ++ x :: post) := by
  induction pre generalizing t with
  | nil => exact ⟨htaken, rfl⟩
  | cons a pre ih =>
    obtain ⟨effects, heffects⟩ := isOk_iff.1 htaken.1
    have hne : a.1 ≠ x.1 := fun heq => h.not_mem_of_taken htaken (by simp [heq])
    obtain ⟨m, hm, ho⟩ := hx
    have hx' : Accepts (t.record a.1 a.2).state x :=
      ⟨m, h.match?_of_ok heffects hm (.inr ⟨hne.symm, (checkOutcome_eq_ok_iff.1 ho).2.1⟩), ho⟩
    obtain ⟨htaken', hstate⟩ := ih (hst.record h heffects) (h.record_of_ok heffects) hx' htaken.2
    have hafter : Taken t (a :: x :: (pre ++ post)) := ⟨htaken.1, htaken'⟩
    obtain ⟨hswap, hstate'⟩ := hst.exchange h hne ⟨m, hm, ho⟩ hafter
    exact ⟨hswap, hstate'.trans hstate⟩

/-- Runs that take the same calls end in the same tournament. -/
theorem Steady.recordAll_eq (hst : Steady t) (h : Live c t)
    {calls calls' : List (MatchId × Outcome)}
    (htaken : Taken t calls) (htaken' : Taken t calls') (hsame : ∀ x, x ∈ calls ↔ x ∈ calls') :
    t.recordAll calls = t.recordAll calls' := by
  induction calls generalizing t calls' with
  | nil =>
    have hnil : calls' = [] := List.eq_nil_iff_forall_not_mem.2 fun x hx => by
      simpa using (hsame x).2 hx
    rw [hnil]
  | cons x calls ih =>
    obtain ⟨pre, post, rfl⟩ := List.append_of_mem ((hsame x).1 List.mem_cons_self)
    obtain ⟨effects, heffects⟩ := isOk_iff.1 htaken.1
    obtain ⟨m, hm, ho⟩ := match_of_record heffects
    obtain ⟨hfirst, hstate⟩ := hst.take_first h ⟨m, hm, ho⟩ htaken'
    rw [← hstate]
    refine ih (hst.record h heffects) (h.record_of_ok heffects) htaken.2 hfirst.2 fun y => ?_
    -- the first call is made only once in either run
    have hnot : ∀ {l : List (MatchId × Outcome)}, Taken t (x :: l) → x ∉ l := fun ht hmem =>
      h.not_mem_of_taken ht (List.mem_map_of_mem hmem)
    have hy := hsame y
    by_cases hxy : y = x
    · subst hxy
      exact iff_of_false (hnot htaken) (hnot hfirst)
    · simpa [hxy] using hy

end Steady

/-- In a knockout or a Swiss event the order of the results does not matter: runs of taken calls
that record the same results end in the same tournament. -/
theorem recordAll_eq_of_mem_iff {c : Config} {stamp : Stamp} {draw : Draw} {t : Tournament}
    (h : create c stamp draw = .ok t)
    (hf : c.format = .singleElimination ∨ c.format = .doubleElimination ∨ c.format = .swiss)
    {calls calls' : List (MatchId × Outcome)} (htaken : Taken t calls) (htaken' : Taken t calls')
    (hsame : ∀ call, call ∈ calls ↔ call ∈ calls') : t.recordAll calls = t.recordAll calls' :=
  (steady_of_create h hf).recordAll_eq (live_of_create h) htaken htaken' hsame

/-- Both matches of round one, and one that their losers play. -/
def firstResults : List (MatchId × Outcome) :=
  [(⟨1⟩, ⟨"D", {}⟩), (⟨2⟩, ⟨"B", {}⟩), (⟨4⟩, ⟨"C", {}⟩)]

def otherOrder : List (MatchId × Outcome) :=
  [(⟨2⟩, ⟨"B", {}⟩), (⟨1⟩, ⟨"D", {}⟩), (⟨4⟩, ⟨"C", {}⟩)]

theorem recordAll_eq_of_mem_iff_smallCup :
    ∃ t, create (smallCup .doubleElimination) smallStamp .seeded = .ok t ∧
      Taken t firstResults ∧ Taken t otherOrder ∧
      (∀ call, call ∈ firstResults ↔ call ∈ otherOrder) ∧
      t.recordAll firstResults = t.recordAll otherOrder := by
  have hrun : (create (smallCup .doubleElimination) smallStamp .seeded).toOption.map (fun t =>
      (decide (Taken t firstResults), decide (Taken t otherOrder))) = some (true, true) := by cbv
  have hsame : ∀ call, call ∈ firstResults ↔ call ∈ otherOrder := fun call =>
    (List.Perm.swap _ _ _).mem_iff
  rcases h : create (smallCup .doubleElimination) smallStamp .seeded with f | t
  · rw [h] at hrun
    cases hrun
  · rw [h] at hrun
    simp only [Except.toOption, Option.map_some, Option.some.injEq, Prod.mk.injEq,
      decide_eq_true_eq] at hrun
    exact ⟨t, rfl, hrun.1, hrun.2, hsame,
      recordAll_eq_of_mem_iff h (.inr (.inl rfl)) hrun.1 hrun.2 hsame⟩

end Tournament

end Tourney
