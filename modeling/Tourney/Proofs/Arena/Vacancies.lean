import Tourney.Proofs.Arena.Flow

/-!
# Vacancies

A seat falls vacant if the match that feeds it is skipped, or is won against nobody. Where every
match that drops its loser is sure of two players, neither happens while an arena goes on, save to
the second seat of a reset (`Coherent.of_vacated`). So a match that has not been skipped by then
never is (`Coherent.skipped_of_evolves`).
-/

namespace Tourney

/-- What no result changes about the seats of a match. -/
structure Match.Regular (m : Match) : Prop where
  once : ∀ x, m.seats x ≤ 1
  skipped : m.status = .skipped → m.bracket = some .losers
  /-- A match that drops its loser somewhere waits for nobody in vain. -/
  awaited : m.status.isResolved = false → m.isGrandFinal = false → m.loserNext ≠ none →
    ∀ slot, m.seat slot ≠ .settled none

namespace Match

variable {m : Match}

theorem AtRest.seats_of_skipped (h : m.AtRest) (hs : m.status = .skipped) (slot : Slot) :
    m.seat slot = .settled none := by
  unfold AtRest at h
  rw [hs] at h
  exact h.2 slot

/-- Where somebody sits nothing is skipped. -/
theorem AtRest.not_skipped (h : m.AtRest) {slot : Slot} (hs : m.seat slot ≠ .settled none) :
    m.status ≠ .skipped :=
  fun hc => hs (h.seats_of_skipped hc slot)

/-- A match that is sure to be won sends somebody on. -/
theorem sends_winner_ne_vacant
    (h : m.status.isResolved → m.status = .complete ∧ ∃ w, m.winner = some w ∧ m.hasPlayer w) :
    m.sends m.winner ≠ .settled none := by
  by_cases hres : m.status.isResolved
  · obtain ⟨hc, w, hw, -⟩ := h hres
    simp [sends, hc, hw, Seat.settled]
  · rw [sends_of_unresolved (by simpa using hres)]
    exact (Seat.settled_ne_open none).symm

/-- A match that is still to be played is not vacant altogether. -/
theorem AtRest.exists_seat (h : m.AtRest) (ho : m.status.isResolved = false) :
    ∃ slot, m.seat slot ≠ .settled none := by
  by_contra hnone
  have hv : ∀ slot, m.seat slot = .settled none := by simpa using hnone
  have hready := Arena.ready_of_seats h ho fun slot => by
    rw [hv slot]
    exact Seat.settled_ne_open none
  have h1 : m.seat1 = .settled none := hv .first
  simp [isReady, player1, h1, Seat.settled] at hready

/-- A match won against nobody has a vacant seat. -/
theorem AtRest.exists_vacant (h : m.AtRest) (hp : ∀ slot, (m.seat slot).Proper)
    (hc : m.status = .complete) (hl : m.loser = none) : ∃ slot, m.seat slot = .settled none := by
  unfold AtRest at h
  rw [hc] at h
  obtain ⟨⟨w, hw, hplayer⟩, hne⟩ := h
  obtain ⟨slot, hnone⟩ : ∃ slot, (m.seat slot).player = none := by
    by_cases h1 : m.player1 = some w
    · have h2 : m.player2 = none := by simpa [loser, winnerSlot, hw, h1] using hl
      exact ⟨.second, h2⟩
    · have h2 : m.player2 = some w := by simpa [hasPlayer, h1] using hplayer
      have h1 : m.player1 = none := by simpa [loser, winnerSlot, hw, h1, h2] using hl
      exact ⟨.first, h1⟩
  refine ⟨slot, ?_⟩
  rcases (hp slot).cases with hs | hs | ⟨p, hs⟩
  · exact absurd hs (hne slot)
  · exact hs
  · rw [hs] at hnone
    cases hnone

end Match

namespace Arena

/-- However the matches are played, they stay regular. -/
def Regular (fresh : List Match) : Prop :=
  ∀ ms, Coherent ms [] → List.Forall₂ Match.Evolves fresh ms → ∀ m ∈ ms, m.Regular

section Evolving

variable {ms kept new : List Match}

/-- Only the second seat of a reset falls vacant, and somebody sits in the first. -/
theorem Coherent.of_vacated (hc : Coherent ms []) (hc' : Coherent (kept ++ new) [])
    (he : List.Forall₂ Match.Evolves ms kept) (hreg : ∀ m ∈ ms, m.Regular)
    {m m' : Match} (hm : m ∈ ms) (hm' : m' ∈ kept) (hid : m'.id = m.id) {slot : Slot}
    (hs : m.seat slot = {}) (hs' : m'.seat slot = .settled none) :
    m.targets = [] ∧ m'.seat .first ≠ .settled none := by
  obtain ⟨f, hf, ho, hlt, ht⟩ := hc.exists_feeder hm hs
  obtain ⟨f', hf', hev⟩ := exists_right he hf
  have hmem := List.mem_append_left new hf'
  have hrest := hc'.atRest hmem
  -- a vacant seat of the match behind it has been vacant before, as that match leads somewhere
  have hbefore : ∀ slot', f'.seat slot' = .settled none → f.seat slot' = .settled none := by
    intro slot' hv
    rcases (hc.proper f hf slot').cases with hopen | hvacant | ⟨p, hp⟩
    · have hend := (hc.of_vacated hc' he hreg hf hf' (Match.outline_id hev.outline) hopen hv).1
      rw [hend] at ht
      cases ht
    · exact hvacant
    · rw [hev.seats slot' (by rw [hp]; exact Seat.settled_ne_open _), hp] at hv
      simp [Seat.settled] at hv
  obtain ⟨s, hl⟩ := Match.exists_mem_outputs ((Match.outline_targets hev.outline).symm ▸ ht)
  obtain rfl : Seat.settled none = s :=
    hs'.symm.trans (hc'.seat_eq hmem (List.mem_append_left _ hm') hl hid)
  cases hst : f'.status with
  | skipped =>
    obtain ⟨slot', hseat⟩ := (hc.atRest hf).exists_seat ho
    exact absurd (hbefore slot' (hrest.seats_of_skipped hst slot')) hseat
  | complete =>
    have hsends : ∀ p, f'.sends p = .settled p := fun p => by simp [Match.sends, hst]
    obtain ⟨w, hw⟩ : ∃ w, f'.winner = some w := by
      unfold Match.AtRest at hrest
      rw [hst] at hrest
      exact hrest.1.imp fun _ hw => hw.1
    simp only [Match.outputs, List.mem_append, List.mem_map, Option.mem_toList, Prod.mk.injEq,
      hsends, hw] at hl
    rcases hl with ⟨r, -, -, hnone⟩ | ⟨r, hnext, rfl, hnone⟩
    · simp [Seat.settled] at hnone
    by_cases hg : f.isGrandFinal
    · obtain ⟨id, hn, hln, hend⟩ := hc.wired.grandFinal f hf hg
      rw [Match.outline_loserNext hev.outline, hln, Option.some.injEq, SeatRef.mk.injEq] at hnext
      obtain rfl : id = m.id := hnext.1
      refine ⟨hend m hm rfl, ?_⟩
      have hfirst : (⟨m.id, .first⟩, Seat.settled (some w)) ∈ f'.outputs := by
        simp [Match.outputs, Match.outline_next hev.outline, hn, hsends, hw]
      have hseat : m'.seat .first = .settled (some w) :=
        hc'.seat_eq hmem (List.mem_append_left _ hm') hfirst hid
      simp [hseat, Seat.settled]
    · have hg : f.isGrandFinal = false := by simpa using hg
      have hloser : f'.loser = none := by
        rw [Match.dropped, Match.outline_isGrandFinal hev.outline, hg] at hnone
        cases hl : f'.loser <;> simp_all [Seat.settled]
      obtain ⟨slot', hv⟩ := hrest.exists_vacant (hc'.proper f' hmem) hst hloser
      rw [Match.outline_loserNext hev.outline] at hnext
      exact absurd (hbefore slot' hv) ((hreg f hf).awaited ho hg (by simp [hnext]) slot')
  | _ =>
    have hsends : ∀ p, f'.sends p = {} := fun p => by simp [Match.sends, hst]
    simp only [Match.outputs, List.mem_append, List.mem_map, Prod.mk.injEq, hsends] at hl
    rcases hl with ⟨_, _, _, hopen⟩ | ⟨_, _, _, hopen⟩ <;>
      exact absurd hopen.symm (Seat.settled_ne_open none)
termination_by m.id.val.toNat
decreasing_by exact hlt

/-- Results skip no match. -/
theorem Coherent.skipped_of_evolves (hc : Coherent ms []) (hc' : Coherent (kept ++ new) [])
    (he : List.Forall₂ Match.Evolves ms kept) (hreg : ∀ m ∈ ms, m.Regular)
    {m m' : Match} (hm : m ∈ ms) (hm' : m' ∈ kept) (hev : m.Evolves m')
    (hs : m'.status = .skipped) : m.status = .skipped := by
  by_cases hres : m.status.isResolved
  · rwa [hev.fixed hres] at hs
  have hv := (hc'.atRest (List.mem_append_left _ hm')).seats_of_skipped hs
  obtain ⟨slot, hseat⟩ := (hc.atRest hm).exists_seat (by simpa using hres)
  rcases (hc.proper m hm slot).cases with hopen | hvacant | ⟨p, hp⟩
  · exact absurd (hv .first)
      (hc.of_vacated hc' he hreg hm hm' (Match.outline_id hev.outline) hopen (hv slot)).2
  · exact absurd hvacant hseat
  · have hkept := hev.seats slot (by rw [hp]; exact Seat.settled_ne_open _)
    rw [hv slot, hp] at hkept
    simp [Seat.settled] at hkept

end Evolving

end Arena

end Tourney
