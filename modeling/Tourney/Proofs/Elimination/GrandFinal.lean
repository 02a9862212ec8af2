import Tourney.Proofs.Elimination.Regular

/-!
# The grand final and its reset

How a double elimination ends. The winners champion comes to the grand final undefeated and the
losers champion with one loss (`losses_before`); if the champion of the winners wins there, the
reset is settled without play (`Finish.settled`), and otherwise the two meet again
(`Finish.played`). The reset is the last match of all (`ends_doubleTree`).
-/

namespace Tourney.Elimination

open Arena Finset Seeding Place

/-- What a grand final that has been won makes of its reset. -/
structure Decides (g r : Match) : Prop where
  upheld : g.winner = g.player1 →
    r.status = .complete ∧ r.winner = g.winner ∧ r.seat .second = .settled none
  overturned : g.winner = g.player2 →
    r.isReady ∧ r.player1 = g.winner ∧ r.player2 = g.player1

/-- A grand final `g` and its reset `r` as the end of a double elimination. -/
structure Ending (ms : List Match) (g r : Match) : Prop where
  mem : g ∈ ms
  resetMem : r ∈ ms
  grandFinal : ∀ m ∈ ms, m.isGrandFinal ↔ m = g
  reset : ∀ m ∈ ms, m.isGrandFinalReset ↔ m = r
  last : ∀ m ∈ ms, m.next = none ↔ m = r
  closed : r.status = .complete ↔ ∀ m ∈ ms, m.status.isResolved
  /-- The players of the grand final are an undefeated one and one who has lost once. -/
  ready : g.isReady → g.status.isResolved = false → ∃ p1 p2, g.player1 = some p1 ∧
    g.player2 = some p2 ∧ lossesOf ms p1 = 0 ∧ lossesOf ms p2 = 1
  awaits : g.status.isResolved = false → ∀ slot, r.seat slot = {}
  decides : g.status = .complete → Decides g r

/-- However the matches are played, a grand final and its reset are the end of them. -/
def Ends (fresh : List Match) : Prop :=
  ∀ ms, Coherent ms [] → List.Forall₂ Match.Evolves fresh ms → ∃ g r, Ending ms g r

/-! ## Winning the grand final -/

section Finish

variable {g r : Match} {w v : Player} (h : Finish g r) (hc : g.status = .complete)
  (hw : g.winner = some w)

include h hc hw

/-- A grand final won from the first seat settles its reset. -/
theorem Finish.settled (h1 : g.player1 = some w) :
    r.status = .complete ∧ r.winner = some w ∧ r.seat .second = .settled none := by
  have hwins : r.wins w = 1 :=
    h.wins_reset (by simp [Match.wins, hc, hw]) (by rw [Seat.holds]; exact if_pos h1)
  have hwon : r.status = .complete ∧ r.winner = some w := by
    unfold Match.wins at hwins
    split_ifs at hwins with hwon
    exact hwon
  have hslot : g.winnerSlot = some .first := by simp [Match.winnerSlot, hw, h1]
  have hdropped : g.dropped = none := if_pos ⟨h.isGrandFinal, hslot⟩
  exact ⟨hwon.1, hwon.2, by simp [h.second, Match.sends, hc, hdropped]⟩

/-- A grand final won from the second seat is played once more. -/
theorem Finish.played (h1 : g.player1 = some v) (h2 : g.player2 = some w) (hne : v ≠ w) :
    r.isReady ∧ r.player1 = some w ∧ r.player2 = some v := by
  have hslot : g.winnerSlot = some .second := by simp [Match.winnerSlot, hw, h1, h2, hne]
  have hdropped : g.dropped = some v := by simp [Match.dropped, Match.loser, hslot, h1]
  have hfirst : r.player1 = some w := by
    change (r.seat .first).player = some w
    simp [h.first, Match.sends, hc, hw, Seat.settled]
  have hsecond : r.player2 = some v := by
    change (r.seat .second).player = some v
    simp [h.second, Match.sends, hc, hdropped, Seat.settled]
  exact ⟨by simp [Match.isReady, hfirst, hsecond], hfirst, hsecond⟩

end Finish

/-! ## Coming to the grand final -/

section Double

variable {slots : List (Option Player)} {k : Nat} {first : MatchId} {stage : Stage}
  {now : Place → Match} {x : Player}
  (h : Played (doublePlaces k) (placeMatch slots k first stage) now) (hk : 1 ≤ k)

theorem placeMatch_isGrandFinalReset {y : Place} :
    (placeMatch slots k first stage y).isGrandFinalReset ↔ y = .reset := by
  cases y with
  | winners r p =>
    simp only [placeMatch, winnersMatch, treeMatch]
    split_ifs <;> simp [Match.seated]
  | minor i p => simp [placeMatch, minorMatch]
  | major i p => simp [placeMatch, majorMatch]
  | grandFinal => simp [placeMatch, Elimination.grandFinal]
  | reset => simp [placeMatch, grandFinalReset]

include h

theorem isGrandFinal_iff {y : Place} (hy : y ∈ doublePlaces k) :
    (now y).isGrandFinal ↔ y = .grandFinal := by
  rw [Match.outline_isGrandFinal (h.evolves y hy).outline]
  by_cases hne : y = .grandFinal
  · subst hne
    exact iff_of_true rfl rfl
  · simp [placeMatch_isGrandFinal hne, hne]

theorem isGrandFinalReset_iff {y : Place} (hy : y ∈ doublePlaces k) :
    (now y).isGrandFinalReset ↔ y = .reset := by
  rw [Match.outline_isGrandFinalReset (h.evolves y hy).outline, placeMatch_isGrandFinalReset]

theorem next_eq_none_iff {y : Place} (hy : y ∈ doublePlaces k) :
    (now y).next = none ↔ y = .reset := by
  constructor
  · exact eq_reset_of_next h hy
  · rintro rfl
    rw [h.next_eq hy]
    rfl

include hk

theorem reset_awaits (ho : (now .grandFinal).status.isResolved = false) (slot : Slot) :
    (now .reset).seat slot = {} := by
  have hf := finish h hk
  cases slot with
  | first => rw [hf.first, Match.sends_of_unresolved ho]
  | second => rw [hf.second, Match.sends_of_unresolved ho]

theorem reset_complete_iff (hroot : ∀ p < 2 ^ (k - 1), ∃ x, slots[2 * p]? = some (some x)) :
    (now .reset).status = .complete ↔ ∀ m ∈ (doublePlaces k).map now, m.status.isResolved := by
  constructor
  · intro hr m hm
    -- whatever is open, something that leads nowhere is
    by_contra hopen
    obtain ⟨m', hm', ho', -, hnext⟩ := h.coherent.exists_end hm (by simpa using hopen)
    obtain ⟨y, hy, rfl⟩ := List.mem_map.1 hm'
    rw [eq_reset_of_next h hy hnext, hr] at ho'
    cases ho'
  · intro hall
    exact (reset_won h hk hroot fun x hx => hall _ (List.mem_map_of_mem hx)).1

variable (hlen : slots.length = 2 ^ k) (hcount : ∀ x, slots.count (some x) ≤ 1)

include hlen hcount

/-- Whoever comes to the grand final by the second seat has lost once, and by the first never. -/
theorem losses_before (ho : (now .grandFinal).status.isResolved = false)
    (hseat : 1 ≤ (now .grandFinal).seats x) :
    lossesOf ((doublePlaces k).map now) x = (now .grandFinal).seat2.holds x := by
  have hw := (ladder h hk).flow (x := x) hlen (le_refl k)
  have hl := flow_losers h hk (x := x) (show k - 1 < k by omega)
  obtain ⟨h1, h2⟩ := holds_grandFinal h hk hlen (x := x)
  rw [Nat.sub_add_cancel hk, ← h2] at hl
  rw [← h1] at hw
  have hg : (now .grandFinal).loses x = 0 := if_neg fun hc => by
    rw [hc.1] at ho
    cases ho
  have hr : (now .reset).loses x = 0 := if_neg fun hc => by
    have hu := (h.atRest reset_mem).unsettled (reset_awaits h hk ho .first)
    rw [hu.1] at hc
    cases hc.1
  have hx := hcount x
  rw [Match.seats] at hseat
  rw [lossesOf_eq_sum, List.map_map, Function.comp_def, sum_doublePlaces, hg, hr]
  -- the seat is the one entry of the draw, so only the way to it counts losses
  simp only [sum_add_distrib] at hl ⊢
  omega

theorem finalists_apart {v w : Player} (h1 : (now .grandFinal).player1 = some v)
    (h2 : (now .grandFinal).player2 = some w) : v ≠ w := by
  rintro rfl
  have hv1 : (now .grandFinal).seat1.holds v = 1 := if_pos h1
  have hv2 : (now .grandFinal).seat2.holds v = 1 := if_pos h2
  have honce := (seats_grandFinal_le h hk hlen).trans (hcount v)
  rw [Match.seats] at honce
  omega

theorem losses_finalists (hready : (now .grandFinal).isReady)
    (ho : (now .grandFinal).status.isResolved = false) :
    ∃ p1 p2, (now .grandFinal).player1 = some p1 ∧ (now .grandFinal).player2 = some p2 ∧
      lossesOf ((doublePlaces k).map now) p1 = 0 ∧ lossesOf ((doublePlaces k).map now) p2 = 1 := by
  simp only [Match.isReady, Bool.and_eq_true, Option.isSome_iff_exists] at hready
  obtain ⟨⟨p1, h1⟩, p2, h2⟩ := hready
  have hne := finalists_apart h hk hlen hcount h1 h2
  have hplayer1 : (now .grandFinal).hasPlayer p1 := by simp [Match.hasPlayer, h1]
  have hplayer2 : (now .grandFinal).hasPlayer p2 := by simp [Match.hasPlayer, h2]
  refine ⟨p1, p2, h1, h2, ?_, ?_⟩
  · rw [losses_before h hk hlen hcount ho (Match.hasPlayer_iff_seats.1 hplayer1)]
    exact if_neg fun h1' => hne (Option.some.inj (h1'.symm.trans h2))
  · rw [losses_before h hk hlen hcount ho (Match.hasPlayer_iff_seats.1 hplayer2)]
    exact if_pos h2

theorem grandFinal_decides (hroot : ∀ p < 2 ^ (k - 1), ∃ x, slots[2 * p]? = some (some x))
    (hg : (now .grandFinal).status = .complete) : Decides (now .grandFinal) (now .reset) := by
  have hf := finish h hk
  have hvacant := grandFinal_first_ne_vacant h hk hroot
  obtain ⟨-, w, hw, -⟩ := hf.rest.exists_winner (by rw [hg]; rfl) .first hvacant
  refine ⟨fun h1 => ?_, fun h2 => ?_⟩
  · rw [hw] at h1 ⊢
    exact hf.settled hg hw h1.symm
  · rw [hw] at h2 ⊢
    obtain ⟨v, h1⟩ : ∃ v, (now .grandFinal).player1 = some v := by
      rcases (h.coherent.proper _ (List.mem_map_of_mem grandFinal_mem) .first).cases with
        hs | hs | ⟨v, hs⟩
      · have hu := hf.rest.unsettled hs
        rw [hu.1] at hg
        cases hg
      · exact absurd hs hvacant
      · exact ⟨v, congrArg Seat.player hs⟩
    rw [h1]
    exact hf.played hg hw h1 h2.symm (finalists_apart h hk hlen hcount h1 h2.symm)

end Double

theorem ends_doubleTree {entrants : List Player} {first : MatchId} {stage : Stage}
    (hn : 2 ≤ entrants.length) (hnd : entrants.Nodup)
    (hfit : first.val.toNat + (2 * bracketSize entrants.length - 1) ≤ UInt32.size) :
    Ends (doubleTree (bracketSlots entrants) (rounds entrants.length) first stage) := by
  intro ms hc he
  rw [doubleTree_eq_map] at he
  have hk := rounds_pos entrants.length
  have hlayout : Layout _ (placeMatch (bracketSlots entrants) _ first stage) _ _ :=
    doubleLayout hk hfit
  obtain ⟨now, rfl, h⟩ := hlayout.exists_played hc he
  have hlen : (bracketSlots entrants).length = 2 ^ rounds entrants.length :=
    length_bracketSlots entrants
  have hroot := bracketSlots_even hn
  have hcount := count_bracketSlots_le hnd
  -- a match is known by its place
  have heq : ∀ {y y' : Place}, y ∈ doublePlaces _ → y' ∈ doublePlaces _ →
      (now y = now y' ↔ y = y') := fun {y y'} hy hy' =>
    ⟨fun heq => hlayout.inj hy hy' (by rw [← h.id_eq hy, heq, h.id_eq hy']), fun heq => by rw [heq]⟩
  refine ⟨now .grandFinal, now .reset, ?_⟩
  constructor
  case mem => exact List.mem_map_of_mem grandFinal_mem
  case resetMem => exact List.mem_map_of_mem reset_mem
  case grandFinal =>
    exact List.forall_mem_map.2 fun y hy =>
      (isGrandFinal_iff h hy).trans (heq hy grandFinal_mem).symm
  case reset =>
    exact List.forall_mem_map.2 fun y hy =>
      (isGrandFinalReset_iff h hy).trans (heq hy reset_mem).symm
  case last =>
    exact List.forall_mem_map.2 fun y hy =>
      (next_eq_none_iff h hy).trans (heq hy reset_mem).symm
  case closed => exact reset_complete_iff h hk hroot
  case ready => exact losses_finalists h hk hlen hcount
  case awaits => exact reset_awaits h hk
  case decides => exact grandFinal_decides h hk hlen hcount hroot

end Tourney.Elimination
