import Mathlib.Algebra.Order.BigOperators.Group.Finset
import Tourney.Proofs.Arena.Vacancies
import Tourney.Proofs.Elimination.Opening

/-!
# Regular brackets

Whatever has been played, nobody has both seats of a match, only losers matches are skipped, and a
match that drops its loser somewhere is sure of two players (`regular_tree`,
`regular_doubleTree`). The seats of a round are counted by the ways into it, and a player of the
draw has come one way at most.
-/

namespace Tourney

namespace Elimination

open Arena Finset Seeding Place

/-! ## The ladder -/

namespace Ladder

variable {slots : List (Option Player)} {k : Nat} {W : Nat → Nat → Match} {x : Player}
  (h : Ladder slots k W)

include h

theorem sends_ne_vacant (hroot : ∀ p < 2 ^ (k - 1), ∃ x, slots[2 * p]? = some (some x))
    {r p : Nat} (hr : 1 ≤ r) (hrk : r ≤ k) (hp : p < 2 ^ (k - r)) :
    (W r p).sends (W r p).winner ≠ .settled none :=
  Match.sends_winner_ne_vacant (h.won hroot hr hrk hp)

/-- Past the first round no seat is left vacant. -/
theorem seat_ne_vacant (hroot : ∀ p < 2 ^ (k - 1), ∃ x, slots[2 * p]? = some (some x))
    {r q : Nat} (hr : 1 < r) (hrk : r ≤ k) (hq : q < 2 ^ (k - r)) (s : Slot) :
    (W r q).seat s ≠ .settled none := by
  obtain ⟨r, rfl⟩ : ∃ r', r = r' + 1 := ⟨r - 1, by omega⟩
  rw [h.climbs r q s (by omega) hrk hq]
  exact h.sends_ne_vacant hroot (by omega) (by omega) (double_lt hrk hq s)

/-- A match of the first round has both its players, or a bye, from the start. -/
theorem awaited (hroot : ∀ p < 2 ^ (k - 1), ∃ x, slots[2 * p]? = some (some x)) {r p : Nat}
    (hr : 1 ≤ r) (hrk : r ≤ k) (hp : p < 2 ^ (k - r)) (ho : (W r p).status.isResolved = false)
    (slot : Slot) : (W r p).seat slot ≠ .settled none := by
  rcases Nat.eq_or_lt_of_le hr with rfl | hr
  · have hready := ready_of_seats (h.rest 1 p hr hrk hp) ho fun s => by
      rw [h.opening p s hp]
      exact Seat.settled_ne_open _
    intro hc
    have hplayer : ((W 1 p).seat slot).player = none := by rw [hc]; rfl
    cases slot <;> simp_all [Match.isReady, Match.player1, Match.player2, Match.seat]
  · exact h.seat_ne_vacant hroot hr hrk hp slot

variable (hlen : slots.length = 2 ^ k)

include hlen

theorem reach_le {j : Nat} (hj : j ≤ k) : reach slots k W x j ≤ slots.count (some x) := by
  have := h.flow (x := x) hlen hj
  omega

/-- A player has no more seats in a round than in the draw. -/
theorem seats_le {r p : Nat} (hr : 1 ≤ r) (hrk : r ≤ k) (hp : p < 2 ^ (k - r)) :
    (W r p).seats x ≤ slots.count (some x) := by
  obtain ⟨j, rfl⟩ : ∃ j, r = j + 1 := ⟨r - 1, by omega⟩
  refine (single_le_sum (f := fun p => (W (j + 1) p).seats x) (fun _ _ => Nat.zero_le _)
    (mem_range.2 hp)).trans ?_
  rw [h.sum_seats hlen hrk]
  exact h.reach_le hlen (by omega)

end Ladder

section Tree

variable {entrants : List Player} {first : MatchId} {stage : Stage}

theorem regular_tree (hn : 2 ≤ entrants.length) (hnd : entrants.Nodup)
    (hfit : first.val.toNat + (bracketSize entrants.length - 1) < UInt32.size) :
    Regular (tree (bracketSlots entrants) (rounds entrants.length) first stage) := by
  intro ms hc he m hm
  rw [tree_eq_map] at he
  obtain ⟨now, rfl, h⟩ := (treeLayout hfit).exists_played hc he
  obtain ⟨⟨r, p⟩, hx, rfl⟩ := List.mem_map.1 hm
  obtain ⟨hr, hrk, hp⟩ := mem_treePlaces.1 hx
  have hladder := treeLadder h (rounds_pos _)
  have hroot := bracketSlots_even hn
  refine ⟨fun x => ?_, fun hs => ?_, fun _ _ hl => ?_⟩
  · exact (hladder.seats_le (length_bracketSlots entrants) hr hrk hp).trans
      (count_bracketSlots_le hnd x)
  · exact absurd hs ((h.atRest hx).not_skipped (hladder.first_ne_vacant hroot hr hrk hp))
  · rw [Match.outline_loserNext (h.evolves _ hx).outline, treeMatch_loserNext] at hl
    exact absurd rfl hl

end Tree

/-! ## The double elimination -/

section Double

variable {slots : List (Option Player)} {k : Nat} {first : MatchId} {stage : Stage}
  {now : Place → Match} {x : Player}
  (h : Played (doublePlaces k) (placeMatch slots k first stage) now) (hk : 1 ≤ k)

include h hk

theorem grandFinal_first_ne_vacant
    (hroot : ∀ p < 2 ^ (k - 1), ∃ x, slots[2 * p]? = some (some x)) :
    (now .grandFinal).seat .first ≠ .settled none := by
  have hlast := winners_mem.2 ⟨hk, le_refl k, Nat.two_pow_pos (k - k)⟩
  rw [seat_of_next h hk hlast (l := (.grandFinal, .first)) (by simp [feeds])]
  exact (ladder h hk).sends_ne_vacant hroot hk (le_refl k) (Nat.two_pow_pos _)

theorem reset_first_ne_vacant
    (hroot : ∀ p < 2 ^ (k - 1), ∃ x, slots[2 * p]? = some (some x)) :
    (now .reset).seat .first ≠ .settled none := by
  rw [(finish h hk).first]
  exact Match.sends_winner_ne_vacant fun hres => (h.atRest grandFinal_mem).exists_winner hres
    .first (grandFinal_first_ne_vacant h hk hroot)

/-- Only losers matches are skipped. -/
theorem bracket_of_skipped (hroot : ∀ p < 2 ^ (k - 1), ∃ x, slots[2 * p]? = some (some x))
    {y : Place} (hy : y ∈ doublePlaces k) (hs : (now y).status = .skipped) :
    (now y).bracket = some .losers := by
  have hbracket := Match.outline_bracket (h.evolves y hy).outline
  have hrest := h.atRest hy
  cases y with
  | winners r p =>
    obtain ⟨hr, hrk, hp⟩ := winners_mem.1 hy
    exact absurd hs (hrest.not_skipped ((ladder h hk).first_ne_vacant hroot hr hrk hp))
  | minor i p => exact hbracket
  | major i p => exact hbracket
  | grandFinal => exact absurd hs (hrest.not_skipped (grandFinal_first_ne_vacant h hk hroot))
  | reset => exact absurd hs (hrest.not_skipped (reset_first_ne_vacant h hk hroot))

theorem survive_le {j : Nat} (hj : j < k) : survive k now x j ≤
    ∑ r ∈ range (j + 1), ∑ p ∈ range (2 ^ (k - (r + 1))), (now (.winners (r + 1) p)).loses x := by
  have := flow_losers h hk (x := x) hj
  omega

theorem seats_minor_le {j q : Nat} (hj : j + 1 < k) (hq : q < 2 ^ (k - (j + 1) - 1)) :
    (now (.minor (j + 1) q)).seats x ≤ survive k now x j := by
  rw [← sum_seats_minor h hk hj]
  exact single_le_sum (f := fun q => (now (.minor (j + 1) q)).seats x) (fun _ _ => Nat.zero_le _)
    (mem_range.2 hq)

variable (hlen : slots.length = 2 ^ k)

include hlen

/-- Those who have won every round or lost in one are no more than the draw has. -/
theorem reach_add_loses_le {j : Nat} (hj : j ≤ k) :
    Ladder.reach slots k (fun r p => now (.winners r p)) x j +
      ∑ r ∈ range j, ∑ p ∈ range (2 ^ (k - (r + 1))), (now (.winners (r + 1) p)).loses x ≤
        slots.count (some x) := by
  have := (ladder h hk).flow (x := x) hlen hj
  omega

theorem seats_major_le {j q : Nat} (hj : j + 1 < k) (hq : q < 2 ^ (k - (j + 1) - 1)) :
    (now (.major (j + 1) q)).seats x ≤ slots.count (some x) := by
  have hminor := (h.atRest (minor_mem.2 ⟨Nat.le_add_left 1 j, hj, hq⟩)).seats_eq (x := x)
  have hle := seats_minor_le h hk (x := x) hj hq
  have hsurvive := survive_le h hk (x := x) (show j < k by omega)
  have hdrop := single_le_sum (f := fun p => (now (.winners (j + 1 + 1) p)).loses x)
    (fun _ _ => Nat.zero_le _) (mem_range.2 (by rwa [Nat.sub_sub] at hq))
  have hall := reach_add_loses_le h hk hlen (x := x) (show j + 1 + 1 ≤ k by omega)
  rw [sum_range_succ] at hall
  rw [seats_major h hk hj hq]
  omega

theorem seats_grandFinal_le : (now .grandFinal).seats x ≤ slots.count (some x) := by
  obtain ⟨h1, h2⟩ := holds_grandFinal h hk hlen (x := x)
  have hsurvive := survive_le h hk (x := x) (show k - 1 < k by omega)
  have hall := reach_add_loses_le h hk hlen (x := x) (le_refl k)
  rw [Nat.sub_add_cancel hk] at hsurvive
  rw [Match.seats, h1, h2]
  omega

/-- Nobody has more seats in a match than in the draw. -/
theorem seats_place_le {y : Place} (hy : y ∈ doublePlaces k) :
    (now y).seats x ≤ slots.count (some x) := by
  cases y with
  | winners r p =>
    obtain ⟨hr, hrk, hp⟩ := winners_mem.1 hy
    exact (ladder h hk).seats_le hlen hr hrk hp
  | minor i p =>
    obtain ⟨hi, hik, hp⟩ := minor_mem.1 hy
    obtain ⟨j, rfl⟩ : ∃ j, i = j + 1 := ⟨i - 1, by omega⟩
    have hle := seats_minor_le h hk (x := x) hik hp
    have hsurvive := survive_le h hk (x := x) (show j < k by omega)
    have hall := reach_add_loses_le h hk hlen (x := x) (show j + 1 ≤ k by omega)
    omega
  | major i p =>
    obtain ⟨hi, hik, hp⟩ := major_mem.1 hy
    obtain ⟨j, rfl⟩ : ∃ j, i = j + 1 := ⟨i - 1, by omega⟩
    exact seats_major_le h hk hlen hik hp
  | grandFinal => exact seats_grandFinal_le h hk hlen
  | reset =>
    have hg := (h.atRest grandFinal_mem).seats_eq (x := x)
    have hd := holds_dropped_le (g := now .grandFinal) (x := x)
    have hle := seats_grandFinal_le h hk hlen (x := x)
    rw [(finish h hk).seats_reset]
    omega

end Double

section DoubleTree

variable {entrants : List Player} {first : MatchId} {stage : Stage}

theorem regular_doubleTree (hn : 2 ≤ entrants.length) (hnd : entrants.Nodup)
    (hfit : first.val.toNat + (2 * bracketSize entrants.length - 1) ≤ UInt32.size) :
    Regular (doubleTree (bracketSlots entrants) (rounds entrants.length) first stage) := by
  intro ms hc he m hm
  rw [doubleTree_eq_map] at he
  have hk := rounds_pos entrants.length
  obtain ⟨now, rfl, h⟩ := (doubleLayout hk hfit).exists_played hc he
  obtain ⟨y, hy, rfl⟩ := List.mem_map.1 hm
  have hroot := bracketSlots_even hn
  refine ⟨fun x => ?_, bracket_of_skipped h hk hroot hy, fun ho hg hl => ?_⟩
  · exact (seats_place_le h hk (length_bracketSlots entrants) hy).trans
      (count_bracketSlots_le hnd x)
  · -- only winners matches and the grand final drop somebody
    have hout := (h.evolves y hy).outline
    rw [Match.outline_loserNext hout] at hl
    rw [Match.outline_isGrandFinal hout] at hg
    cases y with
    | winners r p =>
      obtain ⟨hr, hrk, hp⟩ := winners_mem.1 hy
      exact (ladder h hk).awaited hroot hr hrk hp ho
    | minor i p => exact absurd rfl hl
    | major i p => exact absurd rfl hl
    | grandFinal => cases hg
    | reset => exact absurd rfl hl

end DoubleTree

end Elimination

end Tourney
