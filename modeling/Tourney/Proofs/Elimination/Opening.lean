import Tourney.Proofs.Arena.Determined
import Tourney.Proofs.Elimination.TwoLosses
import Tourney.Proofs.Except
import Tourney.Proofs.Roster

/-!
# Knockouts from start to end

A roster that passes opens a knockout of either kind, with its byes resolved (`single_yields`,
`double_yields`). Once every match of it is resolved, the one match that leads nowhere has been won
(`crowns_tree`, `crowns_doubleTree`).
-/

namespace Tourney.Elimination

open Arena Seeding

/-- Played to the end, the matches have one that leads nowhere, and a player of it has won it. -/
def Crowns (fresh : List Match) : Prop :=
  ∀ ms, Coherent ms [] → List.Forall₂ Match.Evolves fresh ms →
    (∀ m ∈ ms, m.status.isResolved) →
    ∃ m w, ms.find? (·.next.isNone) = some m ∧ m.winner = some w ∧ m.hasPlayer w

theorem length_bracketSlots (entrants : List Player) :
    (bracketSlots entrants).length = 2 ^ rounds entrants.length := by
  have h := (bracketSlots_perm entrants).length_eq
  have hle := le_bracketSize entrants.length
  rw [List.length_append, List.length_map, List.length_replicate] at h
  unfold bracketSize at h hle
  omega

theorem mem_of_bracketSlots {entrants : List Player} {i : Nat} {p : Player}
    (h : (bracketSlots entrants)[i]?.join = some p) : p ∈ entrants := by
  have hmem : some p ∈ bracketSlots entrants := by
    rcases hs : (bracketSlots entrants)[i]? with _ | o <;> rw [hs] at h
    · cases h
    · obtain rfl : o = some p := h
      exact List.mem_of_getElem? hs
  rw [(bracketSlots_perm entrants).mem_iff, List.mem_append, List.mem_map] at hmem
  rcases hmem with ⟨q, hq, heq⟩ | hrep
  · rwa [← Option.some.inj heq]
  · exact absurd (List.eq_of_mem_replicate hrep) (by simp)

theorem count_bracketSlots (entrants : List Player) (x : Player) :
    (bracketSlots entrants).count (some x) = entrants.count x := by
  rw [(bracketSlots_perm entrants).count_eq, List.count_append, List.count_replicate,
    List.count_map_of_injective _ _ (Option.some_injective _)]
  simp

theorem count_bracketSlots_le {entrants : List Player} (h : entrants.Nodup) (x : Player) :
    (bracketSlots entrants).count (some x) ≤ 1 := by
  rw [count_bracketSlots]
  exact List.nodup_iff_count_le_one.1 h x

section Crown

variable {entrants : List Player} {first : MatchId} {stage : Stage}

theorem crowns_of_end {P : Type} {places : List P} {now : P → Match} {x : P} {w : Player}
    (hx : x ∈ places) (hend : (now x).next = none)
    (honly : ∀ y ∈ places, (now y).next = none → y = x) (hw : (now x).winner = some w)
    (hp : (now x).hasPlayer w) : ∃ m w, (places.map now).find? (·.next.isNone) = some m ∧
      m.winner = some w ∧ m.hasPlayer w := by
  rcases hf : (places.map now).find? (·.next.isNone) with _ | m
  · rw [List.find?_eq_none] at hf
    exact absurd (hf (now x) (List.mem_map_of_mem hx)) (by simp [hend])
  · obtain ⟨y, hy, rfl⟩ := List.mem_map.1 (List.mem_of_find?_eq_some hf)
    obtain rfl := honly y hy (by simpa using List.find?_some hf)
    exact ⟨_, w, hf, hw, hp⟩

/-- The rounds of a tree are a ladder. -/
theorem treeLadder {k : Nat} {now : Nat × Nat → Match} {slots : List (Option Player)}
    (h : Played (treePlaces k) (fun x => treeMatch slots k first stage x.1 x.2) now) (hk : 1 ≤ k) :
    Ladder slots k fun r p => now (r, p) where
  rest r p h1 hrk hp := h.atRest (mem_treePlaces.2 ⟨h1, hrk, hp⟩)
  opening p s hp := by
    rw [h.seat_fresh (mem_treePlaces.2 ⟨le_refl 1, hk, hp⟩), treeMatch_seat_one]
    rw [treeMatch_seat_one]
    exact Seat.settled_ne_open _
  climbs r q s h1 hrk hq := by
    refine h.seat_next (mem_treePlaces.2 ⟨h1, by omega, Ladder.double_lt hrk hq s⟩)
      (mem_treePlaces.2 ⟨by omega, hrk, hq⟩) ?_
    simp [treeMatch_next, treeMatch_id, hrk, double_div, ofPosition_double]

/-- The final is the one match of a tree that leads nowhere. -/
theorem tree_next_eq_none_iff {k : Nat} {now : Nat × Nat → Match} {slots : List (Option Player)}
    (h : Played (treePlaces k) (fun x => treeMatch slots k first stage x.1 x.2) now)
    {x : Nat × Nat} (hx : x ∈ treePlaces k) : (now x).next = none ↔ x = (k, 0) := by
  obtain ⟨r, p⟩ := x
  obtain ⟨-, hrk, hlt⟩ := mem_treePlaces.1 hx
  rw [h.next_eq hx, treeMatch_next]
  by_cases hr : r < k
  · simp [hr, Nat.ne_of_lt hr]
  · obtain rfl : r = k := by omega
    have hp : p = 0 := by simpa using hlt
    simp [hp]

theorem crowns_tree (hn : 2 ≤ entrants.length)
    (hfit : first.val.toNat + (bracketSize entrants.length - 1) < UInt32.size) :
    Crowns (tree (bracketSlots entrants) (rounds entrants.length) first stage) := by
  intro ms hc he hall
  rw [tree_eq_map] at he
  obtain ⟨now, rfl, h⟩ := (treeLayout hfit).exists_played hc he
  have hk := rounds_pos entrants.length
  have hmem : (rounds entrants.length, 0) ∈ treePlaces (rounds entrants.length) :=
    mem_treePlaces.2 ⟨hk, le_refl _, Nat.two_pow_pos _⟩
  obtain ⟨-, w, hw, hp⟩ := (treeLadder h hk).won
    (bracketSlots_even hn) hk (le_refl _)
    (Nat.two_pow_pos _) (hall _ (List.mem_map_of_mem hmem))
  exact crowns_of_end hmem ((tree_next_eq_none_iff h hmem).2 rfl)
    (fun x hx hnext => (tree_next_eq_none_iff h hx).1 hnext) hw hp

/-- In the end the winners champion comes to the grand final, whoever wins that to the reset, and
the reset has been won. -/
theorem reset_won {k : Nat} {now : Place → Match} {slots : List (Option Player)}
    (h : Played (doublePlaces k) (placeMatch slots k first stage) now) (hk : 1 ≤ k)
    (hroot : ∀ p < 2 ^ (k - 1), ∃ x, slots[2 * p]? = some (some x))
    (hres : ∀ x ∈ doublePlaces k, (now x).status.isResolved) :
    (now .reset).status = .complete ∧
      ∃ w, (now .reset).winner = some w ∧ (now .reset).hasPlayer w := by
  have hlast := winners_mem.2 ⟨hk, le_refl k, Nat.two_pow_pos (k - k)⟩
  obtain ⟨hc₁, w₁, hw₁, -⟩ := (ladder h hk).won hroot hk (le_refl k) (Nat.two_pow_pos _)
    (hres _ hlast)
  have hs₁ := seat_of_next h hk hlast (l := (.grandFinal, .first)) (by simp [Place.feeds])
  obtain ⟨hc₂, w₂, hw₂, -⟩ := (h.atRest grandFinal_mem).exists_winner (hres _ grandFinal_mem)
    .first (by rw [hs₁]; simp [Match.sends, hc₁, hw₁, Seat.settled])
  exact (h.atRest reset_mem).exists_winner (hres _ reset_mem)
    .first (by rw [(finish h hk).first]; simp [Match.sends, hc₂, hw₂, Seat.settled])

theorem eq_reset_of_next {k : Nat} {now : Place → Match} {slots : List (Option Player)}
    (h : Played (doublePlaces k) (placeMatch slots k first stage) now) {y : Place}
    (hy : y ∈ doublePlaces k) (hnext : (now y).next = none) : y = .reset := by
  rw [h.next_eq hy, placeMatch_next] at hnext
  cases y <;> simp_all [Place.feeds]

theorem crowns_doubleTree (hn : 2 ≤ entrants.length)
    (hfit : first.val.toNat + (2 * bracketSize entrants.length - 1) ≤ UInt32.size) :
    Crowns (doubleTree (bracketSlots entrants) (rounds entrants.length) first stage) := by
  intro ms hc he hall
  rw [doubleTree_eq_map] at he
  have hk := rounds_pos entrants.length
  obtain ⟨now, rfl, h⟩ := (doubleLayout hk hfit).exists_played hc he
  obtain ⟨-, w, hw, hp⟩ := reset_won h hk
    (bracketSlots_even hn)
    fun x hx => hall _ (List.mem_map_of_mem hx)
  refine crowns_of_end reset_mem ?_ (fun y hy hnext => eq_reset_of_next h hy hnext) hw hp
  rw [h.next_eq reset_mem]
  rfl

end Crown

/-! ## Who is seated at the start -/

section Seated

variable {entrants : List Player} {k : Nat} {first : MatchId} {stage : Stage} {m : Match}

theorem players_tree (hm : m ∈ tree (bracketSlots entrants) k first stage) {p : Player}
    (hp : m.hasPlayer p) : p ∈ entrants := by
  rw [tree_eq_map] at hm
  obtain ⟨⟨r, q⟩, -, rfl⟩ := List.mem_map.1 hm
  obtain ⟨slot, hs⟩ := Match.hasPlayer_iff.1 hp
  by_cases hr : r = 1
  · subst hr
    rw [treeMatch_seat_one] at hs
    exact mem_of_bracketSlots hs
  · rw [treeMatch_seat _ _ _ _ _ hr] at hs
    cases hs

theorem players_doubleTree (hm : m ∈ doubleTree (bracketSlots entrants) k first stage)
    {p : Player} (hp : m.hasPlayer p) : p ∈ entrants := by
  rw [doubleTree_eq_map] at hm
  obtain ⟨x, -, rfl⟩ := List.mem_map.1 hm
  obtain ⟨slot, hs⟩ := Match.hasPlayer_iff.1 hp
  by_cases hx : ∃ q, x = .winners 1 q
  · obtain ⟨q, rfl⟩ := hx
    rw [placeMatch_seat_one] at hs
    exact mem_of_bracketSlots hs
  · rw [placeMatch_seat (not_exists.1 hx)] at hs
    cases hs

theorem treeMatch_pending {slots : List (Option Player)} (r q : Nat) :
    (treeMatch slots k first stage r q).status = .pending ∧
      (treeMatch slots k first stage r q).device = none := by
  unfold treeMatch
  split_ifs <;> exact ⟨rfl, rfl⟩

theorem fresh_tree {slots : List (Option Player)} (hm : m ∈ tree slots k first stage) :
    m.Fresh ∧ m.stage = stage := by
  rw [tree_eq_map] at hm
  obtain ⟨⟨r, q⟩, -, rfl⟩ := List.mem_map.1 hm
  exact ⟨Match.fresh_of_pending (treeMatch_pending r q).1 (treeMatch_pending r q).2,
    treeMatch_stage ..⟩

theorem fresh_doubleTree {slots : List (Option Player)} (hm : m ∈ doubleTree slots k first stage) :
    m.Fresh ∧ m.stage = stage := by
  rw [doubleTree_eq_map] at hm
  obtain ⟨x, -, rfl⟩ := List.mem_map.1 hm
  refine ⟨?_, placeMatch_stage x⟩
  cases x with
  | winners r q =>
    exact Match.fresh_of_pending (treeMatch_pending r q).1 (treeMatch_pending r q).2
  | minor i q => exact Match.fresh_of_pending rfl rfl
  | major i q => exact Match.fresh_of_pending rfl rfl
  | grandFinal => exact Match.fresh_of_pending rfl rfl
  | reset => exact Match.fresh_of_pending rfl rfl

end Seated

/-! ## Opening -/

section Opening

variable {players : List Player} (draw : Draw) (first : MatchId) (stage : Stage)

theorem single_yields (hr : Roster.check players 2 = .ok ()) :
    Yields (first.val.toNat + (bracketSize players.length - 1) < UInt32.size)
      (single players draw first stage) fun ms => Coherent ms [] ∧
        List.Forall₂ Match.Settles
          (tree (bracketSlots (draw.order players)) (rounds players.length) first stage) ms ∧
        (∀ m ∈ ms, ∀ p, m.hasPlayer p → p ∈ players) ∧
        first.val.toNat + ms.length ≤ UInt32.size := by
  rw [single, hr]
  refine (MatchId.plus?_yields first _).bind fun _ ⟨_, hfit⟩ => ?_
  have hcoh : Coherent
      (tree (bracketSlots (draw.order players)) (rounds players.length) first stage) _ :=
    coherent_tree (rounds_pos players.length) hfit
  obtain ⟨ms, hrun, ⟨hc, hf⟩⟩ := hcoh.resolveByes
  simp only [hrun]
  refine .inl ⟨ms, rfl, hc, hf, ?_, ?_⟩
  · exact hcoh.players_of_evolves hc (hf.imp fun _ _ h => h.evolves)
      fun m hm p hp => (draw.perm players).mem_iff.1 (players_tree hm hp)
  · rw [← hf.length_eq, length_tree]
    exact Nat.le_of_lt hfit

theorem double_yields (hr : Roster.check players 2 = .ok ()) :
    Yields (first.val.toNat + (2 * bracketSize players.length - 1) ≤ UInt32.size)
      (double players draw first stage) fun ms => Coherent ms [] ∧
        List.Forall₂ Match.Settles
          (doubleTree (bracketSlots (draw.order players)) (rounds players.length) first stage) ms ∧
        (∀ m ∈ ms, ∀ p, m.hasPlayer p → p ∈ players) ∧
        first.val.toNat + ms.length ≤ UInt32.size := by
  have hpos : 0 < 2 ^ rounds players.length := Nat.two_pow_pos _
  rw [double, hr]
  refine ((MatchId.plus?_yields first _).imp (fun h => ?_) fun _ h => h).bind
    fun _ ⟨_, hlast⟩ => ?_
  · unfold bracketSize at h
    unfold resetIndex
    omega
  have hfit : first.val.toNat + (2 * 2 ^ rounds players.length - 1) ≤ UInt32.size := by
    unfold resetIndex at hlast
    omega
  have hcoh : Coherent
      (doubleTree (bracketSlots (draw.order players)) (rounds players.length) first stage) _ :=
    coherent_doubleTree (rounds_pos players.length) hfit
  obtain ⟨ms, hrun, ⟨hc, hf⟩⟩ := hcoh.resolveByes
  simp only [hrun]
  refine .inl ⟨ms, rfl, hc, hf, ?_, ?_⟩
  · exact hcoh.players_of_evolves hc (hf.imp fun _ _ h => h.evolves)
      fun m hm p hp => (draw.perm players).mem_iff.1 (players_doubleTree hm hp)
  · rwa [← hf.length_eq, length_doubleTree (rounds_pos players.length)]

end Opening

end Tourney.Elimination
