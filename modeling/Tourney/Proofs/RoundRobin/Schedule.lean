import Mathlib.Data.List.Perm.Subperm
import Mathlib.Data.Nat.ModEq
import Tourney.Proofs.Arena.Flow
import Tourney.Proofs.Arena.Numbering
import Tourney.Proofs.Except
import Tourney.Proofs.Roster
import Tourney.Proofs.Sums
import Tourney.RoundRobin.Schedule

/-!
# The circle method

In every round the players and the empty chair are dealt out over the table (`sitter_perm`), so a
round has a pair for every two players (`length_roundPairs`), and the rounds together have one for
every pair of players (`length_fixtures`).
-/

namespace Tourney.RoundRobin

open Arena Finset

variable {n t : Nat}

theorem chairs_even (n : Nat) : chairs n = 2 * (chairs n / 2) := by
  unfold chairs
  omega

theorem le_chairs (n : Nat) : n ≤ chairs n := Nat.le_add_right ..

theorem sitter_lt (hn : 2 ≤ n) {i : Nat} (hi : i < chairs n) : sitter n t i < chairs n := by
  have hc := le_chairs n
  unfold sitter
  split_ifs
  · omega
  · have := Nat.mod_lt (i - 1 + (chairs n - 1 - t)) (show 0 < chairs n - 1 by omega)
    omega

theorem sitter_inj (hn : 2 ≤ n) {i j : Nat} (hi : i < chairs n) (hj : j < chairs n)
    (h : sitter n t i = sitter n t j) : i = j := by
  have hc := le_chairs n
  unfold sitter at h
  split_ifs at h
  · omega
  · have hmod : Nat.ModEq (chairs n - 1) (i - 1) (j - 1) :=
      Nat.ModEq.add_right_cancel' (chairs n - 1 - t) (Nat.succ.inj h)
    have := hmod.eq_of_lt_of_lt (by omega) (by omega)
    omega

/-- Everybody has one chair in a round. -/
theorem sitter_perm (hn : 2 ≤ n) (t : Nat) :
    ((List.range (chairs n)).map (sitter n t)).Perm (List.range (chairs n)) := by
  refine List.Subperm.perm_of_length_le (List.subperm_of_subset ?_ ?_) (by simp)
  · refine List.Nodup.map_on (fun i hi j hj => ?_) List.nodup_range
    exact sitter_inj hn (List.mem_range.1 hi) (List.mem_range.1 hj)
  · intro a ha
    obtain ⟨i, hi, rfl⟩ := List.mem_map.1 ha
    exact List.mem_range.2 (sitter_lt hn (List.mem_range.1 hi))

theorem pairings_eq (hn : 2 ≤ n) :
    pairings n = (List.range (chairs n - 1)).map (roundPairs n) := if_neg (Nat.not_lt.2 hn)

/-- The two of a pair face each other, on chairs of their own. -/
theorem mem_roundPairs {x : Nat × Nat} (h : x ∈ roundPairs n t) :
    x.1 < n ∧ x.2 < n ∧ ∃ i < chairs n / 2,
      (sitter n t i, sitter n t (chairs n - 1 - i)) = x := by
  obtain ⟨hx, hlt⟩ := List.mem_filter.1 h
  obtain ⟨i, hi, hx⟩ := List.mem_map.1 hx
  simp only [Bool.and_eq_true, decide_eq_true_eq] at hlt
  exact ⟨hlt.1, hlt.2, i, List.mem_range.1 hi, hx⟩

/-- Nobody but the player across from the empty chair sits a round out. -/
theorem length_roundPairs (hn : 2 ≤ n) (t : Nat) : (roundPairs n t).length = n / 2 := by
  have hc := chairs_even n
  have hle : chairs n ≤ n + 1 := by
    unfold chairs
    omega
  -- at least one of the two across a table is a player, and a pair is kept if both are
  have hpair : ∀ i ∈ range (chairs n / 2),
      (if decide (sitter n t i < n) then 1 else 0) +
          (if decide (sitter n t (2 * (chairs n / 2) - 1 - i) < n) then 1 else 0) =
        1 + if decide (sitter n t i < n) && decide (sitter n t (chairs n - 1 - i) < n) then 1
          else 0 := fun i hi => by
    have hi := mem_range.1 hi
    have hne : sitter n t i ≠ sitter n t (chairs n - 1 - i) := fun heq => by
      have := sitter_inj hn (by omega) (by omega) heq
      omega
    have h1 := sitter_lt (t := t) hn (show i < chairs n by omega)
    have h2 := sitter_lt (t := t) hn (show chairs n - 1 - i < chairs n by omega)
    rw [← hc]
    by_cases h3 : sitter n t i < n <;> by_cases h4 : sitter n t (chairs n - 1 - i) < n <;>
      simp [h3, h4]
    omega
  have hplayers : (List.range (chairs n)).countP (fun i => decide (sitter n t i < n)) = n := by
    have hperm := (sitter_perm hn t).countP_eq fun a => decide (a < n)
    rw [List.countP_map] at hperm
    refine hperm.trans ?_
    rw [← Nat.add_sub_cancel' (le_chairs n), List.range_add, List.countP_append,
      List.countP_eq_length.2 (by simp), List.countP_eq_zero.2 (by simp)]
    simp
  have hsum := sum_congr rfl hpair
  rw [sum_range_fold fun i => if decide (sitter n t i < n) then 1 else 0, ← hc, sum_range_ite,
    hplayers, sum_add_distrib, sum_range_ite, ← card_eq_sum_ones, card_range] at hsum
  have hlen : (roundPairs n t).length = (List.range (chairs n / 2)).countP fun i =>
      decide (sitter n t i < n) && decide (sitter n t (chairs n - 1 - i) < n) := by
    rw [roundPairs, ← List.countP_eq_length_filter, List.countP_map]
    rfl
  rw [hlen]
  unfold chairs at hsum hc ⊢
  omega

theorem length_fixtures (hn : 2 ≤ n) : (fixtures n).length = n * (n - 1) / 2 := by
  have hround : ∀ x ∈ (pairings n).zipIdx, x.1.length = n / 2 := fun x hx => by
    have hmem := List.fst_mem_of_mem_zipIdx hx
    rw [pairings_eq hn, List.mem_map] at hmem
    obtain ⟨t, -, ht⟩ := hmem
    rw [← ht, length_roundPairs hn]
  have hrounds : (pairings n).length = chairs n - 1 := by
    rw [pairings_eq hn, List.length_map, List.length_range]
  rw [fixtures, List.length_flatMap]
  have hmap : (pairings n).zipIdx.map (fun x =>
      (x.1.zipIdx.map fun y => (y.1, x.2 + 1, y.2)).length) =
      List.replicate (chairs n - 1) (n / 2) := by
    rw [List.eq_replicate_iff]
    refine ⟨by simp [hrounds], fun b hb => ?_⟩
    obtain ⟨x, hx, rfl⟩ := List.mem_map.1 hb
    simpa using hround x hx
  rw [hmap, List.sum_replicate_nat]
  unfold chairs
  rcases Nat.mod_two_eq_zero_or_one n with h | h
  · obtain ⟨m, rfl⟩ : ∃ m, n = 2 * m := ⟨n / 2, by omega⟩
    rw [h, Nat.mul_assoc, Nat.mul_div_cancel_left m (by omega),
      Nat.mul_div_cancel_left _ (by omega), Nat.mul_comm, Nat.add_zero]
  · obtain ⟨m, rfl⟩ : ∃ m, n = 2 * m + 1 := ⟨n / 2, by omega⟩
    rw [h, Nat.add_sub_cancel, Nat.add_sub_cancel, ← Nat.mul_assoc, Nat.mul_comm _ 2, Nat.mul_assoc,
      Nat.mul_div_cancel_left _ (by omega), show (2 * m + 1) / 2 = m by omega]

theorem mem_fixtures {a b r p : Nat} (h : ((a, b), r, p) ∈ fixtures n) :
    a < n ∧ b < n ∧ a ≠ b := by
  obtain ⟨⟨pairs, t⟩, hpairs, hmem⟩ := List.mem_flatMap.1 h
  obtain ⟨⟨pair, q⟩, hpair, heq⟩ := List.mem_map.1 hmem
  simp only [Prod.mk.injEq] at heq
  obtain ⟨rfl, -, -⟩ := heq
  have hround := List.fst_mem_of_mem_zipIdx hpairs
  rw [pairings] at hround
  split_ifs at hround with hn
  · simp at hround
  · obtain ⟨s, -, rfl⟩ := List.mem_map.1 hround
    obtain ⟨ha, hb, i, hi, heq⟩ := mem_roundPairs (List.fst_mem_of_mem_zipIdx hpair)
    obtain ⟨rfl, rfl⟩ := Prod.mk.inj heq
    refine ⟨ha, hb, fun heq => ?_⟩
    have := sitter_inj (by omega) (by omega) (by omega) heq
    omega

/-! ## The matches of a field -/

/-- The matches of a round robin among entrants. -/
def fieldMatches (entrants : List Player) (first : MatchId) (stage : Stage) : List Match :=
  (fixtures entrants.length).zipIdx.map fun x =>
    .seated (first.plus x.2) (UInt32.ofNat x.1.2.1) (UInt32.ofNat x.1.2.2) stage
      entrants[x.1.1.1]? entrants[x.1.1.2]?

section Field

variable {entrants : List Player} {first : MatchId} {stage : Stage} {m : Match}

/-- A match of a field starts with two of its players, and nobody goes on from it. -/
theorem mem_fieldMatches (h : m ∈ fieldMatches entrants first stage) :
    m.stage = stage ∧ m.targets = [] ∧ m.isGrandFinal = false ∧ m.Unsettled ∧ m.device = none ∧
      ∀ slot, ∃ p ∈ entrants, m.seat slot = .settled (some p) := by
  obtain ⟨⟨⟨⟨a, b⟩, r, p⟩, k⟩, hx, rfl⟩ := List.mem_map.1 h
  obtain ⟨ha, hb, -⟩ := mem_fixtures (List.fst_mem_of_mem_zipIdx hx)
  refine ⟨rfl, rfl, rfl, ⟨rfl, rfl⟩, rfl, ?_⟩
  rintro (_ | _)
  · exact ⟨entrants[a], List.getElem_mem _, by
      simp [Match.seated, Match.seat, List.getElem?_eq_getElem ha]⟩
  · exact ⟨entrants[b], List.getElem_mem _, by
      simp [Match.seated, Match.seat, List.getElem?_eq_getElem hb]⟩

theorem players_fieldMatches (h : m ∈ fieldMatches entrants first stage) {p : Player}
    (hp : m.hasPlayer p) : p ∈ entrants := by
  obtain ⟨slot, hs⟩ := Match.hasPlayer_iff.1 hp
  obtain ⟨q, hq, hseat⟩ := (mem_fieldMatches h).2.2.2.2.2 slot
  rw [hseat] at hs
  obtain rfl : q = p := Option.some.inj hs
  exact hq

/-- Nobody meets himself. -/
theorem seats_fieldMatches (hnd : entrants.Nodup) (h : m ∈ fieldMatches entrants first stage) :
    ∃ p1 p2, p1 ≠ p2 ∧ m.seat .first = .settled (some p1) ∧
      m.seat .second = .settled (some p2) := by
  obtain ⟨⟨⟨⟨a, b⟩, r, p⟩, k⟩, hx, rfl⟩ := List.mem_map.1 h
  obtain ⟨ha, hb, hne⟩ := mem_fixtures (List.fst_mem_of_mem_zipIdx hx)
  refine ⟨entrants[a], entrants[b], fun heq => hne ?_, ?_, ?_⟩
  · exact (hnd.getElem_inj_iff).1 heq
  · simp [Match.seated, Match.seat, List.getElem?_eq_getElem ha]
  · simp [Match.seated, Match.seat, List.getElem?_eq_getElem hb]

theorem length_fieldMatches (hn : 2 ≤ entrants.length) :
    (fieldMatches entrants first stage).length =
      entrants.length * (entrants.length - 1) / 2 := by
  rw [fieldMatches, List.length_map, List.length_zipIdx, length_fixtures hn]

theorem numbered_fieldMatches : Numbered first (fieldMatches entrants first stage) := by
  unfold Numbered fieldMatches
  rw [List.map_map, List.length_map, List.length_zipIdx, List.range_eq_range',
    ← List.zipIdx_map_snd 0 (fixtures entrants.length), List.map_map]
  rfl

theorem coherent_fieldMatches
    (hfit : first.val.toNat + (fieldMatches entrants first stage).length ≤ UInt32.size) :
    Coherent (fieldMatches entrants first stage) [] := by
  change Coherent _ (([] : List MatchId).map .settle)
  refine .of_apart (numbered_fieldMatches.ordered hfit)
    (fun m hm => (mem_fieldMatches hm).2.1) (fun m hm => (mem_fieldMatches hm).2.2.1)
    (fun m hm => (mem_fieldMatches hm).2.2.2.1) ?_ ?_ (by simp)
  · intro m hm slot
    obtain ⟨p, -, hp⟩ := (mem_fieldMatches hm).2.2.2.2.2 slot
    exact ⟨_, hp⟩
  · intro m hm
    have hu := (mem_fieldMatches hm).2.2.2.1
    obtain ⟨p, -, hp⟩ := (mem_fieldMatches hm).2.2.2.2.2 .first
    obtain ⟨q, -, hq⟩ := (mem_fieldMatches hm).2.2.2.2.2 .second
    simp only [Match.seat] at hp hq
    refine .inl ?_
    unfold Match.AtRest
    rw [hu.1]
    exact ⟨hu.2, .inl (by simp [Match.isReady, Match.player1, Match.player2, hp, hq, Seat.settled])⟩

theorem generate_yields {players : List Player} (draw : Draw) (first : MatchId) (stage : Stage)
    (hr : Roster.check players 2 = .ok ()) :
    Yields (first.val.toNat + players.length * (players.length - 1) / 2 < UInt32.size)
      (generate players draw first stage) fun ms =>
        ms = fieldMatches (draw.order players) first stage ∧
          first.val.toNat + ms.length < UInt32.size := by
  have hlen := (draw.perm players).length_eq
  have hn := (Roster.check_eq_ok_iff.1 hr).1
  rw [generate, hr]
  refine ((MatchId.plus?_yields first _).imp (fun h => ?_) fun _ h => h).bind fun _ ⟨_, hfit⟩ => ?_
  · rwa [length_fixtures hn]
  · refine .pure ⟨?_, by simpa using hfit⟩
    rw [fieldMatches, hlen]

end Field

end Tourney.RoundRobin
