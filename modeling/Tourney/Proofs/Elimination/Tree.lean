import Tourney.Proofs.Arena.Numbering
import Tourney.Proofs.Elimination.Layout
import Tourney.Proofs.Elimination.Seeding

/-!
# The tree of a knockout

The matches of a knockout by round and position. Their ids follow one another
(`map_treeIndex`), and the tree is laid out so that the match at a position feeds the one at half
its position a round later (`treeLayout`).
-/

namespace Tourney.Elimination

open Arena Seeding

theorem roundLength_eq {k r : Nat} (h : r ≤ k) : roundLength (2 ^ k) r = 2 ^ (k - r) :=
  Nat.pow_div h (by omega)

theorem treeIndex_succ {k j : Nat} (h : j ≤ k) (p : Nat) :
    treeIndex (2 ^ k) (j + 1) p = 2 ^ k - 2 ^ (k - j) + p := by
  rw [treeIndex, Nat.add_sub_cancel, Nat.pow_div h (by omega)]

theorem two_pow_pred {a : Nat} (h : 0 < a) : 2 ^ a = 2 * 2 ^ (a - 1) := by
  obtain ⟨b, rfl⟩ := Nat.exists_eq_succ_of_ne_zero (Nat.ne_of_gt h)
  rw [Nat.succ_eq_add_one, Nat.add_sub_cancel, Nat.pow_succ]
  omega

/-- Rounds and positions, in the order of the matches. -/
def treePlaces (k : Nat) : List (Nat × Nat) :=
  (List.range k).flatMap fun r => (List.range (roundLength (2 ^ k) (r + 1))).map fun p => (r + 1, p)

theorem mem_treePlaces {k r p : Nat} :
    (r, p) ∈ treePlaces k ↔ 1 ≤ r ∧ r ≤ k ∧ p < 2 ^ (k - r) := by
  simp only [treePlaces, List.mem_flatMap, List.mem_range, List.mem_map, Prod.mk.injEq]
  constructor
  · rintro ⟨j, hj, q, hq, rfl, rfl⟩
    rw [roundLength_eq (by omega)] at hq
    exact ⟨by omega, by omega, hq⟩
  · rintro ⟨h1, hk, hp⟩
    refine ⟨r - 1, by omega, p, ?_, by omega, rfl⟩
    rw [Nat.sub_add_cancel h1, roundLength_eq hk]
    exact hp

theorem tree_eq_map (slots : List (Option Player)) (k : Nat) (first : MatchId) (stage : Stage) :
    tree slots k first stage =
      (treePlaces k).map fun x => treeMatch slots k first stage x.1 x.2 := by
  simp only [tree, treePlaces, List.map_flatMap, List.map_map]
  rfl

theorem flatMap_treeIndex {k j : Nat} (h : j ≤ k) :
    ((List.range j).flatMap fun r => (List.range (roundLength (2 ^ k) (r + 1))).map
      (treeIndex (2 ^ k) (r + 1))) = List.range (2 ^ k - 2 ^ (k - j)) := by
  induction j with
  | zero => simp
  | succ j ih =>
    have h2 := two_pow_pred (a := k - j) (by omega)
    have hle : 2 ^ (k - j) ≤ 2 ^ k := Nat.pow_le_pow_right (by omega) (by omega)
    rw [Nat.sub_sub] at h2
    rw [List.range_succ, List.flatMap_append, ih (by omega), List.flatMap_singleton,
      roundLength_eq (by omega), show 2 ^ k - 2 ^ (k - (j + 1)) =
        2 ^ k - 2 ^ (k - j) + 2 ^ (k - (j + 1)) by omega, List.range_add]
    congr 1
    exact List.map_congr_left fun p _ => treeIndex_succ (by omega) p

theorem map_treeIndex (k : Nat) :
    (treePlaces k).map (fun x => treeIndex (2 ^ k) x.1 x.2) = List.range (2 ^ k - 1) := by
  have h := flatMap_treeIndex (Nat.le_refl k)
  rw [Nat.sub_self, Nat.pow_zero] at h
  rw [← h, treePlaces, List.map_flatMap]
  simp only [List.map_map]
  rfl

theorem length_treePlaces (k : Nat) : (treePlaces k).length = 2 ^ k - 1 := by
  simpa using congrArg List.length (map_treeIndex k)

theorem treeIndex_lt {k : Nat} {x : Nat × Nat} (hx : x ∈ treePlaces k) :
    treeIndex (2 ^ k) x.1 x.2 < 2 ^ k - 1 := by
  rw [← List.mem_range, ← map_treeIndex]
  exact List.mem_map_of_mem (f := fun x : Nat × Nat => treeIndex (2 ^ k) x.1 x.2) hx

/-- A match comes before the one it feeds. -/
theorem treeIndex_lt_next {k r p : Nat} (hr : 1 ≤ r) (hk : r < k) (hp : p < 2 ^ (k - r)) :
    treeIndex (2 ^ k) r p < treeIndex (2 ^ k) (r + 1) (p / 2) := by
  obtain ⟨j, rfl⟩ := Nat.exists_eq_succ_of_ne_zero (Nat.ne_of_gt hr)
  have h2 := two_pow_pred (a := k - j) (by omega)
  have hle : 2 ^ (k - j) ≤ 2 ^ k := Nat.pow_le_pow_right (by omega) (by omega)
  rw [Nat.sub_sub] at h2
  rw [Nat.succ_eq_add_one] at *
  rw [treeIndex_succ (by omega), treeIndex_succ (by omega)]
  omega

/-! ## The matches of the tree -/

section Matches

variable (slots : List (Option Player)) (k : Nat) (first : MatchId) (stage : Stage) (r p : Nat)

theorem treeMatch_id :
    (treeMatch slots k first stage r p).id = first.plus (treeIndex (2 ^ k) r p) := by
  unfold treeMatch
  split_ifs <;> rfl

theorem treeMatch_stage : (treeMatch slots k first stage r p).stage = stage := by
  unfold treeMatch
  split_ifs <;> rfl

theorem treeMatch_round : (treeMatch slots k first stage r p).round = UInt32.ofNat r := by
  unfold treeMatch
  split_ifs <;> rfl

theorem treeMatch_position :
    (treeMatch slots k first stage r p).position = UInt32.ofNat p := by
  unfold treeMatch
  split_ifs <;> rfl

theorem treeMatch_next : (treeMatch slots k first stage r p).next =
    if r < k then some ⟨first.plus (treeIndex (2 ^ k) (r + 1) (p / 2)), .ofPosition p⟩
    else none := by
  unfold treeMatch
  split_ifs <;> rfl

theorem treeMatch_loserNext : (treeMatch slots k first stage r p).loserNext = none := by
  unfold treeMatch
  split_ifs <;> rfl

theorem treeMatch_isGrandFinal : (treeMatch slots k first stage r p).isGrandFinal = false := by
  unfold treeMatch
  split_ifs <;> rfl

theorem treeMatch_unsettled : (treeMatch slots k first stage r p).Unsettled := by
  unfold treeMatch
  split_ifs <;> exact ⟨rfl, rfl⟩

/-- The slot of the bracket behind a seat of the first round. -/
def Slot.number : Slot → Nat
  | .first => 0
  | .second => 1

theorem treeMatch_seat_one (s : Slot) : (treeMatch slots k first stage 1 p).seat s =
    .settled (slots[2 * p + Slot.number s]?.join) := by
  cases s <;> rfl

variable {r}

theorem treeMatch_seat (hr : r ≠ 1) (s : Slot) :
    (treeMatch slots k first stage r p).seat s = {} := by
  unfold treeMatch
  cases s <;> simp [hr, Match.seat]

theorem treeMatch_proper (s : Slot) : ((treeMatch slots k first stage r p).seat s).Proper := by
  by_cases hr : r = 1
  · subst hr
    rw [treeMatch_seat_one]
    exact Seat.proper_settled _
  · rw [treeMatch_seat _ _ _ _ _ hr]
    intro h
    cases h

end Matches

theorem ofPosition_double (q : Nat) (s : Slot) : Slot.ofPosition (2 * q + Slot.number s) = s := by
  cases s <;> simp [Slot.ofPosition, Slot.number, Nat.add_mod]

theorem double_div (q : Nat) (s : Slot) : (2 * q + Slot.number s) / 2 = q := by
  cases s <;> simp only [Slot.number] <;> omega

theorem double_ofPosition (p : Nat) : 2 * (p / 2) + Slot.number (.ofPosition p) = p := by
  unfold Slot.ofPosition
  split_ifs <;> simp only [Slot.number] <;> omega

/-! ## The tree as an arena -/

/-- The seat that the winner at a place takes. -/
def treeFeeds (k : Nat) (x : Nat × Nat) : List ((Nat × Nat) × Slot) :=
  if x.1 < k then [((x.1 + 1, x.2 / 2), .ofPosition x.2)] else []

/-- The place whose winner takes a seat. -/
def treeSource (l : (Nat × Nat) × Slot) : Nat × Nat :=
  (l.1.1 - 1, 2 * l.1.2 + Slot.number l.2)

variable {slots : List (Option Player)} {k : Nat} {first : MatchId} {stage : Stage}

theorem numbered_tree : Numbered first (tree slots k first stage) := by
  unfold Numbered
  rw [tree_eq_map, List.length_map, length_treePlaces, ← map_treeIndex, List.map_map, List.map_map]
  exact List.map_congr_left fun x _ => treeMatch_id ..

theorem length_tree : (tree slots k first stage).length = 2 ^ k - 1 := by
  rw [tree_eq_map, List.length_map, length_treePlaces]

theorem treeLayout (hfit : first.val.toNat + (2 ^ k - 1) < UInt32.size) :
    Layout (treePlaces k) (fun x => treeMatch slots k first stage x.1 x.2) (treeFeeds k)
      treeSource where
  ordered := by
    have h : Numbered first (tree slots k first stage) := numbered_tree
    rw [← tree_eq_map]
    exact h.ordered (by rw [length_tree]; omega)
  targets := by
    rintro ⟨r, p⟩ -
    simp only [Match.targets, treeMatch_next, treeMatch_loserNext, treeFeeds]
    split_ifs <;> simp [treeMatch_id]
  leads := by
    rintro ⟨r, p⟩ hx l hl
    have hx' := mem_treePlaces.1 hx
    simp only [treeFeeds] at hl
    split_ifs at hl with hr
    · obtain rfl := List.mem_singleton.1 hl
      have h2 := two_pow_pred (a := k - r) (by omega)
      have hmem : (r + 1, p / 2) ∈ treePlaces k :=
        mem_treePlaces.2 ⟨by omega, hr, by rw [Nat.sub_sub] at h2; omega⟩
      refine ⟨hmem, ?_, ?_, by rw [treeMatch_stage, treeMatch_stage]⟩
      · simp only [treeSource, Nat.add_sub_cancel, double_ofPosition]
      · simp only [treeMatch_id]
        have hlt : treeIndex (2 ^ k) (r + 1) (p / 2) < 2 ^ k - 1 := treeIndex_lt hmem
        exact MatchId.plus_lt (treeIndex_lt_next hx'.1 hr hx'.2.2) (by omega)
    · simp at hl
  apart := by
    rintro ⟨r, p⟩ -
    simp only [treeFeeds]
    split_ifs <;> simp
  grandFinal := by
    rintro ⟨r, p⟩ - hg
    rw [treeMatch_isGrandFinal] at hg
    cases hg
  fresh := fun x _ => treeMatch_unsettled ..
  proper := fun x _ => treeMatch_proper _ _ _ _ _
  opens := by
    rintro ⟨r, p⟩ hx l hl
    have hx' := mem_treePlaces.1 hx
    simp only [treeFeeds] at hl
    split_ifs at hl with hr
    · obtain rfl := List.mem_singleton.1 hl
      exact treeMatch_seat _ _ _ _ _ (show r + 1 ≠ 1 by omega) _
    · simp at hl
  fed := by
    rintro ⟨r, p⟩ hx s hs
    have hx' := mem_treePlaces.1 hx
    have hr : r ≠ 1 := by
      rintro rfl
      simp only [treeMatch_seat_one] at hs
      exact Seat.settled_ne_open _ hs
    have h2 := two_pow_pred (a := k - (r - 1)) (by omega)
    have hmem : (r - 1, 2 * p + Slot.number s) ∈ treePlaces k := by
      refine mem_treePlaces.2 ⟨by omega, by omega, ?_⟩
      rw [show k - (r - 1) - 1 = k - r by omega] at h2
      cases s <;> simp only [Slot.number] <;> omega
    refine ⟨hmem, ?_⟩
    change ((r, p), s) ∈ treeFeeds k (r - 1, 2 * p + Slot.number s)
    rw [treeFeeds, if_pos (show r - 1 < k by omega), double_div, ofPosition_double,
      Nat.sub_add_cancel hx'.1]
    exact List.mem_singleton.2 rfl

theorem mem_openingIds {id : MatchId} (hk : 1 ≤ k) :
    id ∈ openingIds k first ↔ ∃ p < 2 ^ (k - 1), id = first.plus (treeIndex (2 ^ k) 1 p) := by
  have hidx : ∀ p, treeIndex (2 ^ k) 1 p = p := fun p => by
    rw [treeIndex_succ (Nat.zero_le k)]
    simp
  simp only [openingIds, roundLength_eq hk, List.mem_map, List.mem_range, hidx]
  constructor
  · rintro ⟨p, hp, rfl⟩
    exact ⟨p, hp, rfl⟩
  · rintro ⟨p, hp, rfl⟩
    exact ⟨p, hp, rfl⟩

/-- The tree is coherent once its opening is settled. -/
theorem coherent_tree (hk : 1 ≤ k) (hfit : first.val.toNat + (2 ^ k - 1) < UInt32.size) :
    Coherent (tree slots k first stage) ((openingIds k first).map .settle) := by
  rw [tree_eq_map]
  refine (treeLayout hfit).coherent ?_ ?_
  · rintro ⟨r, p⟩ hx
    have hx' := mem_treePlaces.1 hx
    by_cases hr : r = 1
    · subst hr
      exact .inr ((mem_openingIds hk).2 ⟨p, hx'.2.2, treeMatch_id ..⟩)
    · refine .inl ?_
      have hu := treeMatch_unsettled slots k first stage r p
      unfold Match.AtRest
      rw [hu.1]
      exact ⟨hu.2, .inr ⟨.first, treeMatch_seat _ _ _ _ _ hr _⟩⟩
  · intro id hid
    obtain ⟨p, hp, rfl⟩ := (mem_openingIds hk).1 hid
    exact ⟨(1, p), mem_treePlaces.2 ⟨le_refl 1, hk, hp⟩, treeMatch_id ..⟩

end Tourney.Elimination
