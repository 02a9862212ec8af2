import Tourney.Elimination.Double
import Tourney.Proofs.Elimination.Tree

/-!
# The two trees of a double elimination

The places of a double elimination and what each feeds. Every seat outside the first winners round
is fed from one place (`doubleLayout`), the losers of a winners round meeting the survivors of the
minor round before.
-/

namespace Tourney.Elimination

open Arena Seeding

inductive Place where
  | winners (round position : Nat)
  | minor (pair position : Nat)
  | major (pair position : Nat)
  | grandFinal
  | reset
  deriving DecidableEq

namespace Place

def index (k : Nat) : Place → Nat
  | winners r p => treeIndex (2 ^ k) r p
  | minor i p => minorIndex (2 ^ k) i p
  | major i p => majorIndex (2 ^ k) i p
  | grandFinal => grandFinalIndex (2 ^ k)
  | reset => resetIndex (2 ^ k)

def bracket : Place → Bracket
  | winners _ _ => .winners
  | minor _ _ => .losers
  | major _ _ => .losers
  | grandFinal => .grandFinal
  | reset => .grandFinal

/-- The round of a place, counted in its bracket. -/
def round (k : Nat) : Place → Nat
  | winners r _ => r
  | minor i _ => 2 * i - 1
  | major i _ => 2 * i
  | grandFinal => k + 1
  | reset => k + 2

/-- Where the loser at a place of the winners bracket goes. -/
def drop (k r p : Nat) : Place × Slot :=
  if k = 1 then (grandFinal, .second)
  else if r = 1 then (minor 1 (p / 2), .ofPosition p)
  else (major (r - 1) p, .second)

/-- The seats that the players at a place go on to. -/
def feeds (k : Nat) : Place → List (Place × Slot)
  | winners r p =>
    [if r < k then (winners (r + 1) (p / 2), .ofPosition p) else (grandFinal, .first), drop k r p]
  | minor i p => [(major i p, .first)]
  | major i p =>
    [if i + 1 < k then (minor (i + 1) (p / 2), .ofPosition p) else (grandFinal, .second)]
  | grandFinal => [(reset, .first), (reset, .second)]
  | reset => []

/-- The place that feeds a seat. -/
def source (k : Nat) : Place × Slot → Place
  | (winners r q, s) => winners (r - 1) (2 * q + Slot.number s)
  | (minor i q, s) =>
    if i = 1 then winners 1 (2 * q + Slot.number s) else major (i - 1) (2 * q + Slot.number s)
  | (major i q, .first) => minor i q
  | (major i q, .second) => winners (i + 1) q
  | (grandFinal, .first) => winners k 0
  | (grandFinal, .second) => if k = 1 then winners 1 0 else major (k - 1) 0
  | (reset, _) => grandFinal

end Place

open Place

def placeMatch (slots : List (Option Player)) (k : Nat) (first : MatchId) (stage : Stage) :
    Place → Match
  | .winners r p => winnersMatch slots k first stage r p
  | .minor i p => minorMatch k first stage i p
  | .major i p => majorMatch k first stage i p
  | .grandFinal => Elimination.grandFinal k first stage
  | .reset => grandFinalReset k first stage

def pairPlaces (k j : Nat) : List Place :=
  (List.range (pairLength (2 ^ k) (j + 1))).map (.minor (j + 1)) ++
    (List.range (pairLength (2 ^ k) (j + 1))).map (.major (j + 1))

/-- The places of a double elimination, in the order of the matches. -/
def doublePlaces (k : Nat) : List Place :=
  (treePlaces k).map (fun x => .winners x.1 x.2) ++ (List.range (k - 1)).flatMap (pairPlaces k) ++
    [.grandFinal, .reset]

theorem doubleTree_eq_map (slots : List (Option Player)) (k : Nat) (first : MatchId)
    (stage : Stage) :
    doubleTree slots k first stage = (doublePlaces k).map (placeMatch slots k first stage) := by
  simp only [doubleTree, doublePlaces, winners, losers, treePlaces, pairPlaces, List.map_append,
    List.map_flatMap, List.map_map]
  rfl

theorem pairLength_eq {k i : Nat} (h : i < k) : pairLength (2 ^ k) i = 2 ^ (k - i - 1) := by
  rw [pairLength, Nat.pow_div (by omega) (by omega), Nat.sub_sub]

section Mem

variable {k r i p : Nat}

theorem winners_mem : Place.winners r p ∈ doublePlaces k ↔ 1 ≤ r ∧ r ≤ k ∧ p < 2 ^ (k - r) := by
  rw [← mem_treePlaces]
  simp [doublePlaces, pairPlaces]

theorem minor_mem : Place.minor i p ∈ doublePlaces k ↔ 1 ≤ i ∧ i < k ∧ p < 2 ^ (k - i - 1) := by
  simp only [doublePlaces, pairPlaces, List.mem_append, List.mem_map, List.mem_flatMap,
    List.mem_range, List.mem_cons, reduceCtorEq, and_false, exists_false, false_or, or_false,
    List.not_mem_nil, Place.minor.injEq]
  constructor
  · rintro ⟨j, hj, q, hq, rfl, rfl⟩
    rw [pairLength_eq (by omega)] at hq
    exact ⟨by omega, by omega, hq⟩
  · rintro ⟨h1, hk, hp⟩
    refine ⟨i - 1, by omega, p, ?_, by omega, rfl⟩
    rw [Nat.sub_add_cancel h1, pairLength_eq hk]
    exact hp

theorem major_mem : Place.major i p ∈ doublePlaces k ↔ 1 ≤ i ∧ i < k ∧ p < 2 ^ (k - i - 1) := by
  simp only [doublePlaces, pairPlaces, List.mem_append, List.mem_map, List.mem_flatMap,
    List.mem_range, List.mem_cons, reduceCtorEq, and_false, exists_false, false_or, or_false,
    List.not_mem_nil, Place.major.injEq]
  constructor
  · rintro ⟨j, hj, q, hq, rfl, rfl⟩
    rw [pairLength_eq (by omega)] at hq
    exact ⟨by omega, by omega, hq⟩
  · rintro ⟨h1, hk, hp⟩
    refine ⟨i - 1, by omega, p, ?_, by omega, rfl⟩
    rw [Nat.sub_add_cancel h1, pairLength_eq hk]
    exact hp

theorem grandFinal_mem : Place.grandFinal ∈ doublePlaces k := by simp [doublePlaces]

theorem reset_mem : Place.reset ∈ doublePlaces k := by simp [doublePlaces]

/-- A bracket that can be numbered has few rounds. -/
theorem le_of_two_pow_le (hfit : 2 ^ k ≤ UInt32.size) : k ≤ 32 :=
  (Nat.pow_le_pow_iff_right (a := 2) (by decide)).1 hfit

theorem round_lt_size (hfit : 2 ^ k ≤ UInt32.size) {x : Place} (hx : x ∈ doublePlaces k) :
    x.round k < UInt32.size := by
  have hk := le_of_two_pow_le hfit
  have hle : x.round k ≤ 64 := by
    cases x with
    | winners r p =>
      have := winners_mem.1 hx
      simp only [Place.round]
      omega
    | minor i p =>
      have := minor_mem.1 hx
      simp only [Place.round]
      omega
    | major i p =>
      have := major_mem.1 hx
      simp only [Place.round]
      omega
    | grandFinal => simp only [Place.round]; omega
    | reset => simp only [Place.round]; omega
  exact Nat.lt_of_le_of_lt hle (by decide)

end Mem

/-! ## Indices -/

theorem minorIndex_succ {k j : Nat} (h : j < k) (p : Nat) :
    minorIndex (2 ^ k) (j + 1) p = 2 ^ k - 1 + (2 ^ k - 2 ^ (k - j)) + p := by
  have hle : 2 ^ (k - j) ≤ 2 ^ k := Nat.pow_le_pow_right (by omega) (by omega)
  have hpos : 0 < 2 ^ (k - j) := Nat.two_pow_pos _
  rw [minorIndex, Nat.add_sub_cancel, Nat.pow_div (by omega) (by omega)]
  omega

theorem range_add_map (a b c : Nat) : (List.range (a + b)).map (c + ·) =
    (List.range a).map (c + ·) ++ (List.range b).map (c + a + ·) := by
  rw [List.range_add, List.map_append, List.map_map]
  congr 1
  exact List.map_congr_left fun x _ => (Nat.add_assoc ..).symm

theorem map_index_pairPlaces {k j : Nat} (h : j + 1 < k) : (pairPlaces k j).map (Place.index k) =
    (List.range (2 ^ (k - j - 1))).map (2 ^ k - 1 + (2 ^ k - 2 ^ (k - j)) + ·) := by
  have h2 := two_pow_pred (a := k - j - 1) (by omega)
  have hlen := pairLength_eq h
  rw [show k - (j + 1) - 1 = k - j - 1 - 1 by omega] at hlen
  rw [h2, Nat.two_mul, range_add_map, pairPlaces, List.map_append, List.map_map, List.map_map, hlen]
  congr 1
  · exact List.map_congr_left fun p _ => minorIndex_succ (by omega) p
  · refine List.map_congr_left fun p _ => ?_
    simp only [Function.comp, index, majorIndex, minorIndex_succ (show j < k by omega), hlen,
      Nat.add_assoc]

theorem flatMap_pairPlaces {k j : Nat} (h : j < k) :
    ((List.range j).flatMap fun i => (pairPlaces k i).map (Place.index k)) =
      (List.range (2 ^ k - 2 ^ (k - j))).map (2 ^ k - 1 + ·) := by
  induction j with
  | zero => simp
  | succ j ih =>
    have h2 := two_pow_pred (a := k - j) (by omega)
    have hle : 2 ^ (k - j) ≤ 2 ^ k := Nat.pow_le_pow_right (by omega) (by omega)
    rw [List.range_succ, List.flatMap_append, ih (by omega), List.flatMap_singleton,
      map_index_pairPlaces h, show 2 ^ k - 2 ^ (k - (j + 1)) =
        2 ^ k - 2 ^ (k - j) + 2 ^ (k - j - 1) by rw [← Nat.sub_sub]; omega, range_add_map]

theorem map_index {k : Nat} (hk : 1 ≤ k) :
    (doublePlaces k).map (Place.index k) = List.range (2 * 2 ^ k - 1) := by
  have hpos := two_pow_pred hk
  have hone : 0 < 2 ^ (k - 1) := Nat.two_pow_pos _
  have hlosers := flatMap_pairPlaces (k := k) (j := k - 1) (by omega)
  rw [show k - (k - 1) = 1 by omega, Nat.pow_one] at hlosers
  rw [show 2 * 2 ^ k - 1 = 2 ^ k - 1 + (2 ^ k - 2) + 2 by omega, List.range_add, List.range_add,
    doublePlaces, List.map_append, List.map_append, List.map_flatMap, hlosers, List.map_map,
    ← map_treeIndex]
  congr 1
  simp only [List.map_cons, List.map_nil, index, grandFinalIndex, resetIndex, List.range_succ,
    List.range_zero, List.nil_append, List.cons_append, List.cons.injEq, and_true]
  omega

theorem length_doublePlaces {k : Nat} (hk : 1 ≤ k) : (doublePlaces k).length = 2 * 2 ^ k - 1 := by
  simpa using congrArg List.length (map_index hk)

theorem index_lt {k : Nat} (hk : 1 ≤ k) {x : Place} (hx : x ∈ doublePlaces k) :
    x.index k < 2 * 2 ^ k - 1 := by
  rw [← List.mem_range, ← map_index hk]
  exact List.mem_map_of_mem hx

theorem majorIndex_succ {k j : Nat} (h : j + 1 < k) (p : Nat) : majorIndex (2 ^ k) (j + 1) p =
    2 ^ k - 1 + (2 ^ k - 2 ^ (k - j)) + 2 ^ (k - j - 2) + p := by
  rw [majorIndex, minorIndex_succ (by omega), pairLength_eq h,
    show k - (j + 1) - 1 = k - j - 2 by omega]
  omega

/-! ## The feeds -/

/-- A seat is fed by its source, which comes before it. -/
def Leads (k : Nat) (x : Place) (l : Place × Slot) : Prop :=
  l.1 ∈ doublePlaces k ∧ source k l = x ∧ x.index k < l.1.index k

section Feeds

variable {k r i p : Nat}

theorem leads_next (hk : 1 ≤ k) (hx : Place.winners r p ∈ doublePlaces k) :
    Leads k (.winners r p)
      (if r < k then (.winners (r + 1) (p / 2), .ofPosition p) else (.grandFinal, .first)) := by
  obtain ⟨h1, hrk, hp⟩ := winners_mem.1 hx
  split_ifs with hr
  · have h2 := two_pow_pred (a := k - r) (by omega)
    rw [Nat.sub_sub] at h2
    refine ⟨winners_mem.2 ⟨by omega, hr, by omega⟩, ?_, treeIndex_lt_next h1 hr hp⟩
    simp only [source, Nat.add_sub_cancel, double_ofPosition]
  · obtain rfl : r = k := by omega
    have hp0 : p = 0 := by simpa using hp
    have hlt : treeIndex (2 ^ r) r p < 2 ^ r - 1 := treeIndex_lt (mem_treePlaces.2 ⟨h1, hrk, hp⟩)
    refine ⟨grandFinal_mem, by rw [hp0]; rfl, ?_⟩
    simp only [index, grandFinalIndex]
    omega

theorem leads_drop (hk : 1 ≤ k) (hx : Place.winners r p ∈ doublePlaces k) :
    Leads k (.winners r p) (drop k r p) := by
  obtain ⟨h1, hrk, hp⟩ := winners_mem.1 hx
  have hlt : treeIndex (2 ^ k) r p < 2 ^ k - 1 := treeIndex_lt (mem_treePlaces.2 ⟨h1, hrk, hp⟩)
  unfold drop
  split_ifs with hone hr
  · subst hone
    obtain rfl : r = 1 := by omega
    have hp0 : p = 0 := by simpa using hp
    refine ⟨grandFinal_mem, by rw [hp0]; rfl, ?_⟩
    simp only [index, grandFinalIndex]
    omega
  · subst hr
    have h2 := two_pow_pred (a := k - 1) (by omega)
    refine ⟨minor_mem.2 ⟨le_refl 1, by omega, by omega⟩, ?_, ?_⟩
    · simp only [source, if_true, double_ofPosition]
    · simp only [index, minorIndex_succ (show 0 < k by omega)]
      omega
  · obtain ⟨j, rfl⟩ : ∃ j, r = j + 2 := ⟨r - 2, by omega⟩
    refine ⟨major_mem.2 ⟨by omega, by omega, ?_⟩, rfl, ?_⟩
    · rw [show k - (j + 2 - 1) - 1 = k - (j + 2) by omega]
      exact hp
    · have hpos : 0 < 2 ^ (k - j - 2) := Nat.two_pow_pos _
      simp only [index, show j + 2 - 1 = j + 1 from rfl,
        majorIndex_succ (show j + 1 < k by omega)]
      omega

theorem leads_minor (hx : Place.minor i p ∈ doublePlaces k) :
    Leads k (.minor i p) (.major i p, .first) := by
  obtain ⟨h1, hik, hp⟩ := minor_mem.1 hx
  obtain ⟨j, rfl⟩ := Nat.exists_eq_add_of_le' h1
  refine ⟨major_mem.2 ⟨h1, hik, hp⟩, rfl, ?_⟩
  have hpos : 0 < 2 ^ (k - j - 2) := Nat.two_pow_pos _
  simp only [index, minorIndex_succ (show j < k by omega), majorIndex_succ hik]
  omega

theorem leads_major (hx : Place.major i p ∈ doublePlaces k) : Leads k (.major i p)
    (if i + 1 < k then (.minor (i + 1) (p / 2), .ofPosition p) else (.grandFinal, .second)) := by
  obtain ⟨h1, hik, hp⟩ := major_mem.1 hx
  split_ifs with hi
  · have h2 := two_pow_pred (a := k - i - 1) (by omega)
    refine ⟨minor_mem.2 ⟨by omega, hi, by rw [← Nat.sub_sub]; omega⟩, ?_, ?_⟩
    · simp only [source]
      rw [if_neg (by omega), double_ofPosition, Nat.add_sub_cancel]
    · obtain ⟨j, rfl⟩ := Nat.exists_eq_add_of_le' h1
      have h4 := two_pow_pred (a := k - j) (by omega)
      have h5 := two_pow_pred (a := k - j - 1) (by omega)
      have hle : 2 ^ (k - j) ≤ 2 ^ k := Nat.pow_le_pow_right (by omega) (by omega)
      rw [show k - (j + 1) - 1 = k - j - 2 by omega] at hp
      simp only [index, majorIndex_succ hik, minorIndex_succ hik,
        show k - (j + 1) = k - j - 1 by omega]
      rw [show k - j - 1 - 1 = k - j - 2 by omega] at h5
      omega
  · obtain ⟨j, rfl⟩ := Nat.exists_eq_add_of_le' h1
    obtain rfl : k = j + 2 := by omega
    have hp0 : p = 0 := by simpa using hp
    have hpos : 4 ≤ 2 ^ (j + 2) := by
      have : 0 < 2 ^ j := Nat.two_pow_pos _
      rw [Nat.pow_add]
      omega
    refine ⟨grandFinal_mem, ?_, ?_⟩
    · rw [hp0]
      simp [source]
    · simp only [index, majorIndex_succ hik, grandFinalIndex, show j + 2 - j = 2 by omega]
      omega

theorem leads_grandFinal (hk : 1 ≤ k) (s : Slot) : Leads k .grandFinal (.reset, s) := by
  have h2 := two_pow_pred hk
  have hpos : 0 < 2 ^ (k - 1) := Nat.two_pow_pos _
  refine ⟨reset_mem, rfl, ?_⟩
  simp only [index, grandFinalIndex, resetIndex]
  omega

theorem leads_of_feeds (hk : 1 ≤ k) {x : Place} (hx : x ∈ doublePlaces k) {l : Place × Slot}
    (hl : l ∈ feeds k x) : Leads k x l := by
  cases x with
  | winners r p =>
    simp only [feeds, List.mem_cons, List.not_mem_nil, or_false] at hl
    rcases hl with rfl | rfl
    · exact leads_next hk hx
    · exact leads_drop hk hx
  | minor i p =>
    obtain rfl := List.mem_singleton.1 hl
    exact leads_minor hx
  | major i p =>
    obtain rfl := List.mem_singleton.1 hl
    exact leads_major hx
  | grandFinal =>
    simp only [feeds, List.mem_cons, List.not_mem_nil, or_false] at hl
    rcases hl with rfl | rfl <;> exact leads_grandFinal hk _
  | reset => simp [feeds] at hl

/-- Every seat outside the first winners round is fed. -/
theorem fed_of_source (hk : 1 ≤ k) {x : Place} (hx : x ∈ doublePlaces k) (s : Slot)
    (hroot : ∀ p, x ≠ .winners 1 p) :
    source k (x, s) ∈ doublePlaces k ∧ (x, s) ∈ feeds k (source k (x, s)) := by
  cases x with
  | winners r p =>
    obtain ⟨h1, hrk, hp⟩ := winners_mem.1 hx
    have hr : r ≠ 1 := fun h => hroot p (by rw [h])
    have h2 := two_pow_pred (a := k - (r - 1)) (by omega)
    rw [show k - (r - 1) - 1 = k - r by omega] at h2
    simp only [source, feeds]
    refine ⟨winners_mem.2 ⟨by omega, by omega, ?_⟩, ?_⟩
    · cases s <;> simp only [Slot.number] <;> omega
    · rw [if_pos (show r - 1 < k by omega), double_div, ofPosition_double, Nat.sub_add_cancel h1]
      simp
  | minor i p =>
    obtain ⟨h1, hik, hp⟩ := minor_mem.1 hx
    have h2 := two_pow_pred (a := k - i) (by omega)
    simp only [source]
    split_ifs with hi
    · subst hi
      refine ⟨winners_mem.2 ⟨le_refl 1, by omega, ?_⟩, ?_⟩
      · cases s <;> simp only [Slot.number] <;> omega
      · simp [feeds, drop, show k ≠ 1 by omega, double_div, ofPosition_double]
    · refine ⟨major_mem.2 ⟨by omega, by omega, ?_⟩, ?_⟩
      · rw [show k - (i - 1) - 1 = k - i by omega]
        cases s <;> simp only [Slot.number] <;> omega
      · simp only [feeds]
        rw [if_pos (show i - 1 + 1 < k by omega), double_div, ofPosition_double,
          Nat.sub_add_cancel h1]
        simp
  | major i p =>
    obtain ⟨h1, hik, hp⟩ := major_mem.1 hx
    cases s with
    | first => exact ⟨minor_mem.2 ⟨h1, hik, hp⟩, by simp [source, feeds]⟩
    | second =>
      refine ⟨winners_mem.2 ⟨by omega, by omega, by rw [← Nat.sub_sub]; exact hp⟩, ?_⟩
      simp [source, feeds, drop, show k ≠ 1 by omega, show i ≠ 0 by omega]
  | grandFinal =>
    cases s with
    | first => exact ⟨winners_mem.2 ⟨hk, le_refl k, by simp⟩, by simp [source, feeds]⟩
    | second =>
      simp only [source]
      split_ifs with hone
      · subst hone
        exact ⟨winners_mem.2 ⟨le_refl 1, le_refl 1, by simp⟩, by simp [feeds, drop]⟩
      · refine ⟨major_mem.2 ⟨by omega, by omega, Nat.two_pow_pos _⟩, ?_⟩
        simp [feeds, Nat.sub_add_cancel hk]
  | reset => exact ⟨grandFinal_mem, by cases s <;> simp [source, feeds]⟩

end Feeds

/-! ## The two trees as an arena -/

section Arena

variable {slots : List (Option Player)} {k : Nat} {first : MatchId} {stage : Stage}

theorem placeMatch_id (x : Place) :
    (placeMatch slots k first stage x).id = first.plus (x.index k) := by
  cases x with
  | winners r p => exact treeMatch_id ..
  | minor i p => rfl
  | major i p => rfl
  | grandFinal => rfl
  | reset => rfl

theorem placeMatch_stage (x : Place) : (placeMatch slots k first stage x).stage = stage := by
  cases x with
  | winners r p => exact treeMatch_stage ..
  | minor i p => rfl
  | major i p => rfl
  | grandFinal => rfl
  | reset => rfl

theorem placeMatch_bracket (x : Place) :
    (placeMatch slots k first stage x).bracket = some x.bracket := by
  cases x <;> rfl

theorem placeMatch_round (x : Place) :
    (placeMatch slots k first stage x).round = UInt32.ofNat (x.round k) := by
  cases x with
  | winners r p => exact treeMatch_round ..
  | minor i p => rfl
  | major i p => rfl
  | grandFinal => rfl
  | reset => rfl

theorem placeMatch_unsettled (x : Place) : (placeMatch slots k first stage x).Unsettled := by
  cases x with
  | winners r p => exact treeMatch_unsettled slots k first stage r p
  | minor i p => exact ⟨rfl, rfl⟩
  | major i p => exact ⟨rfl, rfl⟩
  | grandFinal => exact ⟨rfl, rfl⟩
  | reset => exact ⟨rfl, rfl⟩

theorem placeMatch_seat {x : Place} (hx : ∀ p, x ≠ .winners 1 p) (s : Slot) :
    (placeMatch slots k first stage x).seat s = {} := by
  cases x with
  | winners r p => exact treeMatch_seat _ _ _ _ _ (fun h => hx p (by rw [h])) s
  | minor i p => cases s <;> rfl
  | major i p => cases s <;> rfl
  | grandFinal => cases s <;> rfl
  | reset => cases s <;> rfl

theorem placeMatch_seat_one (p : Nat) (s : Slot) :
    (placeMatch slots k first stage (.winners 1 p)).seat s =
      .settled (slots[2 * p + Slot.number s]?.join) := by
  cases s <;> rfl

theorem dropRef_eq (r p : Nat) :
    dropRef k first r p = ⟨first.plus ((drop k r p).1.index k), (drop k r p).2⟩ := by
  unfold dropRef drop
  split_ifs <;> rfl

/-- The seat of a match that a place stands for. -/
def seatRef (slots : List (Option Player)) (k : Nat) (first : MatchId) (stage : Stage)
    (l : Place × Slot) : SeatRef :=
  ⟨(placeMatch slots k first stage l.1).id, l.2⟩

theorem placeMatch_next {x : Place} : (placeMatch slots k first stage x).next =
    (feeds k x).head?.map (seatRef slots k first stage) := by
  unfold seatRef
  simp only [placeMatch_id]
  cases x with
  | winners r p =>
    simp only [placeMatch, winnersMatch, treeMatch_next, feeds]
    split_ifs <;> rfl
  | minor i p => rfl
  | major i p =>
    simp only [placeMatch, majorMatch, feeds]
    split_ifs <;> rfl
  | grandFinal => rfl
  | reset => rfl

theorem placeMatch_loserNext {x : Place} : (placeMatch slots k first stage x).loserNext =
    (feeds k x)[1]?.map (seatRef slots k first stage) := by
  unfold seatRef
  simp only [placeMatch_id]
  cases x with
  | winners r p => exact congrArg some (dropRef_eq r p)
  | minor i p => rfl
  | major i p => rfl
  | grandFinal => rfl
  | reset => rfl

theorem placeMatch_isGrandFinal {x : Place} (hx : x ≠ .grandFinal) :
    (placeMatch slots k first stage x).isGrandFinal = false := by
  cases x with
  | winners r p => exact treeMatch_isGrandFinal ..
  | minor i p => rfl
  | major i p => rfl
  | grandFinal => exact absurd rfl hx
  | reset => rfl

theorem placeMatch_targets {x : Place} : (placeMatch slots k first stage x).targets =
    (feeds k x).map (seatRef slots k first stage) := by
  unfold Match.targets
  rw [placeMatch_next, placeMatch_loserNext]
  cases x <;> rfl

theorem numbered_doubleTree (hk : 1 ≤ k) : Numbered first (doubleTree slots k first stage) := by
  unfold Numbered
  rw [doubleTree_eq_map, List.length_map, length_doublePlaces hk, ← map_index hk, List.map_map,
    List.map_map]
  exact List.map_congr_left fun x _ => placeMatch_id x

theorem length_doubleTree (hk : 1 ≤ k) :
    (doubleTree slots k first stage).length = 2 * 2 ^ k - 1 := by
  rw [doubleTree_eq_map, List.length_map, length_doublePlaces hk]

theorem doubleLayout (hk : 1 ≤ k) (hfit : first.val.toNat + (2 * 2 ^ k - 1) ≤ UInt32.size) :
    Layout (doublePlaces k) (placeMatch slots k first stage) (feeds k) (source k) where
  ordered := by
    have h : Numbered first (doubleTree slots k first stage) := numbered_doubleTree hk
    rw [← doubleTree_eq_map]
    exact h.ordered (by rwa [length_doubleTree hk])
  targets := fun _ _ => placeMatch_targets
  leads := by
    intro x hx l hl
    obtain ⟨hmem, hsource, hlt⟩ := leads_of_feeds hk hx hl
    refine ⟨hmem, hsource, ?_, by rw [placeMatch_stage, placeMatch_stage]⟩
    have := index_lt hk hmem
    rw [placeMatch_id, placeMatch_id]
    exact MatchId.plus_lt hlt (by omega)
  apart := by
    intro x _
    cases x with
    | winners r p =>
      simp only [feeds, drop]
      split_ifs <;> simp
    | minor i p => simp [feeds]
    | major i p => simp [feeds]
    | grandFinal => simp [feeds]
    | reset => simp [feeds]
  grandFinal := by
    intro x _ hg
    by_cases hx : x = .grandFinal
    · subst hx
      exact ⟨.reset, rfl, rfl, rfl⟩
    · rw [placeMatch_isGrandFinal hx] at hg
      cases hg
  fresh := fun x _ => placeMatch_unsettled x
  proper := by
    intro x _ s
    by_cases hx : ∃ p, x = .winners 1 p
    · obtain ⟨p, rfl⟩ := hx
      rw [placeMatch_seat_one]
      exact Seat.proper_settled _
    · rw [placeMatch_seat (not_exists.1 hx)]
      intro h
      cases h
  opens := by
    intro x hx l hl
    obtain ⟨y, s⟩ := l
    refine placeMatch_seat (fun p hp => ?_) s
    -- the source of a seat of round one would stand in round zero
    obtain rfl : y = .winners 1 p := hp
    obtain ⟨-, rfl, -⟩ := leads_of_feeds hk hx hl
    exact absurd (winners_mem.1 hx).1 (by omega)
  fed := by
    intro x hx s hs
    refine fed_of_source hk hx s fun p hp => ?_
    subst hp
    rw [placeMatch_seat_one] at hs
    exact Seat.settled_ne_open _ hs

/-- The two trees are coherent once their opening is settled. -/
theorem coherent_doubleTree (hk : 1 ≤ k)
    (hfit : first.val.toNat + (2 * 2 ^ k - 1) ≤ UInt32.size) :
    Coherent (doubleTree slots k first stage) ((openingIds k first).map .settle) := by
  rw [doubleTree_eq_map]
  refine (doubleLayout hk hfit).coherent ?_ ?_
  · intro x hx
    by_cases hroot : ∃ p, x = .winners 1 p
    · obtain ⟨p, rfl⟩ := hroot
      exact .inr ((mem_openingIds hk).2 ⟨p, (winners_mem.1 hx).2.2, placeMatch_id _⟩)
    · have hu : (placeMatch slots k first stage x).Unsettled := placeMatch_unsettled x
      refine .inl ?_
      unfold Match.AtRest
      rw [hu.1]
      exact ⟨hu.2, .inr ⟨.first, placeMatch_seat (not_exists.1 hroot) _⟩⟩
  · intro id hid
    obtain ⟨p, hp, rfl⟩ := (mem_openingIds hk).1 hid
    exact ⟨.winners 1 p, winners_mem.2 ⟨le_refl 1, hk, hp⟩, placeMatch_id _⟩

end Arena

end Tourney.Elimination
