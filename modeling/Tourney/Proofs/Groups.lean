import Tourney.Groups
import Tourney.Proofs.Elimination.FirstRound
import Tourney.Proofs.Elimination.Regular
import Tourney.Proofs.RoundRobin.Schedule
import Tourney.Proofs.RoundRobin.Table

/-!
# Groups and their finals

A roster that passes is cut into two groups that can be drawn (`drawGroups_yields`). Whatever order
the tables of the groups end in, their first rows are a roster that passes for the finals
(`finals_yields`).
-/

namespace Tourney.Groups

open Arena Elimination RoundRobin Seeding

section Draw

variable {players : List Player} {plan : StagePlan}

theorem split_spec (players : List Player) : (split players).1 ++ (split players).2 = players ∧
    (split players).1.length = (players.length + 1) / 2 ∧
      (split players).2.length = players.length / 2 := by
  have hle : (players.length + 1) / 2 ≤ players.length ∨ players.length = 0 := by omega
  simp only [split, List.splitAt_eq, List.take_append_drop, List.length_take, List.length_drop,
    true_and]
  omega

theorem drawGroups_yields (draw : Draw) (first : MatchId) (hr : Roster.check players 4 = .ok ())
    (hp : plan.check players.length = .ok ()) :
    Yields (first.val.toNat + ((players.length + 1) / 2 * ((players.length + 1) / 2 - 1) / 2 +
        players.length / 2 * (players.length / 2 - 1) / 2) < UInt32.size)
      (drawGroups players plan draw first) fun d =>
        d.groupA = (split (draw.order players)).1 ∧ d.groupB = (split (draw.order players)).2 ∧
        d.fixtures = fieldMatches d.groupA first .groupA ++ fieldMatches d.groupB
          (first.plus (fieldMatches d.groupA first .groupA).length) .groupB ∧
        first.val.toNat + d.fixtures.length < UInt32.size := by
  obtain ⟨happ, hlenA, hlenB⟩ := split_spec (draw.order players)
  have hlen := (draw.perm players).length_eq
  have hn := (Roster.check_eq_ok_iff.1 hr).1
  have hnd := ((draw.perm players).nodup_iff).2 (Roster.check_eq_ok_iff.1 hr).2.2
  have hmem : ∀ p ∈ draw.order players, p ∈ players := fun p => (draw.perm players).mem_iff.1
  rw [hlen] at hlenA hlenB
  rw [← happ] at hnd hmem
  obtain ⟨hndA, hndB, -⟩ := List.nodup_append.1 hnd
  have hcA : Roster.check (split (draw.order players)).1 2 = .ok () :=
    Roster.check_mono hr (fun p hp => hmem p (List.mem_append_left _ hp)) hndA (by omega)
  have hcB : Roster.check (split (draw.order players)).2 2 = .ok () :=
    Roster.check_mono hr (fun p hp => hmem p (List.mem_append_right _ hp)) hndB (by omega)
  rw [drawGroups, hr, hp]
  refine ((generate_yields .seeded first .groupA hcA).imp (fun h => ?_) fun _ h => h).bind ?_
  · rw [hlenA]
    omega
  rintro _ ⟨rfl, hfitA⟩
  have hlenA' : (fieldMatches (split (draw.order players)).1 first .groupA).length =
      (players.length + 1) / 2 * ((players.length + 1) / 2 - 1) / 2 := by
    rw [length_fieldMatches (by omega), hlenA]
  refine ((MatchId.plus?_yields first _).imp (fun _ => hfitA) fun _ h => h).bind ?_
  rintro _ ⟨rfl, -⟩
  refine ((generate_yields .seeded _ .groupB hcB).imp (fun h => ?_) fun _ h => h).bind ?_
  · have hA : (fieldMatches (Draw.seeded.order (split (draw.order players)).1) first
        .groupA).length = _ := hlenA'
    rw [MatchId.toNat_plus hfitA, hlenB, hA]
    omega
  rintro _ ⟨rfl, hfitB⟩
  refine .pure ⟨rfl, rfl, rfl, ?_⟩
  rw [MatchId.toNat_plus hfitA] at hfitB
  rw [List.length_append, ← Nat.add_assoc]
  exact hfitB

end Draw

/-! ## The finals -/

/-- The finals of qualifiers in seed order, no bye resolved yet. -/
def finalsTree (plan : StagePlan) (seeds : List Player) (first : MatchId) : List Match :=
  match plan.finalsFormat with
  | .singleElimination => tree (bracketSlots seeds) (rounds seeds.length) first .finals
  | .doubleElimination => doubleTree (bracketSlots seeds) (rounds seeds.length) first .finals

/-- How many matches finals have. -/
def finalsCount (plan : StagePlan) : Nat :=
  match plan.finalsFormat with
  | .singleElimination => bracketSize plan.finalsSize.toNat - 1
  | .doubleElimination => 2 * bracketSize plan.finalsSize.toNat - 1

section Tree

variable {plan : StagePlan} {seeds : List Player} {first : MatchId} {m : Match}

theorem numbered_finalsTree : Numbered first (finalsTree plan seeds first) := by
  unfold finalsTree
  split
  · exact numbered_tree
  · exact numbered_doubleTree (rounds_pos _)

theorem length_finalsTree (hlen : seeds.length = plan.finalsSize.toNat) :
    (finalsTree plan seeds first).length = finalsCount plan := by
  unfold finalsTree finalsCount bracketSize
  rw [hlen]
  split
  · exact length_tree
  · exact length_doubleTree (rounds_pos _)

theorem mem_finalsTree (hm : m ∈ finalsTree plan seeds first) :
    m.Fresh ∧ m.stage = .finals ∧ ∀ p, m.hasPlayer p → p ∈ seeds := by
  unfold finalsTree at hm
  split at hm
  · exact ⟨(fresh_tree hm).1, (fresh_tree hm).2, fun p hp => players_tree hm hp⟩
  · exact ⟨(fresh_doubleTree hm).1, (fresh_doubleTree hm).2, fun p hp => players_doubleTree hm hp⟩

theorem finalsCount_pos (plan : StagePlan) : 0 < finalsCount plan := by
  have h2 : 2 ≤ bracketSize plan.finalsSize.toNat := by
    unfold bracketSize
    have h := two_pow_pred (rounds_pos plan.finalsSize.toNat)
    have hpos : 0 < 2 ^ (rounds plan.finalsSize.toNat - 1) := Nat.two_pow_pos _
    omega
  unfold finalsCount
  split <;> omega

theorem crowns_finalsTree (hn : 2 ≤ seeds.length) (hlen : seeds.length = plan.finalsSize.toNat)
    (hfit : first.val.toNat + finalsCount plan < UInt32.size) :
    Crowns (finalsTree plan seeds first) := by
  unfold finalsCount at hfit
  unfold finalsTree
  rw [← hlen] at hfit
  split
  · exact crowns_tree hn (by simp_all)
  · exact crowns_doubleTree hn (by simp_all; omega)

theorem regular_finalsTree (hn : 2 ≤ seeds.length) (hnd : seeds.Nodup)
    (hlen : seeds.length = plan.finalsSize.toNat)
    (hfit : first.val.toNat + finalsCount plan < UInt32.size) :
    Regular (finalsTree plan seeds first) := by
  unfold finalsCount at hfit
  unfold finalsTree
  rw [← hlen] at hfit
  split
  · exact regular_tree hn hnd (by simp_all)
  · exact regular_doubleTree hn hnd (by simp_all; omega)

theorem seated_finalsTree (hlen : seeds.length = plan.finalsSize.toNat)
    (hfit : first.val.toNat + finalsCount plan < UInt32.size) :
    Seated seeds (finalsTree plan seeds first) := by
  have hsize : bracketSize seeds.length ≤ UInt32.size := by
    unfold finalsCount at hfit
    rw [hlen]
    split at hfit <;> omega
  unfold finalsTree
  split
  · exact seated_tree hsize
  · exact seated_doubleTree hsize

/-- Nobody but the qualifiers comes to play in the finals. -/
theorem players_finals (hlen : seeds.length = plan.finalsSize.toNat)
    (hfit : first.val.toNat + finalsCount plan < UInt32.size) {ms : List Match}
    (hc : Coherent ms []) (he : List.Forall₂ Match.Evolves (finalsTree plan seeds first) ms) :
    ∀ m ∈ ms, ∀ p, m.hasPlayer p → p ∈ seeds := by
  have hmem : ∀ m ∈ finalsTree plan seeds first, ∀ p, m.hasPlayer p → p ∈ seeds :=
    fun m hm => (mem_finalsTree hm).2.2
  unfold finalsCount at hfit
  rw [← hlen] at hfit
  unfold finalsTree at he hmem
  rcases hp : plan.finalsFormat with _ | _ <;> simp only [hp] at hfit he hmem
  · exact (coherent_tree (rounds_pos _) hfit).players_of_evolves hc he hmem
  · exact (coherent_doubleTree (rounds_pos _) (Nat.le_of_lt hfit)).players_of_evolves hc he hmem

end Tree

section Seeds

variable {tableA tableB : List Row} {plan : StagePlan}

/-- The finals take the first rows of both tables, in turn. -/
theorem finalsSeeding_perm (size : Nat) (hA : size / 2 ≤ tableA.length)
    (hB : size / 2 ≤ tableB.length) : (finalsSeeding tableA tableB size).Perm
      ((tableA.take (size / 2)).map Row.player ++ (tableB.take (size / 2)).map Row.player) := by
  have hlen : (tableA.take (size / 2)).length = (tableB.take (size / 2)).length := by
    rw [List.length_take, List.length_take]
    omega
  rw [finalsSeeding, List.zip, List.take_zipWith, ← List.zip]
  refine (List.flatMap_append_perm _ (fun x : Row × Row => [x.1.player])
    fun x => [x.2.player]).symm.trans (.of_eq ?_)
  rw [← List.map_eq_flatMap, ← List.map_eq_flatMap]
  congr 1
  · refine Eq.trans (List.map_map (f := Prod.fst) (g := Row.player)).symm ?_
    rw [List.map_fst_zip (by omega)]
  · refine Eq.trans (List.map_map (f := Prod.snd) (g := Row.player)).symm ?_
    rw [List.map_snd_zip (by omega)]

theorem getElem?_flatMap_pair {α β : Type} (f g : α → β) (xs : List α) (i : Nat) :
    (xs.flatMap fun x => [f x, g x])[2 * i]? = xs[i]?.map f ∧
      (xs.flatMap fun x => [f x, g x])[2 * i + 1]? = xs[i]?.map g := by
  induction xs generalizing i with
  | nil => simp
  | cons x xs ih =>
    cases i with
    | zero => simp
    | succ i => simpa [Nat.mul_add] using ih i

/-- The seeds of either parity are the rows of one table, from the top. -/
theorem getElem?_finalsSeeding {size i : Nat} (hi : i < size / 2) (hA : size / 2 ≤ tableA.length)
    (hB : size / 2 ≤ tableB.length) : ∃ a b, tableA[i]? = some a ∧ tableB[i]? = some b ∧
      (finalsSeeding tableA tableB size)[2 * i]? = some a.player ∧
      (finalsSeeding tableA tableB size)[2 * i + 1]? = some b.player := by
  obtain ⟨heven, hodd⟩ := getElem?_flatMap_pair (fun x : Row × Row => x.1.player)
    (fun x => x.2.player) ((tableA.zip tableB).take (size / 2)) i
  have hrow : ((tableA.zip tableB).take (size / 2))[i]? = some (tableA[i], tableB[i]) := by
    rw [List.getElem?_take_of_lt hi, List.getElem?_eq_getElem (by rw [List.length_zip]; omega),
      List.getElem_zip]
  rw [hrow] at heven hodd
  exact ⟨tableA[i], tableB[i], List.getElem?_eq_getElem _, List.getElem?_eq_getElem _, heven, hodd⟩

theorem mem_of_finalsSeeding {size j : Nat} {p : Player}
    (h : (finalsSeeding tableA tableB size)[j]? = some p) :
    p ∈ (if j % 2 = 0 then tableA else tableB).map Row.player := by
  obtain ⟨heven, hodd⟩ := getElem?_flatMap_pair (fun x : Row × Row => x.1.player)
    (fun x => x.2.player) ((tableA.zip tableB).take (size / 2)) (j / 2)
  split_ifs with hj
  · rw [show 2 * (j / 2) = j by omega] at heven
    obtain ⟨x, hx, rfl⟩ := Option.map_eq_some_iff.1 (heven.symm.trans h)
    exact List.mem_map_of_mem (List.of_mem_zip (List.mem_of_mem_take (List.mem_of_getElem? hx))).1
  · rw [show 2 * (j / 2) + 1 = j by omega] at hodd
    obtain ⟨x, hx, rfl⟩ := Option.map_eq_some_iff.1 (hodd.symm.trans h)
    exact List.mem_map_of_mem (List.of_mem_zip (List.mem_of_mem_take (List.mem_of_getElem? hx))).2

/-- Seeds that mirror one another come from different tables. -/
theorem mem_of_mirrored {size k j : Nat} {x y : Player} (hk : 1 ≤ k) (hj : j < 2 ^ k)
    (hx : (finalsSeeding tableA tableB size)[j]? = some x)
    (hy : (finalsSeeding tableA tableB size)[2 ^ k - 1 - j]? = some y) :
    x ∈ tableA.map Row.player ∧ y ∈ tableB.map Row.player ∨
      x ∈ tableB.map Row.player ∧ y ∈ tableA.map Row.player := by
  have htwo := two_pow_pred hk
  have hx := mem_of_finalsSeeding hx
  have hy := mem_of_finalsSeeding hy
  by_cases heven : j % 2 = 0
  · rw [if_pos heven] at hx
    rw [if_neg (by omega)] at hy
    exact .inl ⟨hx, hy⟩
  · rw [if_neg heven] at hx
    rw [if_pos (by omega)] at hy
    exact .inr ⟨hx, hy⟩

section Qualify

variable {players groupA groupB : List Player} (hp : plan.check players.length = .ok ())
  (hperm : (groupA ++ groupB).Perm players) (hlenA : groupA.length = (players.length + 1) / 2)
  (hA : (tableA.map Row.player).Perm groupA) (hB : (tableB.map Row.player).Perm groupB)

include hp hperm hlenA hA hB

/-- Two tables of a roster, one for each group, have as many rows as the finals take. -/
theorem size_le_tables : 2 ≤ plan.finalsSize.toNat ∧ plan.finalsSize.toNat % 2 = 0 ∧
    plan.finalsSize.toNat / 2 ≤ tableA.length ∧ plan.finalsSize.toNat / 2 ≤ tableB.length := by
  have hlen := hperm.length_eq
  have hlenA' := hA.length_eq
  have hlenB' := hB.length_eq
  rw [List.length_append] at hlen
  rw [List.length_map] at hlenA' hlenB'
  unfold StagePlan.check at hp
  dsimp only at hp
  split_ifs at hp with h4 hbad
  omega

theorem length_finalsSeeding :
    (finalsSeeding tableA tableB plan.finalsSize.toNat).length = plan.finalsSize.toNat := by
  obtain ⟨-, heven, hsizeA, hsizeB⟩ := size_le_tables hp hperm hlenA hA hB
  rw [(finalsSeeding_perm _ hsizeA hsizeB).length_eq]
  simp only [List.length_append, List.length_map, List.length_take]
  omega

variable (hr : Roster.check players 4 = .ok ())

include hr

/-- The qualifiers are a roster that passes. -/
theorem check_finalsSeeding :
    Roster.check (finalsSeeding tableA tableB plan.finalsSize.toNat) 2 = .ok () ∧
      ∀ p ∈ finalsSeeding tableA tableB plan.finalsSize.toNat, p ∈ players := by
  obtain ⟨hsize, -, hsizeA, hsizeB⟩ := size_le_tables hp hperm hlenA hA hB
  have hcount := length_finalsSeeding hp hperm hlenA hA hB
  have hsub : List.Subperm (finalsSeeding tableA tableB plan.finalsSize.toNat) players := by
    refine (finalsSeeding_perm _ hsizeA hsizeB).subperm.trans
      (List.Subperm.trans ?_ hperm.subperm)
    refine List.Subperm.append (List.Subperm.trans ?_ hA.subperm)
      (List.Subperm.trans ?_ hB.subperm)
    · exact ((List.take_sublist _ _).map _).subperm
    · exact ((List.take_sublist _ _).map _).subperm
  refine ⟨Roster.check_mono hr (fun p hp => hsub.subset hp) ?_ (by omega),
    fun p hp => hsub.subset hp⟩
  obtain ⟨l, hl, hls⟩ := hsub
  exact hl.nodup_iff.1 ((Roster.check_eq_ok_iff.1 hr).2.2.sublist hls)

/-- Two tables of a roster, one for each group, end in finals. -/
theorem finals_yields (first : MatchId) :
    Yields (first.val.toNat + finalsCount plan < UInt32.size) (finals tableA tableB plan first)
      fun ms => Coherent ms [] ∧ (∀ m ∈ ms, ∀ p, m.hasPlayer p → p ∈ players) ∧
        first.val.toNat + ms.length ≤ UInt32.size ∧ List.Forall₂ Match.Settles
          (finalsTree plan (finalsSeeding tableA tableB plan.finalsSize.toNat) first) ms := by
  have hcount := length_finalsSeeding hp hperm hlenA hA hB
  obtain ⟨hcheck, hmem⟩ := check_finalsSeeding hp hperm hlenA hA hB hr
  unfold finals finalsTree finalsCount
  dsimp only
  rw [if_neg (by simp [hcount])]
  rcases plan.finalsFormat with _ | _
  · refine (single_yields .seeded first .finals hcheck).imp (by rw [hcount]; exact id)
      fun ms ⟨hc, hf, hps, hlast⟩ => ?_
    exact ⟨hc, fun m hm p hp => hmem p (hps m hm p hp), hlast, hf⟩
  · refine (double_yields .seeded first .finals hcheck).imp (by rw [hcount]; exact Nat.le_of_lt)
      fun ms ⟨hc, hf, hps, hlast⟩ => ?_
    exact ⟨hc, fun m hm p hp => hmem p (hps m hm p hp), hlast, hf⟩

end Qualify

end Seeds

end Tourney.Groups
