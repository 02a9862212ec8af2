import Mathlib.Data.List.Perm.Basic
import Mathlib.Data.List.Nodup
import Mathlib.Data.Nat.Log
import Tourney.Elimination.Single

/-!
# Seeds and slots

The slots of a bracket are a permutation (`slots_perm`), so every player gets one
(`bracketSlots_perm`). The field is more than half the bracket, and the upper half of the seeds has
the even slots, so no match of the first round is empty (`bracketSlots_even`).
-/

namespace Tourney.Seeding

theorem rounds_pos (n : Nat) : 1 ≤ rounds n := Nat.le_add_left ..

theorem le_bracketSize (n : Nat) : n ≤ bracketSize n := by
  have h : max n 2 - 1 < 2 ^ ((max n 2 - 1).log2 + 1) := Nat.lt_log2_self
  unfold bracketSize rounds
  omega

theorem half_lt {n : Nat} (hn : 2 ≤ n) : 2 ^ (rounds n - 1) < n := by
  have h : 2 ^ (max n 2 - 1).log2 ≤ max n 2 - 1 := Nat.log2_self_le (by omega)
  unfold rounds
  rw [Nat.add_sub_cancel]
  omega

theorem length_slots (k : Nat) : (slots k).length = 2 ^ k := by
  induction k with
  | zero => rfl
  | succ k ih => simp [slots, ih, Nat.pow_succ]; omega

theorem slots_perm (k : Nat) : (slots k).Perm (List.range (2 ^ k)) := by
  induction k with
  | zero => exact .refl _
  | succ k ih =>
    have hodd : ((slots k).reverse.map (2 * · + 1)).Perm ((List.range (2 ^ k)).map (2 * · + 1)) :=
      ((List.reverse_perm _).trans ih).map _
    refine ((ih.map (2 * ·)).append hodd).trans ?_
    refine (List.perm_ext_iff_of_nodup ?_ List.nodup_range).2 fun a => ?_
    · refine List.Nodup.append ?_ ?_ ?_
      · exact List.nodup_range.map fun a b h => by change 2 * a = 2 * b at h; omega
      · exact List.nodup_range.map fun a b h => by change 2 * a + 1 = 2 * b + 1 at h; omega
      · intro a ha hb
        simp only [List.mem_map] at ha hb
        omega
    · simp only [List.mem_append, List.mem_map, List.mem_range, Nat.pow_succ]
      constructor
      · omega
      · intro ha
        rcases Nat.mod_two_eq_zero_or_one a with h | h
        · exact .inl ⟨a / 2, by omega, by omega⟩
        · exact .inr ⟨a / 2, by omega, by omega⟩

theorem nodup_slots (k : Nat) : (slots k).Nodup := (slots_perm k).nodup_iff.2 List.nodup_range

/-- The first half of the seeds of a doubled bracket has the even slots, and each mirror image the
odd slot beside. -/
theorem getElem?_slots {k j : Nat} (hj : j < 2 ^ k) : ∃ x, (slots k)[j]? = some x ∧
    (slots (k + 1))[j]? = some (2 * x) ∧
      (slots (k + 1))[2 ^ (k + 1) - 1 - j]? = some (2 * x + 1) := by
  have hlen := length_slots k
  have hsucc := Nat.pow_succ 2 k
  obtain ⟨x, hget⟩ : ∃ x, (slots k)[j]? = some x :=
    ⟨_, List.getElem?_eq_getElem (by omega)⟩
  refine ⟨x, hget, ?_, ?_⟩
  · rw [slots, List.getElem?_append_left (by simpa [hlen] using hj), List.getElem?_map, hget]
    rfl
  · rw [slots, List.getElem?_append_right (by rw [List.length_map]; omega), List.length_map,
      List.getElem?_map, List.getElem?_reverse (by omega), hlen,
      show 2 ^ k - 1 - (2 ^ (k + 1) - 1 - j - 2 ^ k) = j by omega, hget]
    rfl

/-- The seed at an even slot stands in the first half of the seeds, and mirrors the one beside. -/
theorem idxOf_slots {k p : Nat} (hp : p < 2 ^ k) : (slots k).idxOf p < 2 ^ k ∧
    (slots (k + 1)).idxOf (2 * p) = (slots k).idxOf p ∧
      (slots (k + 1)).idxOf (2 * p + 1) = 2 ^ (k + 1) - 1 - (slots k).idxOf p := by
  have hj : (slots k).idxOf p < (slots k).length :=
    List.idxOf_lt_length_iff.2 ((slots_perm k).mem_iff.2 (List.mem_range.2 hp))
  have hj' : (slots k).idxOf p < 2 ^ k := by rwa [length_slots] at hj
  have hidx : ∀ {i x : Nat}, (slots (k + 1))[i]? = some x → (slots (k + 1)).idxOf x = i := by
    intro i x h
    obtain ⟨hi, rfl⟩ := List.getElem?_eq_some_iff.1 h
    exact (nodup_slots _).idxOf_getElem i hi
  obtain ⟨x, hx, heven, hodd⟩ := getElem?_slots hj'
  rw [List.getElem?_eq_getElem hj, List.getElem_idxOf, Option.some.injEq] at hx
  subst hx
  exact ⟨hj', hidx heven, hidx hodd⟩

/-! ## Seating by slots -/

section Seat

variable {α : Type} {pairs : List (α × Nat)} {acc : List (Option α)}

theorem length_foldl_set :
    (pairs.foldl (fun slots (p, i) => slots.set i (some p)) acc).length = acc.length := by
  induction pairs generalizing acc with
  | nil => rfl
  | cons x xs ih => rw [List.foldl_cons, ih, List.length_set]

theorem foldl_set_of_not_mem {i : Nat} (h : i ∉ pairs.map Prod.snd) :
    (pairs.foldl (fun slots (p, i) => slots.set i (some p)) acc)[i]? = acc[i]? := by
  induction pairs generalizing acc with
  | nil => rfl
  | cons x xs ih =>
    simp only [List.map_cons, List.mem_cons, not_or] at h
    rw [List.foldl_cons, ih h.2, List.getElem?_set_ne (Ne.symm h.1)]

theorem foldl_set_of_mem {p : α} {i : Nat} (hn : (pairs.map Prod.snd).Nodup)
    (h : (p, i) ∈ pairs) (hi : i < acc.length) :
    (pairs.foldl (fun slots (p, i) => slots.set i (some p)) acc)[i]? = some (some p) := by
  induction pairs generalizing acc with
  | nil => simp at h
  | cons x xs ih =>
    rw [List.map_cons, List.nodup_cons] at hn
    rw [List.foldl_cons]
    rcases List.mem_cons.1 h with rfl | h
    · rw [foldl_set_of_not_mem hn.1, List.getElem?_set_self hi]
    · exact ih hn.2 h (by rwa [List.length_set])

theorem map_snd_zip_take {β : Type} (xs : List α) (ys : List β) :
    (xs.zip ys).map Prod.snd = ys.take xs.length := by
  induction xs generalizing ys with
  | nil => simp
  | cons x xs ih => cases ys <;> simp [ih]

end Seat

/-- A slot holds the player of its seed. -/
theorem seat_eq_map {players : List Player} {size : Nat} {order : List Nat}
    (h : order.Perm (List.range size)) :
    seat players size order = (List.range size).map fun i => players[order.idxOf i]? := by
  have hnd : order.Nodup := h.nodup_iff.2 List.nodup_range
  have hlen : order.length = size := by simpa using h.length_eq
  have hsnd : ((players.zip order).map Prod.snd).Nodup := by
    rw [map_snd_zip_take]
    exact hnd.sublist (List.take_sublist ..)
  refine List.ext_getElem? fun i => ?_
  unfold seat
  by_cases hi : i < size
  swap
  · rw [List.getElem?_eq_none (by rw [length_foldl_set]; simpa using hi),
      List.getElem?_eq_none (by simpa using hi)]
  have hj : order.idxOf i < order.length :=
    List.idxOf_lt_length_iff.2 (h.mem_iff.2 (List.mem_range.2 hi))
  have hji : order[order.idxOf i] = i := List.getElem_idxOf hj
  rw [List.getElem?_map, List.getElem?_range hi, Option.map_some]
  rcases hp : players[order.idxOf i]? with _ | p
  · rw [foldl_set_of_not_mem, List.getElem?_replicate_of_lt hi]
    intro hmem
    rw [map_snd_zip_take, List.mem_take_iff_getElem] at hmem
    obtain ⟨j, hj', hij⟩ := hmem
    have : j = order.idxOf i := by rw [← hij, hnd.idxOf_getElem]
    rw [List.getElem?_eq_none_iff] at hp
    omega
  · refine foldl_set_of_mem hsnd ?_ (by simpa using hi)
    obtain ⟨hlt, rfl⟩ := List.getElem?_eq_some_iff.1 hp
    rw [List.mem_iff_getElem]
    exact ⟨order.idxOf i, by rw [List.length_zip]; omega, by simp [hji]⟩

theorem seat_perm {players : List Player} {size : Nat} {order : List Nat}
    (h : order.Perm (List.range size)) (hn : players.length ≤ size) :
    (seat players size order).Perm
      (players.map some ++ List.replicate (size - players.length) none) := by
  have hnd : order.Nodup := h.nodup_iff.2 List.nodup_range
  have hlen : order.length = size := by simpa using h.length_eq
  rw [seat_eq_map h]
  refine (h.symm.map _).trans (.of_eq ?_)
  refine List.ext_getElem (by simp; omega) fun j hj hj' => ?_
  rw [List.getElem_map, hnd.idxOf_getElem, List.getElem_append]
  split_ifs with hc
  · rw [List.getElem_map, List.getElem?_eq_getElem]
  · rw [List.getElem_replicate, List.getElem?_eq_none]
    simpa using hc

end Tourney.Seeding

namespace Tourney.Elimination

open Seeding

theorem bracketSlots_perm (entrants : List Player) :
    (bracketSlots entrants).Perm (entrants.map some ++
      List.replicate (bracketSize entrants.length - entrants.length) none) :=
  seat_perm (slots_perm _) (le_bracketSize _)

theorem getElem?_bracketSlots {entrants : List Player} {i : Nat}
    (hi : i < 2 ^ rounds entrants.length) : (bracketSlots entrants)[i]? =
      some entrants[(slots (rounds entrants.length)).idxOf i]? := by
  rw [bracketSlots, seat_eq_map (slots_perm _), List.getElem?_map, List.getElem?_range hi,
    Option.map_some]

/-- The seeds of a match of the first round are those of a bracket of half the size, and the mirror
images of these. -/
theorem bracketSlots_pair {entrants : List Player} {k p : Nat}
    (hk : rounds entrants.length = k + 1) (hp : p < 2 ^ k) : (slots k).idxOf p < 2 ^ k ∧
      (bracketSlots entrants)[2 * p]? = some entrants[(slots k).idxOf p]? ∧
      (bracketSlots entrants)[2 * p + 1]? =
        some entrants[2 ^ (k + 1) - 1 - (slots k).idxOf p]? := by
  have hsize : 2 * p + 1 < 2 ^ rounds entrants.length := by
    rw [hk, Nat.pow_succ]
    omega
  obtain ⟨hj, heven, hodd⟩ := idxOf_slots hp
  refine ⟨hj, ?_, ?_⟩
  · rw [getElem?_bracketSlots (by omega), hk, heven]
  · rw [getElem?_bracketSlots hsize, hk, hodd]

/-- The two seeds of a match of the first round mirror one another. -/
theorem bracketSlots_mirror {entrants : List Player} {p : Nat}
    (hp : p < 2 ^ (rounds entrants.length - 1)) : ∃ j < 2 ^ (rounds entrants.length - 1),
      (bracketSlots entrants)[2 * p]? = some entrants[j]? ∧
      (bracketSlots entrants)[2 * p + 1]? =
        some entrants[2 ^ rounds entrants.length - 1 - j]? := by
  obtain ⟨k, hk⟩ : ∃ k, rounds entrants.length = k + 1 := ⟨_, rfl⟩
  rw [hk, Nat.add_sub_cancel] at hp ⊢
  exact ⟨_, bracketSlots_pair hk hp⟩

/-- Every match of the first round has a player in its first seat. -/
theorem bracketSlots_even {entrants : List Player} (hn : 2 ≤ entrants.length) :
    ∀ p < 2 ^ (rounds entrants.length - 1),
      ∃ x, (bracketSlots entrants)[2 * p]? = some (some x) := by
  intro p hp
  obtain ⟨j, hj, hslot, -⟩ := bracketSlots_mirror hp
  -- the field is more than half the bracket
  have hhalf := half_lt hn
  exact ⟨entrants[j], by rw [hslot, List.getElem?_eq_getElem (by omega)]⟩

end Tourney.Elimination
