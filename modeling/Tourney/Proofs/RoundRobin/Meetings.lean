import Mathlib.Data.Nat.Prime.Basic
import Mathlib.Data.Sym.Card
import Tourney.Proofs.RoundRobin.Schedule

/-!
# Who meets whom

Seen from the chair of the one who stays, the two who face each other sit as far from it on either
side (`weight_sitter`). So two players can face each other in one round only, and since the rounds
have as many pairs as there are pairs of players, every two meet once (`countP_meet`).
-/

namespace Tourney.RoundRobin

open Finset

variable {n t : Nat}

/-- Whoever moves is on a chair that advances with the rounds. -/
theorem sitter_modEq {i : Nat} (hi : i ≠ 0) (ht : t < chairs n - 1) :
    sitter n t i + t ≡ i [MOD chairs n - 1] := by
  have hmod : (i - 1 + (chairs n - 1 - t)) % (chairs n - 1) + (t + 1) ≡
      i - 1 + (chairs n - 1 - t) + (t + 1) [MOD chairs n - 1] :=
    (Nat.mod_modEq _ _).add_right _
  rw [show i - 1 + (chairs n - 1 - t) + (t + 1) = i + (chairs n - 1) by omega] at hmod
  rw [sitter, if_neg hi, Nat.add_assoc, Nat.add_comm 1 t]
  exact hmod.trans (Nat.add_modEq_right ..)

/-- What two players who face each other add up to, the one who stays counting as the other. -/
def weight (a b : Nat) : Nat := (if a = 0 then b else a) + if b = 0 then a else b

theorem weight_comm (a b : Nat) : weight a b = weight b a := Nat.add_comm ..

theorem weight_sitter {i : Nat} (hi : i < chairs n / 2) (ht : t < chairs n - 1) :
    weight (sitter n t i) (sitter n t (chairs n - 1 - i)) + 2 * t ≡ 0 [MOD chairs n - 1] := by
  have hacross := sitter_modEq (n := n) (i := chairs n - 1 - i) (by omega) ht
  have hb : sitter n t (chairs n - 1 - i) ≠ 0 := by
    rw [sitter, if_neg (by omega)]
    omega
  rcases Nat.eq_zero_or_pos i with rfl | hpos
  · -- the first player stays, and the one across counts twice
    have hsum := hacross.add hacross
    rw [weight, if_neg hb, show sitter n t 0 = 0 from rfl, if_pos rfl]
    rw [show ∀ b, b + t + (b + t) = b + b + 2 * t by omega] at hsum
    exact hsum.trans (Nat.modEq_zero_iff_dvd.2 ((Nat.dvd_add_self_left).2 dvd_rfl))
  · have ha : sitter n t i ≠ 0 := by
      rw [sitter, if_neg (by omega)]
      omega
    have hsum := (sitter_modEq (n := n) (i := i) (by omega) ht).add hacross
    rw [weight, if_neg hb, if_neg ha]
    rw [show ∀ a b, a + t + (b + t) = a + b + 2 * t by omega,
      show i + (chairs n - 1 - i) = chairs n - 1 by omega] at hsum
    exact hsum.trans (Nat.modEq_zero_iff_dvd.2 dvd_rfl)

/-- Two players who face each other do so in one round only. -/
theorem round_inj {i j t' : Nat} (hi : i < chairs n / 2) (hj : j < chairs n / 2)
    (ht : t < chairs n - 1) (ht' : t' < chairs n - 1)
    (h : s(sitter n t i, sitter n t (chairs n - 1 - i)) =
      s(sitter n t' j, sitter n t' (chairs n - 1 - j))) : t = t' := by
  have hweight : weight (sitter n t i) (sitter n t (chairs n - 1 - i)) =
      weight (sitter n t' j) (sitter n t' (chairs n - 1 - j)) := by
    rcases Sym2.eq_iff.1 h with ⟨h1, h2⟩ | ⟨h1, h2⟩
    · rw [h1, h2]
    · rw [h1, h2, weight_comm]
  have hmod := (weight_sitter hi ht).trans (weight_sitter hj ht').symm
  rw [hweight] at hmod
  have htwice : 2 * t ≡ 2 * t' [MOD chairs n - 1] := Nat.ModEq.add_left_cancel' _ hmod
  -- an odd number of players moves
  have hcoprime : Nat.gcd (chairs n - 1) 2 = 1 := by
    have hodd : (chairs n - 1) % 2 = 1 := by
      have := chairs_even n
      omega
    exact Nat.coprime_two_right.2 (Nat.odd_iff.2 hodd)
  exact (Nat.ModEq.cancel_left_of_coprime hcoprime htwice).eq_of_lt_of_lt ht ht'

/-- The pairs of all rounds, whoever of the two is named first. -/
def meetings (n : Nat) : List (Sym2 Nat) := (fixtures n).map fun x => s(x.1.1, x.1.2)

theorem meetings_eq (n : Nat) :
    meetings n = (pairings n).flatten.map fun x => s(x.1, x.2) := by
  have hround : ∀ x : List (Nat × Nat) × Nat, (x.1.zipIdx.map fun y => (y.1, x.2 + 1, y.2)).map
      (fun x => s(x.1.1, x.1.2)) = x.1.map fun x => s(x.1, x.2) := fun x => by
    rw [List.map_map]
    conv_rhs => rw [← List.zipIdx_map_fst 0 x.1, List.map_map]
    rfl
  rw [meetings, fixtures, List.map_flatMap, List.flatMap_congr fun x _ => hround x,
    ← List.flatMap_map Prod.fst (fun l : List (Nat × Nat) => l.map fun x => s(x.1, x.2)),
    List.zipIdx_map_fst, List.map_flatten, List.flatMap_def]

theorem nodup_meetings (hn : 2 ≤ n) : (meetings n).Nodup := by
  rw [meetings_eq, pairings_eq hn, List.map_flatten, List.map_map, ← List.flatMap_def,
    List.nodup_flatMap]
  refine ⟨fun t _ => ?_, List.nodup_range.imp_of_mem fun {t t'} ht ht' hne x hx hx' => hne ?_⟩
  · -- in one round nobody sits on two chairs
    refine List.Nodup.sublist (List.filter_sublist.map _) ?_
    rw [List.map_map]
    refine List.Nodup.map_on (fun i hi j hj hij => ?_) List.nodup_range
    rw [List.mem_range] at hi hj
    rcases Sym2.eq_iff.1 hij with ⟨h1, -⟩ | ⟨h1, -⟩
    · exact sitter_inj hn (by omega) (by omega) h1
    · have := sitter_inj hn (by omega) (by omega) h1
      omega
  · obtain ⟨y, hy, rfl⟩ := List.mem_map.1 hx
    obtain ⟨z, hz, hzy⟩ := List.mem_map.1 hx'
    obtain ⟨-, -, i, hi, rfl⟩ := mem_roundPairs hy
    obtain ⟨-, -, j, hj, rfl⟩ := mem_roundPairs hz
    exact round_inj hi hj (List.mem_range.1 ht) (List.mem_range.1 ht') hzy.symm

theorem mem_meetings {a b : Nat} (ha : a < n) (hb : b < n) (hne : a ≠ b) :
    s(a, b) ∈ meetings n := by
  have hn : 2 ≤ n := by omega
  have hsub : (meetings n).toFinset ⊆ (range n).offDiag.image Sym2.mk.uncurry := fun x hx => by
    obtain ⟨⟨⟨a, b⟩, r, p⟩, hy, rfl⟩ := List.mem_map.1 (List.mem_toFinset.1 hx)
    obtain ⟨ha, hb, hne⟩ := mem_fixtures hy
    exact mem_image.2 ⟨(a, b), by simp [ha, hb, hne], rfl⟩
  have hcard : ((range n).offDiag.image Sym2.mk.uncurry).card ≤ (meetings n).toFinset.card := by
    rw [Sym2.card_image_offDiag, card_range, Nat.choose_two_right,
      List.toFinset_card_of_nodup (nodup_meetings hn), meetings, List.length_map,
      length_fixtures hn]
  rw [← List.mem_toFinset, eq_of_subset_of_card_le hsub hcard]
  exact mem_image.2 ⟨(a, b), by simp [ha, hb, hne], rfl⟩

/-- Every two players of a field meet in one match. -/
theorem countP_meet {entrants : List Player} {first : MatchId} {stage : Stage}
    (hnd : entrants.Nodup) {p q : Player} (hp : p ∈ entrants) (hq : q ∈ entrants) (hne : p ≠ q) :
    (fieldMatches entrants first stage).countP (fun m => m.hasPlayer p && m.hasPlayer q) = 1 := by
  obtain ⟨a, ha, rfl⟩ := List.getElem_of_mem hp
  obtain ⟨b, hb, rfl⟩ := List.getElem_of_mem hq
  have hab : a ≠ b := fun hab => hne (by subst hab; rfl)
  have hcount := List.count_eq_one_of_mem (nodup_meetings (n := entrants.length) (by omega))
    (mem_meetings ha hb hab)
  have hseat : ∀ c d, ∀ hc : c < entrants.length, d < entrants.length →
      (entrants[d]? = some entrants[c] ↔ d = c) := fun c d hc hd => by
    rw [List.getElem?_eq_getElem hd, Option.some.injEq, hnd.getElem_inj_iff]
  rw [← hcount, meetings, List.count, List.countP_map, ← List.zipIdx_map_fst 0 (fixtures _),
    List.countP_map, fieldMatches, List.countP_map]
  refine List.countP_congr fun x hx => ?_
  obtain ⟨⟨⟨c, d⟩, r, q⟩, k⟩ := x
  obtain ⟨hc, hd, hcd⟩ := mem_fixtures (List.fst_mem_of_mem_zipIdx hx)
  simp only [Function.comp, Bool.and_eq_true, Match.hasPlayer_seated, beq_iff_eq, hseat a _ ha hc,
    hseat a _ ha hd, hseat b _ hb hc, hseat b _ hb hd, Sym2.eq_iff]
  omega

end Tourney.RoundRobin
