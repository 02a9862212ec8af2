import Mathlib.Algebra.GroupWithZero.Nat
import Mathlib.Algebra.Order.Group.Int
import Mathlib.Algebra.Order.Monoid.Prod
import Mathlib.Algebra.Ring.Int.Defs
import Mathlib.Data.List.Nodup
import Mathlib.Data.Prod.Lex
import Tourney.RoundRobin.Table

/-!
# Ranking a table

Rows are compared by what their counters are worth (`compare_isLE_iff`). Rows that tie keep the
order they had (`filter_rank`), so a ranked table in which only blank rows tie is determined by its
rows and the order of the blank ones (`eq_of_decided`).
-/

namespace Tourney.RoundRobin

/-- Wins, losses, points scored and points conceded. -/
abbrev Counts := ℕ × ℕ × ℕ × ℕ

def Row.counts (r : Row) : Counts :=
  (r.wins.toNat, r.losses.toNat, r.pointsFor.toNat, r.pointsAgainst.toNat)

theorem Row.ext_counts {r r' : Row} (hp : r.player = r'.player) (hc : r.counts = r'.counts) :
    r = r' := by
  obtain ⟨p, w, l, f, a⟩ := r
  obtain ⟨p', w', l', f', a'⟩ := r'
  simp only [Row.counts, Prod.mk.injEq, UInt32.toNat_inj] at hc
  simp_all

/-- What rows are ranked by: wins, then the difference of points, then points scored. -/
def worth : Counts →+ ℤ ×ₗ ℤ ×ₗ ℤ where
  toFun c := toLex ((c.1 : ℤ), toLex ((c.2.2.1 : ℤ) - c.2.2.2, (c.2.2.1 : ℤ)))
  map_zero' := rfl
  map_add' a b := by
    simp only [← toLex_add, Prod.fst_add, Prod.snd_add, Prod.mk_add_mk]
    rw [Int.natCast_add, Int.natCast_add, Int.natCast_add, add_sub_add_comm]

/-- A row that has counted nothing in its favour, and no point against it. -/
def Row.Blank (r : Row) : Prop := r.wins = 0 ∧ r.pointsFor = 0 ∧ r.pointsAgainst = 0

instance : DecidablePred Row.Blank := fun _ => inferInstanceAs (Decidable (_ ∧ _ ∧ _))

/-- No two rows tie, unless both are blank. -/
def Decided (table : List Row) : Prop := table.Pairwise fun a b => a.compare b = .eq → a.Blank

section Compare

variable {a b : Row}

theorem compare_isLE_iff : (a.compare b).isLE ↔ worth b.counts ≤ worth a.counts := by
  unfold Row.compare
  rw [Ordering.isLE_then_iff_or, Ordering.isLE_then_iff_or, Std.compare_eq_lt,
    Std.compare_eq_lt, Std.compare_eq_eq_iff_eq, Std.compare_eq_eq_iff_eq, Std.isLE_compare]
  change _ ↔ toLex _ ≤ toLex _
  simp only [Prod.Lex.toLex_le_toLex, Row.counts, Row.differential, Int.ofNat_lt, Int.ofNat_inj,
    UInt32.lt_iff_toNat_lt, UInt32.le_iff_toNat_le, UInt32.toNat_inj, Int.ofNat_le]

theorem compare_eq_iff : a.compare b = .eq ↔ worth a.counts = worth b.counts := by
  unfold Row.compare
  rw [Ordering.then_eq_eq, Ordering.then_eq_eq, Std.compare_eq_eq_iff_eq,
    Std.compare_eq_eq_iff_eq, Std.compare_eq_eq_iff_eq, eq_comm (a := worth a.counts)]
  change _ ↔ toLex _ = toLex _
  simp only [toLex_inj, Prod.mk.injEq, Row.counts, Row.differential, Int.ofNat_inj,
    UInt32.toNat_inj]

theorem blank_iff : a.Blank ↔ worth a.counts = 0 := by
  rw [Row.Blank, ← UInt32.toNat_inj, ← UInt32.toNat_inj, ← UInt32.toNat_inj]
  change _ ↔ toLex _ = toLex _
  simp only [toLex_inj, Row.counts]
  change _ ↔ (_, toLex _) = (0, toLex (0, 0))
  simp only [Prod.mk.injEq, toLex_inj, UInt32.toNat_zero]
  omega

theorem isLE_trans (a b c : Row) (hab : (a.compare b).isLE) (hbc : (b.compare c).isLE) :
    (a.compare c).isLE := by
  rw [compare_isLE_iff] at hab hbc ⊢
  exact hbc.trans hab

theorem isLE_total (a b : Row) : (a.compare b).isLE || (b.compare a).isLE := by
  rw [Bool.or_eq_true, compare_isLE_iff, compare_isLE_iff]
  exact le_total _ _

end Compare

section Rank

variable {table table' : List Row}

theorem rank_perm (table : List Row) : (rank table).Perm table := List.mergeSort_perm ..

theorem pairwise_rank (table : List Row) : (rank table).Pairwise fun a b => (a.compare b).isLE :=
  List.pairwise_mergeSort isLE_trans isLE_total table

/-- Rows of which none is worse than a later one keep their order. -/
theorem filter_rank {p : Row → Bool} (h : (table.filter p).Pairwise fun a b => (a.compare b).isLE) :
    (rank table).filter p = table.filter p := by
  have hsub : (table.filter p).Sublist (rank table) :=
    List.sublist_mergeSort isLE_trans isLE_total h List.filter_sublist
  have hsub := hsub.filter p
  rw [List.filter_filter, show (fun r => p r && p r) = p by simp] at hsub
  exact (hsub.eq_of_length ((rank_perm table).filter p).length_eq.symm).symm

theorem filter_blank_rank (table : List Row) :
    (rank table).filter (·.Blank) = table.filter (·.Blank) := by
  refine filter_rank (List.pairwise_of_forall_mem_list fun a ha b hb => ?_)
  simp only [List.mem_filter, decide_eq_true_eq] at ha hb
  rw [compare_isLE_iff, blank_iff.1 ha.2, blank_iff.1 hb.2]

/-- A ranked table is determined by its rows, and by the order of the blank ones if no others
tie. -/
theorem eq_of_decided (hnd : (table.map Row.player).Nodup) (hperm : table.Perm table')
    (hs : table.Pairwise fun a b => (a.compare b).isLE)
    (hs' : table'.Pairwise fun a b => (a.compare b).isLE) (hd : Decided table)
    (hblank : (table.filter (·.Blank)).map Row.player =
      (table'.filter (·.Blank)).map Row.player) : table = table' := by
  induction table generalizing table' with
  | nil => rw [List.nil_perm.1 hperm]
  | cons a table ih =>
    cases table' with
    | nil => exact absurd hperm.length_eq (by simp)
    | cons b table' =>
      have hab : a = b := by
        by_contra hne
        -- each of them stands above the other, so they tie, and both are blank
        have hb : b ∈ table :=
          (List.mem_cons.1 (hperm.mem_iff.2 List.mem_cons_self)).resolve_left (Ne.symm hne)
        have ha : a ∈ table' :=
          (List.mem_cons.1 (hperm.mem_iff.1 List.mem_cons_self)).resolve_left hne
        have htie : worth a.counts = worth b.counts := le_antisymm
          (compare_isLE_iff.1 ((List.pairwise_cons.1 hs').1 a ha))
          (compare_isLE_iff.1 ((List.pairwise_cons.1 hs).1 b hb))
        have hA : a.Blank := (List.pairwise_cons.1 hd).1 b hb (compare_eq_iff.2 htie)
        have hB : b.Blank := blank_iff.2 (htie ▸ blank_iff.1 hA)
        rw [List.filter_cons_of_pos (by simpa), List.filter_cons_of_pos (by simpa)] at hblank
        exact hne (List.inj_on_of_nodup_map hnd (by simp) (List.mem_cons_of_mem _ hb)
          (List.cons.inj hblank).1)
      subst hab
      rw [ih hnd.of_cons ((List.perm_cons a).1 hperm) hs.of_cons hs'.of_cons hd.of_cons]
      by_cases hA : a.Blank
      · rw [List.filter_cons_of_pos (by simpa), List.filter_cons_of_pos (by simpa)] at hblank
        exact (List.cons.inj hblank).2
      · rwa [List.filter_cons_of_neg (by simpa), List.filter_cons_of_neg (by simpa)] at hblank

end Rank

end Tourney.RoundRobin
