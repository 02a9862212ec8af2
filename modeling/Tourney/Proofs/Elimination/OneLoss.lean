import Tourney.Proofs.Elimination.Opening

/-!
# One loss and out

Where a player of a single elimination is, in any state of its matches: still in one of them, or
beaten in one, or the winner of the final (`tree_balance`).
-/

namespace Tourney.Elimination

open Arena Finset Seeding

section Tree

variable {slots : List (Option Player)} {k : Nat} {first : MatchId} {stage : Stage}
  {now : Nat × Nat → Match}
  (h : Played (treePlaces k) (fun x => treeMatch slots k first stage x.1 x.2) now) (hk : 1 ≤ k)

include h hk

/-- An entry of the draw has stayed in a match, has lost one, or has won the final. -/
theorem tree_balance (hlen : slots.length = 2 ^ k) (x : Player) :
    (((treePlaces k).map now).map (·.stays x)).sum + lossesOf ((treePlaces k).map now) x +
      (now (k, 0)).wins x = slots.count (some x) := by
  obtain ⟨j, rfl⟩ := Nat.exists_eq_add_of_le' hk
  have hflow := (treeLadder h hk).flow (x := x) hlen (le_refl (j + 1))
  have hreach : Ladder.reach slots (j + 1) (fun r p => now (r, p)) x (j + 1) =
      (now (j + 1, 0)).wins x := by
    simp [Ladder.reach]
  rw [lossesOf_eq_sum, List.map_map, List.map_map, sum_treePlaces, sum_treePlaces, ← hflow, hreach]
  rfl

/-- In the end the final has been won by one of its players. -/
theorem final_won (hroot : ∀ p < 2 ^ (k - 1), ∃ x, slots[2 * p]? = some (some x))
    (hres : ∀ m ∈ (treePlaces k).map now, m.status.isResolved) :
    (now (k, 0)).status = .complete ∧ ∃ w, (now (k, 0)).winner = some w := by
  have hmem : (k, 0) ∈ treePlaces k := mem_treePlaces.2 ⟨hk, le_refl k, Nat.two_pow_pos _⟩
  obtain ⟨hc, w, hw, -⟩ := (treeLadder h hk).won hroot hk (le_refl k) (Nat.two_pow_pos _)
    (hres _ (List.mem_map_of_mem hmem))
  exact ⟨hc, w, hw⟩

end Tree

end Tourney.Elimination
