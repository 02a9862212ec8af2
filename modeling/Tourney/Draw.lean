import Tourney.Match.Basic

/-!
# Draws

The order in which a roster enters the bracket. A draw is any rule that permutes rosters: the
seeded draw leaves them as they are, and `Draw.shuffle` follows a list of random numbers.
-/

namespace Tourney

structure Draw where
  order : List Player → List Player
  perm : ∀ players, (order players).Perm players

namespace Draw

/-- Players enter in seed order. -/
def seeded : Draw := ⟨fun players => players, fun _ => .refl _⟩

/-- Puts each entry among the shuffled rest, at a place picked by a number. -/
def shuffle : List Nat → List α → List α
  | n :: ns, x :: xs => (shuffle ns xs).insertIdx (n % (xs.length + 1)) x
  | _, xs => xs

theorem shuffle_perm (ns : List Nat) (xs : List α) : (shuffle ns xs).Perm xs := by
  induction ns generalizing xs with
  | nil => simp [shuffle]
  | cons n ns ih =>
    cases xs with
    | nil => simp [shuffle]
    | cons x xs =>
      have hn : n % (xs.length + 1) ≤ (shuffle ns xs).length := by
        rw [(ih xs).length_eq]
        exact Nat.le_of_lt_succ (Nat.mod_lt n (Nat.succ_pos _))
      exact (List.perm_insertIdx x _ hn).trans ((ih xs).cons x)

end Draw

end Tourney
