import Mathlib.Data.List.Nodup
import Tourney.Roster

/-!
# Rosters that pass

A roster passes when it is long enough, no name is blank, and no name stands twice
(`check_eq_ok_iff`). Any selection from it that is long enough passes too. So a generator of matches
refuses enough distinct players only for a blank name (`Generates.of_check`).
-/

namespace Tourney.Roster

theorem checkNames_eq_ok_iff {seen ps : List Player} : checkNames seen ps = .ok () ↔
    (∀ p ∈ ps, isBlank p = false) ∧ ps.Nodup ∧ ∀ p ∈ ps, p ∉ seen := by
  induction ps generalizing seen with
  | nil => simp [checkNames]
  | cons p ps ih =>
    unfold checkNames
    split_ifs with hb hs
    · simp [hb]
    · simp [hs]
    · rw [ih, List.forall_mem_cons, List.forall_mem_cons, List.nodup_cons]
      simp only [List.mem_cons, not_or]
      constructor
      · rintro ⟨h1, h2, h3⟩
        exact ⟨⟨by simpa using hb, h1⟩, ⟨fun hp => (h3 p hp).1 rfl, h2⟩, hs,
          fun q hq => (h3 q hq).2⟩
      · rintro ⟨⟨-, h1⟩, ⟨hp, h2⟩, -, h3⟩
        exact ⟨h1, h2, fun q hq => ⟨fun heq => hp (heq ▸ hq), h3 q hq⟩⟩

theorem check_eq_ok_iff {players : List Player} {least : Nat} : check players least = .ok () ↔
    least ≤ players.length ∧ (∀ p ∈ players, isBlank p = false) ∧ players.Nodup := by
  unfold check
  split_ifs with h
  · simp
    omega
  · simp [checkNames_eq_ok_iff, Nat.le_of_not_lt h]

theorem check_mono {players sub : List Player} {least n : Nat} (h : check players least = .ok ())
    (hsub : ∀ p ∈ sub, p ∈ players) (hn : sub.Nodup) (hlen : n ≤ sub.length) :
    check sub n = .ok () :=
  check_eq_ok_iff.2 ⟨hlen, fun p hp => (check_eq_ok_iff.1 h).2.1 p (hsub p hp), hn⟩

/-- Among distinct names only a blank one is refused. -/
theorem checkNames_of_nodup {seen ps : List Player} (h : ps.Nodup) (hseen : ∀ p ∈ ps, p ∉ seen) :
    checkNames seen ps = if ∃ p ∈ ps, isBlank p then .error .emptyPlayerName else .ok () := by
  induction ps generalizing seen with
  | nil => simp [checkNames]
  | cons p ps ih =>
    rw [List.forall_mem_cons] at hseen
    rw [List.nodup_cons] at h
    rw [checkNames, if_neg hseen.1]
    by_cases hb : isBlank p
    · rw [if_pos hb, if_pos ⟨p, List.mem_cons_self, hb⟩]
    · rw [if_neg hb, ih h.2]
      · simp [hb]
      · rintro q hq (_ | ⟨_, hs⟩)
        · exact h.1 hq
        · exact hseen.2 q hq hs

/-- A blank name is refused, and other players get what is specified. -/
structure Generates (players : List Player) (x : Except Fault (List Match))
    (P : List Match → Prop) : Prop where
  blank : (∃ p ∈ players, isBlank p) → x = .error .emptyPlayerName
  ok : (∀ p ∈ players, isBlank p = false) → ∃ ms, x = .ok ms ∧ P ms

theorem Generates.of_check {players : List Player} {least : Nat} {x : Except Fault (List Match)}
    {P : List Match → Prop} (hlen : least ≤ players.length) (hnd : players.Nodup)
    (herr : ∀ f, check players least = .error f → x = .error f)
    (hok : check players least = .ok () → ∃ ms, x = .ok ms ∧ P ms) : Generates players x P := by
  refine ⟨fun hb => herr _ ?_, fun hb => hok (check_eq_ok_iff.2 ⟨hlen, hb, hnd⟩)⟩
  rw [check, if_neg (Nat.not_lt.2 hlen), checkNames_of_nodup hnd (by simp), if_pos hb]

end Tourney.Roster
