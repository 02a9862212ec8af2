import Tourney.Proofs.Except
import Tourney.Swiss.Standing

/-!
# Results of different players commute

A result changes the standings of its two players, and then every Buchholz score is computed anew
from the rest. So it does not matter what the scores were before a result (`record_refresh`), and
results with no player in common can be folded in in either order (`record_comm`).
-/

namespace Tourney.Swiss

/-- The standing without its Buchholz score. -/
def Standing.bare (s : Standing) : Standing := { s with buchholz := .zero }

theorem halfPointsOf?_bare (ss : List Standing) (name : Player) :
    halfPointsOf? (ss.map Standing.bare) name = halfPointsOf? ss name := by
  rw [halfPointsOf?, ← List.map_reverse, List.find?_map, Option.map_map]
  rfl

theorem totalHalfPoints_bare (ss : List Standing) :
    totalHalfPoints (ss.map Standing.bare) = totalHalfPoints ss := by
  induction ss with
  | nil => rfl
  | cons s ss ih =>
    rw [List.map_cons, totalHalfPoints, totalHalfPoints, ih, List.any_map]
    rfl

/-- The scores do not depend on what they were before. -/
theorem refresh_bare (ss : List Standing) : refresh (ss.map Standing.bare) = refresh ss := by
  have hscore : ∀ average s,
      buchholzScore (ss.map Standing.bare) average (Standing.bare s) = buchholzScore ss average s :=
    fun average s => by
      rw [buchholzScore, funext (halfPointsOf?_bare ss)]
      rfl
  rw [refresh, refresh, averagePoints, averagePoints, totalHalfPoints_bare, List.length_map,
    List.map_map]
  exact List.map_congr_left fun s _ => by simp [Standing.bare, ← hscore]

theorem bare_refresh (ss : List Standing) :
    (refresh ss).map Standing.bare = ss.map Standing.bare := by
  rw [refresh, List.map_map]
  rfl

theorem afterMatch_bare (w l : Player) (s : Standing) :
    s.bare.afterMatch w l = (s.afterMatch w l).map Standing.bare := by
  unfold Standing.afterMatch
  change (if s.player = w then _ else if s.player = l then _ else _) = _
  split_ifs
  · change (Counter.increment s.wins >>= _) = Except.map _ (Counter.increment s.wins >>= _)
    cases Counter.increment s.wins <;> rfl
  · change (Counter.increment s.losses >>= _) = Except.map _ (Counter.increment s.losses >>= _)
    cases Counter.increment s.losses <;> rfl
  · rfl

theorem mapM_bare (w l : Player) (ss : List Standing) :
    (ss.map Standing.bare).mapM (Standing.afterMatch w l) =
      (ss.mapM (Standing.afterMatch w l)).map (List.map Standing.bare) := by
  induction ss with
  | nil => rfl
  | cons s ss ih =>
    rw [List.map_cons, List.mapM_cons, List.mapM_cons, afterMatch_bare, ih]
    cases s.afterMatch w l with
    | error f => rfl
    | ok s' => cases ss.mapM (Standing.afterMatch w l) <;> rfl

/-- A match that one player has won against another. -/
structure Beats (m : Match) (w l : Player) : Prop where
  complete : m.status = .complete
  winner : m.winner = some w
  loser : m.loser = some l

section Record

variable {m m' : Match} {w l w' l' : Player} {ss ss₁ ss₂ : List Standing}

theorem record_eq (h : Beats m w l) :
    record ss m = (ss.mapM (Standing.afterMatch w l)).map refresh := by
  unfold record
  rw [h.complete, h.winner, h.loser]

/-- The scores before a result do not matter. -/
theorem record_refresh (h : Beats m w l) : record (refresh ss) m = record ss m := by
  have hbare : ∀ x : Except Fault (List Standing),
      x.map refresh = (x.map (List.map Standing.bare)).map refresh := fun x => by
    cases x with
    | error f => rfl
    | ok ss => exact congrArg Except.ok (refresh_bare ss).symm
  rw [record_eq h, record_eq h, hbare, ← mapM_bare, bare_refresh, mapM_bare, ← hbare]

theorem player_afterMatch {s s' : Standing} (h : s.afterMatch w l = .ok s') :
    s'.player = s.player := by
  unfold Standing.afterMatch at h
  split_ifs at h
  · obtain ⟨_, -, h⟩ := bind_eq_ok.1 h
    cases h
    rfl
  · obtain ⟨_, -, h⟩ := bind_eq_ok.1 h
    cases h
    rfl
  · cases h
    rfl

theorem afterMatch_of_ne {s : Standing} (h : s.player ≠ w ∧ s.player ≠ l) :
    s.afterMatch w l = .ok s := by
  rw [Standing.afterMatch, if_neg h.1, if_neg h.2]

section Apart

variable (hdis : ∀ p, p = w ∨ p = l → p ≠ w' ∧ p ≠ l')

include hdis

theorem afterMatch_comm {s x y : Standing} (hx : s.afterMatch w l = .ok x)
    (hy : x.afterMatch w' l' = .ok y) :
    ∃ x', s.afterMatch w' l' = .ok x' ∧ x'.afterMatch w l = .ok y := by
  by_cases hs : s.player = w ∨ s.player = l
  · have hother := hdis s.player hs
    rw [afterMatch_of_ne (by rwa [player_afterMatch hx])] at hy
    cases hy
    exact ⟨s, afterMatch_of_ne hother, hx⟩
  · rw [not_or] at hs
    rw [afterMatch_of_ne hs] at hx
    cases hx
    exact ⟨y, hy, afterMatch_of_ne (by rwa [player_afterMatch hy])⟩

/-- Results with no player in common can be folded in in either order. -/
theorem record_comm (h : Beats m w l) (h' : Beats m' w' l') (h₁ : record ss m = .ok ss₁)
    (h₂ : record ss₁ m' = .ok ss₂) :
    ∃ ss₁', record ss m' = .ok ss₁' ∧ record ss₁' m = .ok ss₂ := by
  rw [record_eq h] at h₁
  obtain ⟨xs, hxs, rfl⟩ := map_eq_ok.1 h₁
  rw [record_refresh h', record_eq h'] at h₂
  obtain ⟨ys, hys, rfl⟩ := map_eq_ok.1 h₂
  have hswap : ∃ xs', List.Forall₂ (fun s x => s.afterMatch w' l' = .ok x) ss xs' ∧
      List.Forall₂ (fun x y => x.afterMatch w l = .ok y) xs' ys := by
    rw [mapM_eq_ok] at hxs hys
    clear h₁ h₂
    induction hxs generalizing ys with
    | nil =>
      cases hys
      exact ⟨[], .nil, .nil⟩
    | cons hx _ ih =>
      cases hys with
      | cons hy hys =>
        obtain ⟨x', hx', hy'⟩ := afterMatch_comm hdis hx hy
        obtain ⟨xs', hxs', hys'⟩ := ih _ hys
        exact ⟨x' :: xs', .cons hx' hxs', .cons hy' hys'⟩
  obtain ⟨xs', hxs', hys'⟩ := hswap
  refine ⟨refresh xs', ?_, ?_⟩
  · rw [record_eq h', mapM_eq_ok.2 hxs']
    rfl
  · rw [record_refresh h, record_eq h, mapM_eq_ok.2 hys']
    rfl

end Apart

end Record

end Tourney.Swiss
