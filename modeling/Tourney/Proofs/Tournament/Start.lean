import Tourney.Proofs.Tournament.Commute
import Tourney.Proofs.Tournament.Order

/-!
# How a tournament starts

The matches of the first stage wait to be played, so the advance at the start generates nothing
(`Blank.advance`). A configuration that passes therefore opens a tournament as soon as there are
ids for these matches, whatever comes after them (`create_opens`).
-/

namespace Tourney.Tournament

/-- A knockout has nothing to generate once its first stage is drawn. -/
theorem exists_advance_of_knockout {t : Tournament}
    (hf : t.format = .singleElimination ∨ t.format = .doubleElimination) (hs : t.swiss = none) :
    ∃ t' effects, t.advance = .done t' effects := by
  have hfinals : t.drawFinals = .ok (t, []) := by
    unfold drawFinals
    rcases hf with hf | hf <;> rw [hf]
  simp only [Tournament.advance, pairNextRound_league hs, hfinals]
  split_ifs
  · exact ⟨_, _, rfl⟩
  · exact ⟨_, _, rfl⟩

theorem Blank.advance {t t' : Tournament} (h : Blank t) {draw : Draw}
    (h' : t.firstStage draw = .ok t') :
    ∃ t'' effects, { t' with status := .inProgress }.advance = .done t'' effects := by
  have ho := (h.firstStage draw).of_ok h'
  have hformat := ho.grown.format
  cases hf : t.format with
  | roundRobin =>
    obtain ⟨hl, hw⟩ := h.league (.inl hf) h'
    exact ⟨_, _, hw.advance hl.swiss⟩
  | groups plan =>
    obtain ⟨hl, hw⟩ := h.league (.inr ⟨plan, hf⟩) h'
    exact ⟨_, _, hw.advance hl.swiss⟩
  | swiss =>
    obtain ⟨e, he, -, hopen⟩ := h.books hf h'
    have hbooks : Books { t' with status := .inProgress } e :=
      ⟨he.event, he.names, he.total, he.rounds, he.exact, he.fair⟩
    exact ⟨_, _, Steady.advance (.inr ⟨hformat.trans hf, e, hbooks⟩) hopen⟩
  | singleElimination =>
    exact exists_advance_of_knockout (.inl (hformat.trans hf))
      (ho.stages.swiss_eq_none (by rw [hformat, hf]; decide))
  | doubleElimination =>
    exact exists_advance_of_knockout (.inr (hformat.trans hf))
      (ho.stages.swiss_eq_none (by rw [hformat, hf]; decide))

/-- A configuration that passes opens a tournament, if there are ids for its first matches. -/
theorem create_opens {c : Config} (stamp : Stamp) (draw : Draw) (hc : c.check = .ok ()) :
    Yields (OpeningFits c.format c.players.length) (create c stamp draw) (Live c) := by
  rcases create_yields stamp draw hc with hok | ⟨-, herr⟩
  · exact .inl hok
  refine .inr ⟨fun hfits => ?_, herr⟩
  obtain ⟨t, hb, hst, hf, hp, hcreate⟩ := create_eq stamp draw hc
  obtain ⟨t', h', -⟩ := (hb.firstStage draw).exists_ok (by rwa [hf, hp])
  obtain ⟨t'', effects, hadv⟩ := hb.advance h'
  rw [hcreate, start, if_neg (by simp [hst]), h'] at herr
  simp only [hadv, Reply.toExcept, Reply.done, Except.map] at herr
  cases herr

end Tourney.Tournament
