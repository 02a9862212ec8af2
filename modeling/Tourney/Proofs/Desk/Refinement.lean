import Tourney.Proofs.Desk.Refusals
import Tourney.Proofs.Tournament.Unheld

/-!
# The desk as a tournament

Without its devices a desk is its tournament (`Tournament.unheld`). A call that records no result
does not show there (`Balanced.unheld_of_none`); one that does is that result recorded in the
tournament (`Balanced.unheld_of_some`). So a run at the desk is the run of its results, and the desk
has answered what the tournament answers (`refines_recordAll`).
-/

namespace Tourney

open Arena

theorem Match.unheld_move {m : Match} (hm : m.status.isResolved = false) {s : MatchStatus}
    (hs : s.isResolved = false) (d : Option DeviceId) : (m.move s d).unheld = m.unheld := by
  have hpending : ∀ {s : MatchStatus}, s.isResolved = false →
      (if s.isHeld then MatchStatus.pending else s) = .pending := fun {s} hs => by
    cases s <;> first | rfl | cases hs
  have hleft : (m.move s d).unheld =
    { m with status := if s.isHeld then .pending else s, device := none } := rfl
  rw [hleft, hpending hs, Match.unheld, hpending hm]

theorem Arena.map_unheld_modify {ms : List Match} {id : MatchId} {m : Match} {f : Match → Match}
    (hm : find? ms id = some m) (hf : (f m).unheld = m.unheld) :
    (modify id f ms).map Match.unheld = ms.map Match.unheld := by
  obtain ⟨pre, post, rfl, hmod⟩ := exists_split hm
  simp [hmod, hf]

/-- What a tournament answers to one call after another. -/
def Tournament.answers (t : Tournament) : List (MatchId × Outcome) → List (Except Fault Effects)
  | [] => []
  | (id, o) :: calls => (t.record id o).answer :: (t.record id o).state.answers calls

namespace Desk

/-- The result that a call records for good, and what it sets in motion. -/
def result? (desk : Desk) : Call → Option ((MatchId × Outcome) × Effects)
  | .approve id =>
    match desk.queue[id]?, (desk.approve id).answer with
    | some s, .ok effects => some ((id, s.outcome), effects)
    | _, _ => none
  | .record id o => (desk.record id o).answer.toOption.map fun effects => ((id, o), effects)
  | _ => none

/-- The results of a run, in order. -/
def results (desk : Desk) : List Call → List ((MatchId × Outcome) × Effects)
  | [] => []
  | c :: calls => (desk.result? c).toList ++ (desk.call c).state.results calls

section Unheld

variable {desk desk' : Desk} {id : MatchId} {m : Match}

/-- Who holds a match that is still to be played does not show in the tournament. -/
theorem unheld_setMatch {f : Match → Match} (hm : desk.match? id = some m)
    (ho : m.status.isResolved = false) {s : MatchStatus} {d : Option DeviceId}
    (hf : f m = m.move s d) (hs : s.isResolved = false) :
    (desk.setMatch id f).tournament.unheld = desk.tournament.unheld := by
  have hmap := map_unheld_modify hm (f := f) (by rw [hf, Match.unheld_move ho hs])
  exact congrArg desk.tournament.withArena hmap

/-- A call that records no result does not show in the tournament. -/
theorem Accepts.unheld {c : Call} (ha : Accepts desk c desk') (hc : c.settles? = none) :
    desk'.tournament.unheld = desk.tournament.unheld := by
  have hopen : ∀ {s s' : MatchStatus}, s.canBecome s' → s.isResolved = false := fun {s s'} hs => by
    cases s <;> first | rfl | cases hs
  cases ha with
  | reconnect | register | remove | drain => rfl
  | abandon d device id m hd hh hm hs =>
    rw [released_tournament]
    exact unheld_setMatch hm (by rcases hs with hs | hs <;> rw [hs] <;> rfl) rfl rfl
  | assign id d device m p1 p2 hd hh hm hs => exact unheld_setMatch hm (by rw [hs]; rfl) rfl rfl
  | unassign id m hm hs =>
    rw [released_tournament]
    exact unheld_setMatch hm (by rcases hs with hs | hs <;> rw [hs] <;> rfl) rfl rfl
  | startMatch id m hm hs => exact unheld_setMatch hm (hopen hs) rfl rfl
  | submit s m hm hs => exact unheld_setMatch hm (hopen hs) rfl rfl
  | reject id reason s m hq hm hs => exact unheld_setMatch hm (hopen hs) rfl rfl
  | approve | record => cases hc

/-- An accepted call that is for no result gives none. -/
theorem settles?_eq_none {c : Call} (hok : (desk.call c).answer = .ok ())
    (hc : desk.result? c = none) : c.settles? = none := by
  cases c with
  | approve id =>
    obtain ⟨effects, ha, -⟩ := map_eq_ok.1 hok
    rcases hs : desk.queue[id]? with _ | s
    · simp only [Desk.approve, hs] at ha
      cases ha
    · simp only [Desk.result?, hs, ha] at hc
      cases hc
  | record id o =>
    obtain ⟨effects, ha, -⟩ := map_eq_ok.1 hok
    simp only [Desk.result?, ha] at hc
    cases hc
  | _ => rfl

end Unheld

section Balance

variable {format : Format} {desk : Desk} (h : Balanced format desk) {c : Call}

include h

theorem Balanced.unheld_of_none (hne : (desk.call c).answer ≠ .error .outOfRange)
    (hc : desk.result? c = none) :
    (desk.call c).state.tournament.unheld = desk.tournament.unheld := by
  rcases h.call_cases hne with ⟨hok, hacc⟩ | ⟨f, -, hstate⟩
  · exact hacc.unheld (settles?_eq_none hok hc)
  · rw [hstate]

theorem Balanced.unheld_of_some {id : MatchId} {o : Outcome} {effects : Effects}
    (hc : desk.result? c = some ((id, o), effects)) :
    desk.tournament.unheld.record id o =
      .done (desk.call c).state.tournament.unheld effects := by
  have hsettle : ∀ {holder : Option DeviceId} {queue : Queue},
      (desk.settle id o holder queue).answer = .ok effects →
      desk.tournament.unheld.record id o =
        .done (desk.settle id o holder queue).state.tournament.unheld effects := fun ha =>
    h.running.record_unheld (record_of_settle ha)
  cases c with
  | approve id' =>
    simp only [Desk.result?] at hc
    split at hc
    · rename_i s effects' hs ha
      cases hc
      simp only [Desk.call, Desk.approve, hs] at ha ⊢
      exact hsettle ha
    · cases hc
  | record id' o' =>
    simp only [Desk.result?] at hc
    rcases ha : (desk.record id' o').answer with f | effects'
    · rw [ha] at hc
      cases hc
    · rw [ha] at hc
      cases hc
      change _ = Reply.done (desk.record id o).state.tournament.unheld effects
      unfold Desk.record at ha ⊢
      split at ha
      · cases ha
      split_ifs at ha ⊢
      · cases ha
      · exact hsettle ha
  | _ => cases hc

theorem Balanced.refines {calls : List Call} (hr : Returns desk calls) :
    (desk.after calls).tournament.unheld =
        desk.tournament.unheld.recordAll ((desk.results calls).map Prod.fst) ∧
      desk.tournament.unheld.answers ((desk.results calls).map Prod.fst) =
        (desk.results calls).map fun r => .ok r.2 := by
  induction calls generalizing desk with
  | nil => exact ⟨rfl, rfl⟩
  | cons c calls ih =>
    obtain ⟨hafter, hanswers⟩ := ih (h.call hr.1) hr.2
    change ((desk.call c).state.after calls).tournament.unheld = _ ∧ _
    rcases hc : desk.result? c with _ | ⟨⟨id, o⟩, effects⟩
    · rw [h.unheld_of_none hr.1 hc] at hafter hanswers
      simp only [results, hc, Option.toList_none, List.nil_append]
      exact ⟨hafter, hanswers⟩
    · have hstep := h.unheld_of_some hc
      simp only [results, hc, Option.toList_some, List.singleton_append, List.map_cons,
        Tournament.answers, Tournament.recordAll, List.foldl_cons, hstep]
      exact ⟨hafter, congrArg _ hanswers⟩

end Balance

theorem unheld_ofTournament {c : Config} {t : Tournament} (h : t.Live c) :
    (ofTournament t).tournament.unheld = t := by
  rw [ofTournament_eq h.free]
  have hmap : t.arena.map Match.unheld = t.arena := by
    rw [List.map_congr_left fun m hm => (h.free m hm).unheld, List.map_id']
  exact congrArg t.withArena hmap

/-- A run at a desk taken up from a new tournament is, but for the devices, the run of the results
it has recorded, and has been answered what the tournament answers to them. -/
theorem refines_recordAll {c : Config} {stamp : Stamp} {draw : Draw} {t : Tournament}
    (h : Tournament.create c stamp draw = .ok t) (calls : List Call)
    (hr : Returns (ofTournament t) calls) :
    ((ofTournament t).after calls).tournament.unheld =
        t.recordAll (((ofTournament t).results calls).map Prod.fst) ∧
      t.answers (((ofTournament t).results calls).map Prod.fst) =
        ((ofTournament t).results calls).map fun r => .ok r.2 := by
  have hlive := Tournament.live_of_create h
  have hrefines := (balanced_ofTournament hlive).refines hr
  rwa [unheld_ofTournament hlive] at hrefines

theorem refines_recordAll_smallCup :
    ∃ t, Tournament.create (Tournament.smallCup .singleElimination) Tournament.smallStamp .seeded =
        .ok t ∧
      Returns (ofTournament t) boardCalls ∧
      ((ofTournament t).after boardCalls).tournament.unheld =
        t.recordAll (((ofTournament t).results boardCalls).map Prod.fst) ∧
      t.answers (((ofTournament t).results boardCalls).map Prod.fst) =
        ((ofTournament t).results boardCalls).map fun r => .ok r.2 := by
  obtain ⟨t, ht, hlive⟩ := (Tournament.create_yields
    (c := Tournament.smallCup .singleElimination) Tournament.smallStamp .seeded
    (by decide)).exists_ok (by decide)
  have hr := (balanced_ofTournament hlive).returns (.inl rfl) boardCalls
  exact ⟨t, ht, hr, refines_recordAll ht boardCalls hr⟩

end Desk

end Tourney
