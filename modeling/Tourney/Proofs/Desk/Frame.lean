import Tourney.Proofs.Desk.Refinement
import Tourney.Proofs.Tournament.Frame
import Tourney.Proofs.Tournament.WellFormed

/-!
# What a call leaves alone

A call at the desk is for one match at most (`target?`). It disturbs no other that is resolved or
has both its players (`Balanced.keeps`), and so over a run of calls what is resolved stays as it is
and nobody changes seats (`undisturbed_after`).
-/

namespace Tourney

open Arena

theorem Match.regular_of_unheld {m : Match} (h : m.unheld.Regular) : m.Regular where
  once := h.once
  skipped hs := h.skipped (by simp [Match.unheld, hs, MatchStatus.isHeld])
  awaited ho hg hl slot := by
    rw [← Match.seat_unheld]
    exact h.awaited (by rwa [Match.isResolved_unheld]) hg hl slot

/-- Calls that have been answered with effects have been taken. -/
theorem Tournament.taken_of_answers {t : Tournament} {calls : List (MatchId × Outcome)}
    {effects : List Effects} (h : t.answers calls = effects.map .ok) : Taken t calls := by
  induction calls generalizing t effects with
  | nil => trivial
  | cons call calls ih =>
    cases effects with
    | nil => cases h
    | cons e effects =>
      rw [answers, List.map_cons, List.cons.injEq] at h
      exact ⟨isOk_iff.2 ⟨e, h.1⟩, ih h.2⟩

namespace Desk

/-- The match a call is for, if there is one. -/
def target? (desk : Desk) : Call → Option MatchId
  | .remove d => desk.deviceMatch? d
  | .assign id _ => some id
  | .unassign id => some id
  | .startMatch id => some id
  | .submit s => some s.id
  | .approve id => some id
  | .reject id _ => some id
  | .record id _ => some id
  | .register _ => none
  | .drain => none

/-- A call disturbs none but the match it is for, and a run of calls nothing that is settled. -/
structure Undisturbed (desk : Desk) : Prop where
  keeps : ∀ c, (desk.call c).answer ≠ .error .outOfRange →
    Tournament.Keeps (desk.target? c) desk.tournament (desk.call c).state.tournament
  lasts : ∀ more, Returns desk more →
    Tournament.Lasts desk.tournament (desk.after more).tournament

section Calls

variable {format : Format} {desk desk' : Desk} (h : Balanced format desk)

include h

theorem Balanced.keeps_setMatch {id : MatchId} {m : Match} (hm : desk.match? id = some m)
    {s : MatchStatus} (hs : m.status.canBecome s) {d : Option DeviceId} {f : Match → Match}
    (hf : f m = m.move s d) :
    Tournament.Keeps (some id) desk.tournament (desk.setMatch id f).tournament := by
  obtain ⟨hmem, rfl⟩ := mem_of_find? hm
  have hall := h.ordered.forall₂_modify (fun m => Match.Undisturbed.refl m) hmem
    (hf ▸ Match.undisturbed_move hs d)
  refine ⟨⟨_, [], (List.append_nil _).symm, hall⟩, fun hc => ?_⟩
  rw [MatchStatus.canBecome_of_resolved (h.running.all_resolved hc m hmem)] at hs
  cases hs

theorem Balanced.keeps_released {id : MatchId} {m : Match} (hm : desk.match? id = some m)
    (hs : m.status = .assigned ∨ m.status = .inProgress) :
    Tournament.Keeps (some id) desk.tournament (desk.released id m.device).tournament := by
  rw [released_tournament]
  refine h.keeps_setMatch hm (s := .pending) (d := none) ?_ rfl
  rcases hs with hs | hs <;> rw [hs] <;> rfl

variable (hreg : ∀ m ∈ desk.tournament.arena, m.Regular)

include hreg

theorem Balanced.keeps_settled {id : MatchId} {o : Outcome} {t : Tournament} {effects : Effects}
    (hr : desk.tournament.record id o = .done t effects) :
    Tournament.Keeps (some id) desk.tournament t := by
  have hkeeps := h.running.keeps_record hreg (by rw [hr]; exact nofun)
  rwa [hr] at hkeeps

theorem Balanced.keeps_of_accepts {c : Call} (ha : Accepts desk c desk') :
    Tournament.Keeps (desk.target? c) desk.tournament desk'.tournament := by
  cases ha with
  | reconnect | register | drain => exact .of_eq rfl rfl
  | remove d device hd hh => exact .of_eq rfl rfl
  | abandon d device id m hd hh hm hs =>
    have htarget : desk.target? (.remove d) = some id := by simp [target?, deviceMatch?, hd, hh]
    rw [htarget]
    exact h.keeps_released hm hs
  | assign id d device m p1 p2 hd hh hm hs =>
    exact h.keeps_setMatch hm (s := .assigned) (by rw [hs]; rfl) rfl
  | unassign id m hm hs => exact h.keeps_released hm hs
  | startMatch id m hm hs => exact h.keeps_setMatch hm hs rfl
  | submit s m hm hs => exact h.keeps_setMatch hm hs rfl
  | reject id reason s m hq hm hs => exact h.keeps_setMatch hm hs rfl
  | approve id s t effects hq hr =>
    rw [settled_tournament]
    exact h.keeps_settled hreg hr
  | record id o m t effects hm hs hr =>
    rw [settled_tournament]
    exact h.keeps_settled hreg hr

/-- A call keeps whatever it is not for. -/
theorem Balanced.keeps {c : Call} (hne : (desk.call c).answer ≠ .error .outOfRange) :
    Tournament.Keeps (desk.target? c) desk.tournament (desk.call c).state.tournament := by
  rcases h.call_cases hne with ⟨-, ha⟩ | ⟨f, -, hstate⟩
  · exact h.keeps_of_accepts hreg ha
  · rw [hstate]
    exact .of_eq rfl rfl

end Calls

/-! ## Runs -/

section Runs

variable {c : Config} {stamp : Stamp} {draw : Draw} {t : Tournament}
  (h : Tournament.create c stamp draw = .ok t)

include h

/-- The matches at a desk are regular, since those of its results are. -/
theorem regular_after {calls : List Call} (hr : Returns (ofTournament t) calls) :
    ∀ m ∈ ((ofTournament t).after calls).tournament.arena, m.Regular := by
  have hlive := Tournament.live_of_create h
  obtain ⟨hafter, hanswers⟩ := (balanced_ofTournament hlive).refines hr
  rw [unheld_ofTournament hlive] at hafter hanswers
  have htold : t.answers (((ofTournament t).results calls).map Prod.fst) =
      (((ofTournament t).results calls).map Prod.snd).map .ok := by
    rw [hanswers, List.map_map]
    rfl
  have htaken := Tournament.taken_of_answers htold
  have hall := Tournament.regular_of_returns h htaken.returns
  rw [← hafter] at hall
  exact fun m hm => Match.regular_of_unheld (hall m.unheld (List.mem_map_of_mem hm))

theorem keeps_after {calls : List Call} (hr : Returns (ofTournament t) calls) {c : Call}
    (hne : (((ofTournament t).after calls).call c).answer ≠ .error .outOfRange) :
    Tournament.Keeps (((ofTournament t).after calls).target? c)
      ((ofTournament t).after calls).tournament
      (((ofTournament t).after calls).call c).state.tournament :=
  ((balanced_ofTournament (Tournament.live_of_create h)).after hr).keeps (regular_after h hr) hne

theorem lasts_after {calls more : List Call} (hr : Returns (ofTournament t) calls)
    (hmore : Returns ((ofTournament t).after calls) more) :
    Tournament.Lasts ((ofTournament t).after calls).tournament
      (((ofTournament t).after calls).after more).tournament := by
  induction more generalizing calls with
  | nil => exact .refl _
  | cons c more ih =>
    have hstep := (keeps_after h hr hmore.1).lasts
    have hr' : Returns (ofTournament t) (calls ++ [c]) :=
      returns_append.2 ⟨hr, hmore.1, trivial⟩
    have hrest := ih hr' (by rw [after_append]; exact hmore.2)
    rw [after_append] at hrest
    exact hstep.trans hrest

/-- Whatever has been done at a desk taken up from a new tournament, a further call disturbs none
but the match it is for, and moves matches along legal edges only. However it goes on, what is
resolved stays as it is, and so does the whole tournament once it is complete. -/
theorem undisturbed_after (calls : List Call) (hr : Returns (ofTournament t) calls) :
    Undisturbed ((ofTournament t).after calls) :=
  ⟨fun _ hne => keeps_after h hr hne, fun _ hmore => lasts_after h hr hmore⟩

end Runs

/-- A cup in which the first player goes on without a match. -/
def byeCup : Config :=
  { Tournament.smallCup .doubleElimination with players := ["A", "B", "C"] }

/-- A result that is rejected, and entered by hand when the board is gone. -/
def byeCalls : List Call :=
  [.register "board", .assign ⟨2⟩ "board", .submit ⟨⟨2⟩, "board", ⟨"C", {}⟩, .epoch⟩,
    .reject ⟨2⟩ "illegible", .remove "board", .record ⟨2⟩ ⟨"B", {}⟩]

theorem undisturbed_after_byeCup :
    ∃ t, Tournament.create byeCup Tournament.smallStamp .seeded = .ok t ∧
      Returns (ofTournament t) byeCalls ∧ Undisturbed ((ofTournament t).after byeCalls) := by
  obtain ⟨t, ht, hlive⟩ := (Tournament.create_yields (c := byeCup) Tournament.smallStamp .seeded
    (by decide)).exists_ok (by decide)
  have hr := (balanced_ofTournament hlive).returns (.inr rfl) byeCalls
  exact ⟨t, ht, hr, undisturbed_after ht byeCalls hr⟩

end Desk

end Tourney
