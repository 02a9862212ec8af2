import Tourney.Proofs.Desk.Submissions
import Tourney.Proofs.Tournament.Generated

/-!
# The story of a desk

The notices of a run, handed over or still waiting, make one list (`story`), and a call adds to its
end (`story_concat`). A call that records no result adds no more than a hand-out or a rejection,
and that only while there are matches to play; a result adds its approval and its effects
(`Accepts.cases`). So the notices say all that has happened in the tournament (`tells_after`).
-/

namespace Tourney.Desk

open Arena

/-- The result that a notice is about. -/
def Event.approved? : Event → Option (MatchId × Player)
  | .resultApproved id winner => some (id, winner)
  | _ => none

/-- The round or the finals that a notice is about. -/
def Event.generated? : Event → Option (Stage × UInt32)
  | .roundGenerated stage round => some (stage, round)
  | _ => none

/-- The champion of a notice that the tournament is complete. -/
def Event.completed? : Event → Option (Option Player)
  | .tournamentComplete champion => some champion
  | _ => none

/-- The notices that a call hands over. -/
def handed (desk : Desk) : Call → List Event
  | .drain => desk.drain.2
  | _ => []

/-- The notices of a run: those its calls have handed over, and those that wait at its end. -/
def story (desk : Desk) : List Call → List Event
  | [] => desk.events
  | c :: calls => desk.handed c ++ (desk.call c).state.story calls

theorem story_concat {desk : Desk} {calls : List Call} {c : Call} {news : List Event}
    (h : (desk.after calls).handed c ++ ((desk.after calls).call c).state.events =
      (desk.after calls).events ++ news) :
    desk.story (calls ++ [c]) = desk.story calls ++ news := by
  induction calls generalizing desk with
  | nil => exact h
  | cons c' calls ih =>
    rw [List.cons_append, story, story, ih h, List.append_assoc]

theorem handed_of_error {desk : Desk} {c : Call} {f : Fault}
    (h : (desk.call c).answer = .error f) : desk.handed c = [] := by
  cases c <;> first | rfl | cases h

theorem story_concat_of_error {desk : Desk} {calls : List Call} {c : Call} {f : Fault}
    (h : ((desk.after calls).call c).answer = .error f)
    (hstate : ((desk.after calls).call c).state = desk.after calls) :
    desk.story (calls ++ [c]) = desk.story calls := by
  rw [story_concat (by rw [handed_of_error h, hstate, List.nil_append, List.append_nil]),
    List.append_nil]

/-- A notice that is about no result. -/
structure Event.Passing (e : Event) : Prop where
  approved : e.approved? = none
  generated : e.generated? = none
  completed : e.completed? = none

/-- What an accepted call adds to the story. -/
inductive Adds (desk : Desk) (c : Call) (desk' : Desk) : List Event → Prop
  | nothing (hc : c.settles? = none) : Adds desk c desk' []
  | passing (hc : c.settles? = none) (e : Event) (he : e.Passing) (ho : desk.tournament.Open) :
      Adds desk c desk' [e]
  | result (id : MatchId) (o : Outcome) (effects : Effects) (hc : c.settles? = some id)
      (hr : desk.tournament.record id o = .done desk'.tournament effects) :
      Adds desk c desk' (.resultApproved id o.winner :: notices desk'.tournament effects)

section Adds

variable {desk desk' : Desk} {c : Call}

/-- A match that a device can take or has taken is still to be played. -/
theorem open_of_match? {id : MatchId} {m : Match} (hm : desk.match? id = some m)
    (hs : m.status.isResolved = false) : desk.tournament.Open :=
  ⟨m, (mem_of_find? hm).1, hs⟩

theorem Accepts.adds (h : Accepts desk c desk') : ∃ news, Adds desk c desk' news ∧
    desk.handed c ++ desk'.events = desk.events ++ news := by
  cases h with
  | reconnect | register | remove | startMatch | submit =>
    exact ⟨[], .nothing rfl, (List.append_nil _).symm⟩
  | drain => exact ⟨[], .nothing rfl, rfl⟩
  | abandon d device id m =>
    exact ⟨[], .nothing rfl, (released_events desk id m.device).trans (List.append_nil _).symm⟩
  | unassign id m =>
    exact ⟨[], .nothing rfl, (released_events desk id m.device).trans (List.append_nil _).symm⟩
  | assign id d device m p1 p2 hd hh hm hs =>
    exact ⟨_, .passing rfl (.matchAssigned id d p1 p2) ⟨rfl, rfl, rfl⟩
      (open_of_match? hm (by rw [hs]; rfl)), rfl⟩
  | reject id reason s m hq hm hs =>
    refine ⟨_, .passing rfl (.submissionRejected id s.device reason) ⟨rfl, rfl, rfl⟩
      (open_of_match? hm ?_), rfl⟩
    by_contra hres
    rw [MatchStatus.canBecome_of_resolved (by simpa using hres)] at hs
    cases hs
  | approve id s t effects hq hr =>
    exact ⟨_, .result id s.outcome effects rfl (by rwa [settled_tournament]),
      by rw [settled_tournament]; rfl⟩
  | record id o m t effects hm hs hr =>
    exact ⟨_, .result id o effects rfl (by rwa [settled_tournament]),
      by rw [settled_tournament]; rfl⟩

end Adds

/-! ## Notices of an effect -/

section Notices

variable {t : Tournament} {effects : Effects}

theorem notices_approved : (notices t effects).filterMap Event.approved? = [] := by
  unfold notices
  rw [List.filterMap_append, List.filterMap_map]
  split_ifs <;> simp [Event.approved?, Function.comp_def]

theorem notices_generated : (notices t effects).filterMap Event.generated? = effects.generated := by
  unfold notices
  rw [List.filterMap_append, List.filterMap_map]
  split_ifs <;> simp [Event.generated?, Function.comp_def]

theorem rounds_completed (rounds : List (Stage × UInt32)) :
    (rounds.map fun r => Event.roundGenerated r.1 r.2).filterMap Event.completed? = [] := by
  rw [List.filterMap_map]
  simp [Event.completed?, Function.comp_def]

end Notices

/-! ## Runs -/

/-- What the notices say of the tournament. -/
structure Tells (log : List Call) (story : List Event) (t : Tournament) : Prop where
  order : (story.filterMap Event.approved?).map (·.1) = log.filterMap Call.settles?
  winners : ((story.filterMap Event.approved?).map fun r => (r.1, some r.2)).Perm t.winners
  generated : story.filterMap Event.generated? = t.generated
  underWay : t.status ≠ .complete → story.filterMap Event.completed? = []
  complete : t.status = .complete → ∃ before, story = before ++ [.tournamentComplete t.champion] ∧
    before.filterMap Event.completed? = []

/-- The notices say once, and in order, all that has happened in the tournament. -/
structure Chronicle (log : List Call) (story : List Event) (t : Tournament) : Prop
    extends Tells log story t where
  swiss : t.format = .swiss → ∃ e, t.swiss = some e ∧ story.filterMap Event.generated? =
    (List.range' 2 (e.currentRound.toNat - 1)).map fun r => (.main, UInt32.ofNat r)
  groups : ∀ plan, t.format = .groups plan → story.filterMap Event.generated? =
    if t.arena.any (·.stage = .finals) then [(.finals, 1)] else []
  others : t.format ≠ .swiss → (∀ plan, t.format ≠ .groups plan) →
    story.filterMap Event.generated? = []

theorem Tells.chronicle {log : List Call} {story : List Event} {t : Tournament}
    (h : Tells log story t) (ht : t.Running) : Chronicle log story t := by
  refine ⟨h, fun hf => ?_, fun plan hf => ?_, fun hs hg => ?_⟩
  · obtain ⟨e, he⟩ := ht.stages.of_swiss hf
    exact ⟨e, he, by rw [h.generated, Tournament.generated, he]⟩
  · obtain ⟨g, hg, -⟩ := ht.stages.of_groups hf
    have hs := ht.stages.swiss_eq_none (by simp [hf])
    have hiff : t.arena.any (·.stage = .finals) = g.finalsGenerated := by
      rw [Bool.eq_iff_iff, ← ht.exists_finals_iff hf hg]
      simp
    rw [h.generated, hiff]
    simp [Tournament.generated, hs, hg]
  · rw [h.generated, ht.stages.generated_eq_nil hs hg]

section Step

variable {log : List Call} {story : List Event} {t t' : Tournament} {c : Call}

/-- Calls that record no result are not told of in the end. -/
theorem Tells.quiet (h : Tells log story t) (hc : c.settles? = none) {news : List Event}
    (hnews : ∀ e ∈ news, e.Passing) (hsame : t'.unheld = t.unheld)
    (hlast : t.status = .complete → news = [] ∧ t'.arena = t.arena) :
    Tells (log ++ [c]) (story ++ news) t' := by
  have hstatus : t'.status = t.status := (congrArg Tournament.status hsame :)
  have happroved : (story ++ news).filterMap Event.approved? = story.filterMap Event.approved? := by
    rw [List.filterMap_append, List.filterMap_eq_nil_iff.2 fun e he => (hnews e he).approved,
      List.append_nil]
  refine ⟨?_, ?_, ?_, fun hst => ?_, fun hst => ?_⟩
  · rw [happroved, h.order, List.filterMap_append]
    simp [hc]
  · rw [happroved, ← t'.winners_unheld, hsame, t.winners_unheld]
    exact h.winners
  · rw [List.filterMap_append, List.filterMap_eq_nil_iff.2 fun e he => (hnews e he).generated,
      List.append_nil, h.generated]
    exact (congrArg Tournament.generated hsame :).symm
  · rw [List.filterMap_append, List.filterMap_eq_nil_iff.2 fun e he => (hnews e he).completed,
      List.append_nil]
    exact h.underWay (hstatus ▸ hst)
  · obtain ⟨rfl, harena⟩ := hlast (hstatus ▸ hst)
    have heq : t'.unheld.withArena t'.arena = t.unheld.withArena t.arena := by rw [hsame, harena]
    obtain rfl : t' = t := heq
    rw [List.append_nil]
    exact h.complete hst

/-- A result is told of with its effects. -/
theorem Tells.result (h : Tells log story t) (ht : t.Running) {id : MatchId} {o : Outcome}
    {effects : Effects} (hc : c.settles? = some id) (hr : t.record id o = .done t' effects) :
    Tells (log ++ [c]) (story ++ .resultApproved id o.winner :: notices t' effects) t' := by
  obtain ⟨m, hm, hopen, -⟩ := ht.match?_of_record hr
  have hstatus := ht.status_of_open ⟨m, (mem_of_find? hm).1, hopen⟩
  have hbefore : story.filterMap Event.completed? = [] := h.underWay (by rw [hstatus]; nofun)
  obtain ⟨hgen, hcompleted⟩ := ht.generated_of_record hr
  have happroved : (story ++ .resultApproved id o.winner :: notices t' effects).filterMap
      Event.approved? = story.filterMap Event.approved? ++ [(id, o.winner)] := by
    have hone : Event.approved? (.resultApproved id o.winner) = some (id, o.winner) := rfl
    rw [List.filterMap_append, List.filterMap_cons_some hone, notices_approved]
  refine ⟨?_, ?_, ?_, fun hst => ?_, fun hst => ?_⟩
  · rw [happroved, List.map_append, h.order, List.filterMap_append]
    simp [hc]
  · rw [happroved, List.map_append]
    exact (List.perm_append_singleton _ _).trans
      ((h.winners.cons _).trans (ht.winners_of_record hr).symm)
  · rw [List.filterMap_append, List.filterMap_cons_none rfl, notices_generated, h.generated, hgen]
  · rw [List.filterMap_append, hbefore, List.filterMap_cons_none rfl, notices,
      if_neg (mt hcompleted.1 hst), List.append_nil]
    exact rounds_completed effects.generated
  · refine ⟨story ++ .resultApproved id o.winner ::
      effects.generated.map fun r => .roundGenerated r.1 r.2, ?_, ?_⟩
    · rw [notices, if_pos (hcompleted.2 hst), List.append_assoc]
      rfl
    · rw [List.filterMap_append, hbefore, List.filterMap_cons_none rfl]
      exact rounds_completed effects.generated

end Step

section Run

variable {c : Config} {stamp : Stamp} {draw : Draw} {t : Tournament}
  (h : Tournament.create c stamp draw = .ok t)

include h

theorem tells_after {calls : List Call} (hr : Returns (ofTournament t) calls) :
    Tells ((ofTournament t).accepted calls) ((ofTournament t).story calls)
      ((ofTournament t).after calls).tournament := by
  have hlive := Tournament.live_of_create h
  induction calls using List.reverseRecOn with
  | nil =>
    have hstatus := hlive.running.status_of_open (Tournament.open_of_create h)
    rw [ofTournament_eq hlive.free]
    refine ⟨rfl, ?_, ?_, fun _ => rfl, fun hst => ?_⟩
    · exact .of_eq (Tournament.winners_of_create h).symm
    · exact (Tournament.generated_of_create h).symm
    · exact absurd (hstatus.symm.trans hst) nofun
  | append_singleton calls call ih =>
    obtain ⟨hr, hcall, -⟩ := returns_append.1 hr
    have hb := (balanced_ofTournament hlive).after hr
    have hafter : (ofTournament t).after (calls ++ [call]) =
        (((ofTournament t).after calls).call call).state := after_append ..
    rw [hafter, accepted_append]
    rcases hb.call_cases hcall with ⟨hok, hacc⟩ | ⟨f, hf, hstate⟩
    · obtain ⟨news, hadds, hnews⟩ := hacc.adds
      have hkeeps := (keeps_after h hr hcall).complete
      rw [accepted_cons_of_ok hok, story_concat hnews]
      cases hadds with
      | nothing hc =>
        exact (ih hr).quiet hc (by simp) (hacc.unheld hc)
          fun hst => ⟨rfl, (hkeeps hst).2⟩
      | passing hc e he ho =>
        refine (ih hr).quiet hc (by simpa using he) (hacc.unheld hc) fun hst => ?_
        exact absurd ((hb.running.status_of_open ho).symm.trans hst) nofun
      | result id o effects hc hrec => exact (ih hr).result hb.running hc hrec
    · rw [accepted_cons_of_error hf, story_concat_of_error hf hstate, hstate]
      simpa [accepted] using ih hr

end Run

/-- Whatever is done at a desk taken up from a new tournament, its notices tell the whole story: one
approval for each result, in the order in which they were recorded, and so for each match that has
been played, with its winner; every Swiss round after the first, in order; the finals, once they
have been drawn; and at the very end that the tournament is complete, once it is. -/
theorem chronicle_after {c : Config} {stamp : Stamp} {draw : Draw} {t : Tournament}
    (h : Tournament.create c stamp draw = .ok t) (calls : List Call)
    (hr : Returns (ofTournament t) calls) :
    Chronicle ((ofTournament t).accepted calls) ((ofTournament t).story calls)
      ((ofTournament t).after calls).tournament :=
  (tells_after h hr).chronicle
    ((balanced_ofTournament (Tournament.live_of_create h)).after hr).running

/-- A cup played to its end, with one look at the notices on the way. -/
def finalCalls : List Call :=
  [.register "board", .assign ⟨1⟩ "board", .submit ⟨⟨1⟩, "board", ⟨"D", {}⟩, .epoch⟩, .approve ⟨1⟩,
    .record ⟨2⟩ ⟨"B", {}⟩, .drain, .record ⟨3⟩ ⟨"D", {}⟩, .assign ⟨3⟩ "board"]

theorem chronicle_after_smallCup :
    ∃ t, Tournament.create (Tournament.smallCup .singleElimination) Tournament.smallStamp .seeded =
        .ok t ∧
      Returns (ofTournament t) finalCalls ∧
        Chronicle ((ofTournament t).accepted finalCalls) ((ofTournament t).story finalCalls)
          ((ofTournament t).after finalCalls).tournament := by
  obtain ⟨t, ht, hlive⟩ := (Tournament.create_yields
    (c := Tournament.smallCup .singleElimination) Tournament.smallStamp .seeded
    (by decide)).exists_ok (by decide)
  have hr := (balanced_ofTournament hlive).returns (.inl rfl) finalCalls
  exact ⟨t, ht, hr, chronicle_after ht finalCalls hr⟩

end Tourney.Desk
