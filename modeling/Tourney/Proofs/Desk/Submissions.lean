import Tourney.Proofs.Desk.Accepted
import Tourney.Proofs.Desk.Frame

/-!
# What becomes of a submission

The queue of a desk can be read off the calls that have been accepted: what waits for a match is
the last submission for it, unless it has been judged since (`queue_after`, `foldl_enqueue_iff`). A
match that is settled stays so (`lasts_after`). Hence a submission is approved as it was handed in
or not at all, it is judged once, and no match has two results (`accounted_after`).
-/

namespace Tourney.Desk

open Arena

/-! ## Submissions in a log -/

/-- The match whose submission a call disposes of. -/
def Call.judges? : Call → Option MatchId
  | .approve id => some id
  | .reject id _ => some id
  | _ => none

/-- The match whose place in the queue a call changes. -/
def Call.queues? : Call → Option MatchId
  | .submit s => some s.id
  | c => c.judges?

/-- The last submission for a match that has not been judged. -/
def Waits (log : List Call) (id : MatchId) (s : Submission) : Prop :=
  ∃ before after, log = before ++ .submit s :: after ∧ s.id = id ∧
    ∀ c ∈ after, c.queues? ≠ some id

/-- The queue after an accepted call. -/
def enqueue (queue : Queue) : Call → Queue
  | .submit s => queue.insert s.id s
  | .approve id => queue.erase id
  | .reject id _ => queue.erase id
  | _ => queue

section Log

variable {log log' : List Call} {c : Call} {id : MatchId} {s : Submission}

theorem Call.queues?_of_judges? (h : c.judges? = some id) : c.queues? = some id := by
  cases c <;> first | exact h | cases h

theorem not_waits_nil : ¬Waits [] id s := by
  rintro ⟨before, after, h, -⟩
  simp at h

theorem waits_append_singleton_of_ne (hc : c.queues? ≠ some id) :
    Waits (log ++ [c]) id s ↔ Waits log id s := by
  constructor
  · rintro ⟨before, after, h, rfl, hafter⟩
    rcases List.eq_nil_or_concat after with rfl | ⟨after, c', rfl⟩
    · obtain ⟨-, rfl⟩ := List.append_inj' h rfl |>.imp_right List.singleton_inj.1
      exact absurd rfl hc
    · rw [List.concat_eq_append, ← List.cons_append, ← List.append_assoc] at h
      obtain ⟨rfl, -⟩ := List.append_inj' h rfl
      exact ⟨before, after, rfl, rfl, fun c hc => hafter c (by simp [hc])⟩
  · rintro ⟨before, after, rfl, rfl, hafter⟩
    refine ⟨before, after ++ [c], by simp, rfl, fun c' hc' => ?_⟩
    rcases List.mem_append.1 hc' with hc' | hc'
    · exact hafter c' hc'
    · exact List.mem_singleton.1 hc' ▸ hc

theorem waits_append_singleton_of_eq (hc : c.queues? = some id) :
    Waits (log ++ [c]) id s ↔ c = .submit s := by
  constructor
  · rintro ⟨before, after, h, rfl, hafter⟩
    rcases List.eq_nil_or_concat after with rfl | ⟨after, c', rfl⟩
    · exact List.singleton_inj.1 (List.append_inj' h rfl).2
    · rw [List.concat_eq_append, ← List.cons_append, ← List.append_assoc] at h
      obtain rfl := List.singleton_inj.1 (List.append_inj' h rfl).2
      exact absurd hc (hafter c (by simp))
  · rintro rfl
    exact ⟨log, [], rfl, Option.some.inj hc, by simp⟩

/-- What waits has been handed in since the last time the match was judged. -/
theorem Waits.mem (h : Waits (log ++ c :: log') id s) (hc : c.judges? = some id) :
    .submit s ∈ log' ∧ s.id = id := by
  obtain ⟨before, after, hlog, rfl, hafter⟩ := h
  refine ⟨?_, rfl⟩
  rcases List.append_eq_append_iff.1 hlog with ⟨mid, rfl, hmid⟩ | ⟨mid, rfl, hmid⟩
  · rcases mid with _ | ⟨c', mid⟩
    · obtain ⟨rfl, -⟩ := List.cons.inj hmid
      cases hc
    · obtain ⟨-, rfl⟩ := List.cons.inj hmid
      simp
  · rcases mid with _ | ⟨c', mid⟩
    · obtain ⟨rfl, -⟩ := List.cons.inj hmid
      cases hc
    · obtain ⟨-, rfl⟩ := List.cons.inj hmid
      exact absurd (Call.queues?_of_judges? hc) (hafter c (by simp))

theorem enqueue_of_ne {queue : Queue} (hc : c.queues? ≠ some id) :
    (enqueue queue c)[id]? = queue[id]? := by
  cases c with
  | submit s => exact queue_insert_of_ne fun hid => hc (congrArg some hid.symm)
  | approve id' => exact queue_erase_of_ne fun hid => hc (congrArg some hid.symm)
  | reject id' reason => exact queue_erase_of_ne fun hid => hc (congrArg some hid.symm)
  | _ => rfl

/-- What waits in the queue can be read off the log. -/
theorem foldl_enqueue_iff : (log.foldl enqueue ∅)[id]? = some s ↔ Waits log id s := by
  induction log using List.reverseRecOn with
  | nil => exact iff_of_false (by simp) not_waits_nil
  | append_singleton log c ih =>
    rw [List.foldl_append, List.foldl_cons, List.foldl_nil]
    by_cases hc : c.queues? = some id
    · rw [waits_append_singleton_of_eq hc]
      cases c <;> cases hc <;> simp [enqueue]
    · rw [waits_append_singleton_of_ne hc, ← ih]
      rw [enqueue_of_ne hc]

end Log

/-! ## Submissions at a desk -/

theorem Accepts.queue_eq {desk desk' : Desk} {c : Call} (h : Accepts desk c desk') :
    desk'.queue = enqueue desk.queue c := by
  cases h with
  | abandon d device id m => exact released_queue desk id m.device
  | unassign id m => exact released_queue desk id m.device
  | approve | record => exact settled_queue ..
  | _ => rfl

theorem Balanced.queue_after {format : Format} {desk : Desk} (h : Balanced format desk)
    {calls : List Call} (hr : Returns desk calls) :
    (desk.after calls).queue = (desk.accepted calls).foldl enqueue desk.queue := by
  induction calls generalizing desk with
  | nil => rfl
  | cons c calls ih =>
    rw [show desk.after (c :: calls) = (desk.call c).state.after calls from rfl,
      ih (h.call hr.1) hr.2]
    rcases h.call_cases hr.1 with ⟨hok, hacc⟩ | ⟨f, hf, hstate⟩
    · rw [accepted_cons_of_ok hok, List.foldl_cons, hacc.queue_eq]
    · rw [accepted_cons_of_error hf, hstate]

/-- A match has its result, to the last figure. -/
def Stands (t : Tournament) (id : MatchId) (o : Outcome) : Prop :=
  ∃ m, t.match? id = some m ∧ m.status = .complete ∧ m.winner = some o.winner ∧
    m.figures = o.figures

/-- What has become of the submissions at a desk, by the calls it has accepted. -/
structure Accounted (log : List Call) (desk : Desk) : Prop where
  queue : ∀ id s, desk.queue[id]? = some s ↔ Waits log id s
  approved : ∀ before id after, log = before ++ .approve id :: after →
    ∃ s, Waits before id s ∧ Stands desk.tournament id s.outcome
  recorded : ∀ before id o after, log = before ++ .record id o :: after →
    (∀ s, ¬Waits before id s) ∧ Stands desk.tournament id o
  between : ∀ before c mid c' after id, log = before ++ c :: mid ++ c' :: after →
    c.judges? = some id → c'.judges? = some id → ∃ s, .submit s ∈ mid ∧ s.id = id
  once : (log.filterMap Call.settles?).Nodup
  refused : ∀ id s, Waits log id s → ∀ o,
    (desk.record id o).answer = .error (.illegalTransition id .awaitingApproval .complete)

theorem Balanced.stands {format : Format} {desk : Desk} (h : Balanced format desk) {id : MatchId}
    {o : Outcome} {t t' : Tournament} {effects : Effects}
    (hr : desk.tournament.record id o = .done t effects) (hlasts : t.Lasts t')
    (hord : Ordered t'.arena) : Stands t' id o := by
  obtain ⟨m, -, -, hm⟩ := h.running.match?_of_record hr
  exact ⟨_, hlasts.match?_eq hord hm rfl, rfl, rfl, rfl⟩

section Run

variable {c : Config} {stamp : Stamp} {draw : Draw} {t : Tournament}
  (h : Tournament.create c stamp draw = .ok t) {calls : List Call}
  (hr : Returns (ofTournament t) calls)

include h hr

theorem queue_iff_waits (id : MatchId) (s : Submission) :
    ((ofTournament t).after calls).queue[id]? = some s ↔
      Waits ((ofTournament t).accepted calls) id s := by
  have hlive := Tournament.live_of_create h
  have hempty : (ofTournament t).queue = ∅ := by rw [ofTournament_eq hlive.free]
  rw [(balanced_ofTournament hlive).queue_after hr, hempty, foldl_enqueue_iff]

/-- A call that has been accepted was so at the desk that the calls before it had left, and what it
has made of the tournament lasts. -/
theorem exists_of_accepted {before after : List Call} {call : Call}
    (hlog : (ofTournament t).accepted calls = before ++ call :: after) :
    ∃ desk desk' : Desk, Balanced c.format desk ∧
      (∀ id s, desk.queue[id]? = some s ↔ Waits before id s) ∧ Accepts desk call desk' ∧
      desk'.tournament.Lasts ((ofTournament t).after calls).tournament := by
  obtain ⟨first, rest, rfl, rfl, hok⟩ := exists_of_accepted_eq hlog
  obtain ⟨hfirst, hcall, hrest⟩ := returns_append.1 hr
  have hmade : Returns (ofTournament t) (first ++ [call]) :=
    returns_append.2 ⟨hfirst, hcall, trivial⟩
  have hafter : (ofTournament t).after (first ++ [call]) =
      (((ofTournament t).after first).call call).state := after_append ..
  have hlasts := lasts_after h hmade (hafter ▸ hrest)
  rw [hafter] at hlasts
  exact ⟨_, _, (balanced_ofTournament (Tournament.live_of_create h)).after hfirst,
    queue_iff_waits h hfirst, accepts_of_ok hok, by rw [after_append]; exact hlasts⟩

theorem ordered_after : Ordered ((ofTournament t).after calls).tournament.arena :=
  ((balanced_ofTournament (Tournament.live_of_create h)).after hr).ordered

/-- A match with a result is resolved. -/
theorem resolved_of_settles {id : MatchId}
    (hid : id ∈ ((ofTournament t).accepted calls).filterMap Call.settles?) :
    ∃ m, ((ofTournament t).after calls).match? id = some m ∧ m.status.isResolved := by
  obtain ⟨call, hcall, hsettles⟩ := List.mem_filterMap.1 hid
  obtain ⟨before, after, hlog⟩ := List.append_of_mem hcall
  obtain ⟨desk, desk', hb, -, hacc, hlasts⟩ := exists_of_accepted h hr hlog
  obtain ⟨o, effects, hrec⟩ := hacc.exists_record hsettles
  obtain ⟨m, hm, hs, -⟩ := hb.stands hrec hlasts (ordered_after h hr)
  exact ⟨m, hm, by rw [hs]; rfl⟩

omit hr in
theorem nodup_settles {calls : List Call} (hr : Returns (ofTournament t) calls) :
    (((ofTournament t).accepted calls).filterMap Call.settles?).Nodup := by
  induction calls using List.reverseRecOn with
  | nil => exact List.nodup_nil
  | append_singleton calls call ih =>
    obtain ⟨hr, hcall, -⟩ := returns_append.1 hr
    rw [accepted_append]
    have hb := (balanced_ofTournament (Tournament.live_of_create h)).after hr
    rcases hb.call_cases hcall with ⟨hok, hacc⟩ | ⟨f, hf, -⟩
    swap
    · rw [accepted_cons_of_error hf, accepted, List.append_nil]
      exact ih hr
    rw [accepted_cons_of_ok hok, accepted, List.filterMap_append]
    refine List.nodup_append.2 ⟨ih hr, ?_, ?_⟩
    · cases hs : call.settles? <;> simp [hs]
    · rintro id hid _ hid' rfl
      -- the match is resolved by now, and a result is for one that is not
      obtain ⟨m, hm, hres⟩ := resolved_of_settles h hr hid
      have hid' : call.settles? = some id := by simpa using hid'
      obtain ⟨o, effects, hrec⟩ := hacc.exists_record hid'
      obtain ⟨m', hm', hopen, -⟩ := hb.running.match?_of_record hrec
      obtain rfl := Option.some.inj (hm.symm.trans hm')
      rw [hopen] at hres
      cases hres

end Run

/-- Whatever is done at a desk taken up from a new tournament, the queue holds the last submission
for each match that has not been judged since. A submission is approved as it was handed in, each
approval and each rejection has a submission of its own, no match gets two results, and none is
recorded by hand while a submission waits. -/
theorem accounted_after {c : Config} {stamp : Stamp} {draw : Draw} {t : Tournament}
    (h : Tournament.create c stamp draw = .ok t) (calls : List Call)
    (hr : Returns (ofTournament t) calls) :
    Accounted ((ofTournament t).accepted calls) ((ofTournament t).after calls) where
  queue := queue_iff_waits h hr
  once := nodup_settles h hr
  approved before id after hlog := by
    obtain ⟨desk, desk', hb, hqueue, hacc, hlasts⟩ := exists_of_accepted h hr hlog
    cases hacc with
    | approve _ s t' effects hq hrec =>
      rw [settled_tournament] at hlasts
      exact ⟨s, (hqueue id s).1 hq, hb.stands hrec hlasts (ordered_after h hr)⟩
  recorded before id o after hlog := by
    obtain ⟨desk, desk', hb, hqueue, hacc, hlasts⟩ := exists_of_accepted h hr hlog
    cases hacc with
    | record _ _ m t' effects hm hs hrec =>
      rw [settled_tournament] at hlasts
      refine ⟨fun s hw => hs ?_, hb.stands hrec hlasts (ordered_after h hr)⟩
      obtain ⟨hmem, rfl⟩ := mem_of_find? hm
      have hq := (hb.tallies m hmem).queued
      rw [(hqueue m.id s).2 hw] at hq
      exact hq.1
  between before call mid call' after id hlog hcall hcall' := by
    obtain ⟨desk, desk', -, hqueue, hacc, -⟩ := exists_of_accepted h hr hlog
    have hwaits : ∃ s, Waits (before ++ call :: mid) id s := by
      cases hacc with
      | approve id' s _ _ hq => exact ⟨s, (hqueue _ s).1 (Option.some.inj hcall' ▸ hq)⟩
      | reject id' _ s _ hq => exact ⟨s, (hqueue _ s).1 (Option.some.inj hcall' ▸ hq)⟩
      | _ => cases hcall'
    obtain ⟨s, hs⟩ := hwaits
    exact ⟨s, hs.mem hcall⟩
  refused id s hw o := by
    have hb := (balanced_ofTournament (Tournament.live_of_create h)).after hr
    have hq := (queue_iff_waits h hr id s).2 hw
    obtain ⟨m, hm, rfl⟩ := hb.queue id (Std.ExtTreeMap.mem_iff_isSome_getElem?.2 (by rw [hq]; rfl))
    have hqueued := (hb.tallies m hm).queued
    rw [hq] at hqueued
    have hfind : ((ofTournament t).after calls).match? m.id = some m := hb.ordered.find? hm
    simp only [Desk.record, hfind, hqueued.1, if_true]
    rfl

/-- A result that is handed in twice, rejected, handed in again and approved. -/
def courtCalls : List Call :=
  [.register "court", .assign ⟨1⟩ "court", .submit ⟨⟨1⟩, "court", ⟨"A", {}⟩, .epoch⟩,
    .submit ⟨⟨1⟩, "court", ⟨"D", {}⟩, .epoch⟩, .reject ⟨1⟩ "illegible",
    .submit ⟨⟨1⟩, "court", ⟨"D", {}⟩, .epoch⟩, .record ⟨1⟩ ⟨"A", {}⟩, .approve ⟨1⟩,
    .record ⟨2⟩ ⟨"B", {}⟩]

theorem accounted_after_smallCup :
    ∃ t, Tournament.create (Tournament.smallCup .singleElimination) Tournament.smallStamp .seeded =
        .ok t ∧
      Returns (ofTournament t) courtCalls ∧
        Accounted ((ofTournament t).accepted courtCalls) ((ofTournament t).after courtCalls) := by
  obtain ⟨t, ht, hlive⟩ := (Tournament.create_yields
    (c := Tournament.smallCup .singleElimination) Tournament.smallStamp .seeded
    (by decide)).exists_ok (by decide)
  have hr := (balanced_ofTournament hlive).returns (.inl rfl) courtCalls
  exact ⟨t, ht, hr, accounted_after ht courtCalls hr⟩

end Tourney.Desk
