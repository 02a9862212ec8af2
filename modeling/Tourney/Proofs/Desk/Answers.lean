import Tourney.Proofs.Desk.Consistent

/-!
# What a desk answers

No call but the one for the notices looks at those that wait. With more of them in front a desk
gives the same answers and is left the same (`call_ahead`), until they are handed over before the
others (`answers_ahead`).
-/

namespace Tourney.Desk

/-- What a call is answered if it is not refused. -/
inductive Answer where
  | done
  | handedBack (id : Option MatchId)
  | recorded (effects : Effects)
  | notices (events : List Event)

def answer (desk : Desk) : Call → Except Fault Answer
  | .remove d => (desk.remove d).answer.map .handedBack
  | .approve id => (desk.approve id).answer.map .recorded
  | .record id o => (desk.record id o).answer.map .recorded
  | .drain => .ok (.notices desk.drain.2)
  | c => (desk.call c).answer.map fun _ => .done

def answers (desk : Desk) : List Call → List (Except Fault Answer)
  | [] => []
  | c :: calls => desk.answer c :: (desk.call c).state.answers calls

/-- The same answers, with some notices before those that are handed over first. -/
def preceded (events : List Event) : List (Except Fault Answer) → List (Except Fault Answer)
  | [] => []
  | .ok (.notices events') :: answers => .ok (.notices (events ++ events')) :: answers
  | a :: answers => a :: preceded events answers

/-- The desk with some notices before those that wait at it. -/
def ahead (events : List Event) (desk : Desk) : Desk :=
  { desk with events := events ++ desk.events }

section Ahead

variable {events : List Event} {desk : Desk} {α : Type}

@[simp] theorem ahead_tournament : (ahead events desk).tournament = desk.tournament := rfl

@[simp] theorem ahead_devices : (ahead events desk).devices = desk.devices := rfl

@[simp] theorem ahead_queue : (ahead events desk).queue = desk.queue := rfl

@[simp] theorem ahead_match? (id : MatchId) : (ahead events desk).match? id = desk.match? id := rfl

theorem freeHolder_ahead (events : List Event) (desk : Desk) (holder : Option DeviceId)
    (id : MatchId) :
    (ahead events desk).freeHolder holder id = ahead events (desk.freeHolder holder id) := by
  unfold freeHolder
  split
  · unfold freeDevice
    simp only [ahead_devices]
    split
    · split_ifs <;> rfl
    · rfl
  · rfl

theorem release_ahead (id : MatchId) :
    (ahead events desk).release id = (desk.release id).map (ahead events) := by
  unfold release
  simp only [ahead_match?]
  split
  · rfl
  · split_ifs
    · exact congrArg Except.ok (freeHolder_ahead events (desk.setMatch id _) _ id)
    · rfl

theorem transition_ahead (id : MatchId) (s : MatchStatus) :
    (ahead events desk).transition id s = (desk.transition id s).map (ahead events) := by
  unfold transition
  simp only [ahead_match?]
  split
  · rfl
  · split_ifs <;> rfl

/-- The reply of a desk with some notices before those that wait at it. -/
def aheadOf (events : List Event) (r : Reply Desk α) : Reply Desk α :=
  ⟨ahead events r.state, r.answer⟩

theorem commit_ahead {r r' : Except Fault Desk} (h : r' = r.map (ahead events)) :
    (ahead events desk).commit r' = aheadOf events (desk.commit r) := by
  subst h
  cases r <;> rfl

theorem register_ahead (d : DeviceId) :
    (ahead events desk).register d = aheadOf events (desk.register d) := by
  refine commit_ahead ?_
  simp only [ahead_devices]
  split
  · split_ifs <;> rfl
  · rfl

theorem remove_ahead (d : DeviceId) :
    (ahead events desk).remove d = aheadOf events (desk.remove d) := by
  unfold Desk.remove
  simp only [ahead_devices, ahead_match?]
  split
  · rfl
  split
  · rfl
  split
  · rfl
  split_ifs
  · rfl
  rw [release_ahead]
  cases desk.release _ <;> rfl

theorem assign_ahead (id : MatchId) (d : DeviceId) :
    (ahead events desk).assign id d = aheadOf events (desk.assign id d) := by
  refine commit_ahead ?_
  simp only [ahead_devices, ahead_match?]
  split
  · rfl
  split
  · rfl
  split
  · rfl
  split_ifs
  · rfl
  split
  · exact congrArg Except.ok (by simp [ahead, setMatch])
  · rfl

theorem submit_ahead (s : Submission) :
    (ahead events desk).submit s = aheadOf events (desk.submit s) := by
  refine commit_ahead ?_
  simp only [ahead_match?]
  split
  · rfl
  split_ifs <;> rfl

theorem reject_ahead (id : MatchId) (reason : String) :
    (ahead events desk).reject id reason = aheadOf events (desk.reject id reason) := by
  refine commit_ahead ?_
  simp only [ahead_queue]
  split
  · rfl
  rw [transition_ahead]
  cases desk.transition id .assigned with
  | error f => rfl
  | ok desk' => exact congrArg Except.ok (by simp [ahead])

theorem settle_ahead (id : MatchId) (o : Outcome) (holder : Option DeviceId) (queue : Queue) :
    (ahead events desk).settle id o holder queue =
      aheadOf events (desk.settle id o holder queue) := by
  unfold settle
  simp only [ahead_tournament]
  split
  · rfl
  · rename_i effects _
    have hfree := freeHolder_ahead events
      { desk with tournament := (desk.tournament.record id o).state, queue } holder id
    refine (congrArg (fun d : Desk => (Reply.done { d with
      events := d.events ++ .resultApproved id o.winner :: notices d.tournament effects } effects :
        Reply Desk Effects)) hfree).trans ?_
    simp [aheadOf, Reply.done, ahead]

theorem approve_ahead (id : MatchId) :
    (ahead events desk).approve id = aheadOf events (desk.approve id) := by
  unfold Desk.approve
  simp only [ahead_queue]
  split
  · rfl
  · exact settle_ahead ..

theorem record_ahead (id : MatchId) (o : Outcome) :
    (ahead events desk).record id o = aheadOf events (desk.record id o) := by
  unfold Desk.record
  simp only [ahead_match?]
  split
  · rfl
  split_ifs
  · rfl
  · exact settle_ahead ..

theorem call_ahead {c : Call} (hc : c ≠ .drain) :
    (ahead events desk).call c = aheadOf events (desk.call c) := by
  cases c with
  | register d => exact register_ahead d
  | remove d => simp only [call, remove_ahead, aheadOf]
  | assign id d => exact assign_ahead id d
  | unassign id => exact commit_ahead (release_ahead id)
  | startMatch id => exact commit_ahead (transition_ahead id .inProgress)
  | submit s => exact submit_ahead s
  | approve id => simp only [call, approve_ahead, aheadOf]
  | reject id reason => exact reject_ahead id reason
  | record id o => simp only [call, record_ahead, aheadOf]
  | drain => exact absurd rfl hc

theorem answer_ahead {c : Call} (hc : c ≠ .drain) :
    (ahead events desk).answer c = desk.answer c := by
  cases c with
  | remove d => simp only [answer, remove_ahead, aheadOf]
  | approve id => simp only [answer, approve_ahead, aheadOf]
  | record id o => simp only [answer, record_ahead, aheadOf]
  | drain => exact absurd rfl hc
  | _ => simp only [answer, call_ahead hc, aheadOf]

theorem preceded_cons {c : Call} (hc : c ≠ .drain) (answers : List (Except Fault Answer)) :
    preceded events (desk.answer c :: answers) = desk.answer c :: preceded events answers := by
  have hother : ∀ a : Except Fault Answer, (∀ es, a ≠ .ok (.notices es)) →
      preceded events (a :: answers) = a :: preceded events answers := fun a ha => by
    rw [preceded]
    exact fun es hes => ha es hes
  refine hother _ fun es hes => ?_
  cases c with
  | drain => exact hc rfl
  | _ =>
    obtain ⟨_, -, hes⟩ := map_eq_ok.1 hes
    cases hes

/-- With some notices in front a desk answers the same, until they are handed over. -/
theorem answers_ahead (events : List Event) (desk : Desk) (calls : List Call) :
    (ahead events desk).answers calls = preceded events (desk.answers calls) := by
  induction calls generalizing desk with
  | nil => rfl
  | cons c calls ih =>
    by_cases hc : c = .drain
    · subst hc
      rfl
    · rw [answers, answers, call_ahead hc, answer_ahead hc, preceded_cons hc]
      exact congrArg _ (ih _)

/-- What waits at a desk is all that the notices in front ever change. -/
theorem exists_after_ahead (events : List Event) (desk : Desk) (calls : List Call) :
    ∃ events', (ahead events desk).after calls = ahead events' (desk.after calls) := by
  induction calls generalizing events desk with
  | nil => exact ⟨events, rfl⟩
  | cons c calls ih =>
    by_cases hc : c = .drain
    · subst hc
      exact ih [] (desk.call .drain).state
    · obtain ⟨events', h⟩ := ih events (desk.call c).state
      refine ⟨events', Eq.trans ?_ h⟩
      change ((ahead events desk).call c).state.after calls = _
      rw [call_ahead hc]
      rfl

end Ahead

end Tourney.Desk
