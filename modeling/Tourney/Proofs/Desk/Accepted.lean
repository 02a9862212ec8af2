import Tourney.Proofs.Desk.Balance

/-!
# Calls at the desk

What can be asked of a desk, and what a call does once it is accepted, case by case
(`accepts_of_ok`). A run is known by the calls that have been accepted (`accepted`), each at the
desk that the calls before it have left (`exists_of_accepted_eq`).
-/

namespace Tourney.Desk

open Arena

/-- What can be asked of a desk. -/
inductive Call where
  | register (d : DeviceId)
  | remove (d : DeviceId)
  | assign (id : MatchId) (d : DeviceId)
  | unassign (id : MatchId)
  | startMatch (id : MatchId)
  | submit (s : Submission)
  | approve (id : MatchId)
  | reject (id : MatchId) (reason : String)
  | record (id : MatchId) (o : Outcome)
  | drain

/-- The match that gets its result by a call. -/
def Call.settles? : Call → Option MatchId
  | .approve id => some id
  | .record id _ => some id
  | _ => none

/-- The desk a call leaves, and whether the call was refused. -/
def call (desk : Desk) : Call → Reply Desk Unit
  | .register d => desk.register d
  | .remove d => ⟨(desk.remove d).state, (desk.remove d).answer.map fun _ => ()⟩
  | .assign id d => desk.assign id d
  | .unassign id => desk.unassign id
  | .startMatch id => desk.startMatch id
  | .submit s => desk.submit s
  | .approve id => ⟨(desk.approve id).state, (desk.approve id).answer.map fun _ => ()⟩
  | .reject id reason => desk.reject id reason
  | .record id o => ⟨(desk.record id o).state, (desk.record id o).answer.map fun _ => ()⟩
  | .drain => .done desk.drain.1 ()

/-- The desk after some calls, the refused ones among them. -/
def after (desk : Desk) (calls : List Call) : Desk :=
  calls.foldl (fun desk c => (desk.call c).state) desk

/-- Every call comes back. One that takes a number out of its range never does. -/
def Returns (desk : Desk) : List Call → Prop
  | [] => True
  | c :: calls => (desk.call c).answer ≠ .error .outOfRange ∧ Returns (desk.call c).state calls

/-- A match is back from its device. -/
def released (desk : Desk) (id : MatchId) (holder : Option DeviceId) : Desk :=
  (desk.setMatch id fun m => { m with status := .pending, device := none }).freeHolder holder id

/-- The result of a match is final. -/
def settled (desk : Desk) (id : MatchId) (o : Outcome) (holder : Option DeviceId) (queue : Queue)
    (t : Tournament) (effects : Effects) : Desk :=
  { ({ desk with tournament := t, queue }.freeHolder holder id) with
    events := desk.events ++ .resultApproved id o.winner :: notices t effects }

section Fields

variable (desk : Desk) (id : MatchId) (holder : Option DeviceId)

@[simp] theorem released_tournament : (desk.released id holder).tournament =
    (desk.setMatch id fun m => { m with status := .pending, device := none }).tournament := by
  rw [released, freeHolder_eq]

@[simp] theorem released_queue : (desk.released id holder).queue = desk.queue := by
  rw [released, freeHolder_eq]
  rfl

@[simp] theorem released_events : (desk.released id holder).events = desk.events := by
  rw [released, freeHolder_eq]
  rfl

@[simp] theorem settled_tournament (o : Outcome) (queue : Queue) (t : Tournament)
    (effects : Effects) : (desk.settled id o holder queue t effects).tournament = t := by
  rw [settled, freeHolder_eq]

@[simp] theorem settled_queue (o : Outcome) (queue : Queue) (t : Tournament)
    (effects : Effects) : (desk.settled id o holder queue t effects).queue = queue := by
  rw [settled, freeHolder_eq]

end Fields

/-- What an accepted call does to a desk. -/
inductive Accepts (desk : Desk) : Call → Desk → Prop
  | reconnect (d : DeviceId) (device : Device) (hd : desk.devices[d]? = some device)
      (hr : device.recovered) : Accepts desk (.register d)
        { desk with devices := desk.devices.insert d { device with recovered := false } }
  | register (d : DeviceId) (hd : desk.devices[d]? = none) : Accepts desk (.register d)
      { desk with devices := desk.devices.insert d {} }
  | remove (d : DeviceId) (device : Device) (hd : desk.devices[d]? = some device)
      (hh : device.holding = none) : Accepts desk (.remove d)
        { desk with devices := desk.devices.erase d }
  | abandon (d : DeviceId) (device : Device) (id : MatchId) (m : Match)
      (hd : desk.devices[d]? = some device) (hh : device.holding = some id)
      (hm : desk.match? id = some m) (hs : m.status = .assigned ∨ m.status = .inProgress) :
      Accepts desk (.remove d)
        { desk.released id m.device with devices := (desk.released id m.device).devices.erase d }
  | assign (id : MatchId) (d : DeviceId) (device : Device) (m : Match) (p1 p2 : Player)
      (hd : desk.devices[d]? = some device) (hh : device.holding = none)
      (hm : desk.match? id = some m) (hs : m.status = .pending) (h1 : m.player1 = some p1)
      (h2 : m.player2 = some p2) : Accepts desk (.assign id d)
        { desk.setMatch id fun m => { m with status := .assigned, device := some d } with
          devices := desk.devices.insert d { device with holding := some id }
          events := desk.events ++ [.matchAssigned id d p1 p2] }
  | unassign (id : MatchId) (m : Match) (hm : desk.match? id = some m)
      (hs : m.status = .assigned ∨ m.status = .inProgress) :
      Accepts desk (.unassign id) (desk.released id m.device)
  | startMatch (id : MatchId) (m : Match) (hm : desk.match? id = some m)
      (hs : m.status.canBecome .inProgress) : Accepts desk (.startMatch id)
        (desk.setMatch id fun m => { m with status := .inProgress })
  | submit (s : Submission) (m : Match) (hm : desk.match? s.id = some m)
      (hs : m.status.canBecome .awaitingApproval) (hd : m.device = some s.device)
      (hw : m.hasPlayer s.outcome.winner) : Accepts desk (.submit s)
        { desk.setMatch s.id fun m => { m with status := .awaitingApproval } with
          queue := desk.queue.insert s.id s }
  | approve (id : MatchId) (s : Submission) (t : Tournament) (effects : Effects)
      (hq : desk.queue[id]? = some s)
      (hr : desk.tournament.record id s.outcome = .done t effects) : Accepts desk (.approve id)
        (desk.settled id s.outcome (some s.device) (desk.queue.erase id) t effects)
  | reject (id : MatchId) (reason : String) (s : Submission) (m : Match)
      (hq : desk.queue[id]? = some s) (hm : desk.match? id = some m)
      (hs : m.status.canBecome .assigned) : Accepts desk (.reject id reason)
        { desk.setMatch id fun m => { m with status := .assigned } with
          queue := desk.queue.erase id
          events := desk.events ++ [.submissionRejected id s.device reason] }
  | record (id : MatchId) (o : Outcome) (m : Match) (t : Tournament) (effects : Effects)
      (hm : desk.match? id = some m) (hs : m.status ≠ .awaitingApproval)
      (hr : desk.tournament.record id o = .done t effects) : Accepts desk (.record id o)
        (desk.settled id o m.device desk.queue t effects)
  | drain : Accepts desk .drain { desk with events := [] }

theorem Accepts.exists_record {desk desk' : Desk} {c : Call} (h : Accepts desk c desk')
    {id : MatchId} (hc : c.settles? = some id) :
    ∃ o effects, desk.tournament.record id o = .done desk'.tournament effects := by
  cases h with
  | approve id' s t effects hq hr =>
    obtain rfl := Option.some.inj hc
    exact ⟨s.outcome, effects, by rw [hr, settled_tournament]⟩
  | record id' o m t effects hm hs hr =>
    obtain rfl := Option.some.inj hc
    exact ⟨o, effects, by rw [hr, settled_tournament]⟩
  | _ => cases hc

section Calls

variable {desk desk' : Desk} {id : MatchId}

theorem release_eq_ok (h : desk.release id = .ok desk') : ∃ m, desk.match? id = some m ∧
    (m.status = .assigned ∨ m.status = .inProgress) ∧ desk' = desk.released id m.device := by
  unfold release at h
  split at h
  · cases h
  rename_i m hm
  split_ifs at h with hs
  cases h
  exact ⟨m, hm, hs, rfl⟩

theorem transition_eq_ok {s : MatchStatus} (h : desk.transition id s = .ok desk') :
    ∃ m, desk.match? id = some m ∧ m.status.canBecome s ∧
      desk' = desk.setMatch id fun m => { m with status := s } := by
  unfold transition at h
  split at h
  · cases h
  rename_i m hm
  split_ifs at h with hs
  cases h
  exact ⟨m, hm, hs, rfl⟩

/-- A result that counts has been taken by the tournament. -/
theorem record_of_settle {o : Outcome} {holder : Option DeviceId} {queue : Queue}
    {effects : Effects} (h : (desk.settle id o holder queue).answer = .ok effects) :
    desk.tournament.record id o =
      .done (desk.settle id o holder queue).state.tournament effects := by
  rcases hrec : desk.tournament.record id o with ⟨t', f | effects'⟩
  · simp only [settle, hrec] at h
    cases h
  · simp only [settle, hrec] at h ⊢
    cases h
    rw [freeHolder_eq]
    rfl

theorem settle_eq_settled {o : Outcome} {holder : Option DeviceId} {queue : Queue}
    {effects : Effects} (h : (desk.settle id o holder queue).answer = .ok effects) :
    ∃ t, desk.tournament.record id o = .done t effects ∧
      (desk.settle id o holder queue).state = desk.settled id o holder queue t effects := by
  obtain ⟨t, hrec⟩ : ∃ t, desk.tournament.record id o = .done t effects := ⟨_, record_of_settle h⟩
  refine ⟨t, hrec, ?_⟩
  simp only [settle, hrec, Reply.done, settled]
  rw [freeHolder_eq]

theorem exists_of_commit {r : Except Fault Desk} (h : (desk.commit r).answer = .ok ()) :
    ∃ desk', r = .ok desk' ∧ (desk.commit r).state = desk' := by
  cases r with
  | error f => cases h
  | ok desk' => exact ⟨desk', rfl, rfl⟩

theorem accepts_register {d : DeviceId} (h : (desk.register d).answer = .ok ()) :
    Accepts desk (.register d) (desk.register d).state := by
  obtain ⟨desk', h, hstate⟩ := exists_of_commit h
  change Accepts desk _ (desk.commit _).state
  rw [hstate]
  split at h
  · rename_i device hd
    split_ifs at h with hr
    cases h
    exact .reconnect d device hd hr
  · rename_i hd
    cases h
    exact .register d hd

theorem accepts_remove {d : DeviceId} {freed : Option MatchId}
    (h : (desk.remove d).answer = .ok freed) :
    Accepts desk (.remove d) (desk.remove d).state := by
  unfold Desk.remove at h ⊢
  split at h
  · cases h
  rename_i device hd
  split at h
  · rename_i hh
    exact .remove d device hd hh
  rename_i id hh
  split at h
  · cases h
  split_ifs at h ⊢ with hs
  · cases h
  rcases hr : desk.release id with f | desk₁
  · rw [hr] at h
    cases h
  · obtain ⟨m, hm, hs, rfl⟩ := release_eq_ok hr
    exact .abandon d device id m hd hh hm hs

theorem accepts_assign {d : DeviceId} (h : (desk.assign id d).answer = .ok ()) :
    Accepts desk (.assign id d) (desk.assign id d).state := by
  obtain ⟨desk', h, hstate⟩ := exists_of_commit h
  change Accepts desk _ (desk.commit _).state
  rw [hstate]
  split at h
  · cases h
  rename_i device hd
  split at h
  · cases h
  rename_i hh
  split at h
  · cases h
  rename_i m hm
  split_ifs at h with hs
  split at h
  · rename_i p1 p2 h1 h2
    cases h
    exact .assign id d device m p1 p2 hd hh hm (not_not.1 hs) h1 h2
  · cases h

theorem accepts_unassign (h : (desk.unassign id).answer = .ok ()) :
    Accepts desk (.unassign id) (desk.unassign id).state := by
  obtain ⟨desk', h, hstate⟩ := exists_of_commit h
  change Accepts desk _ (desk.commit _).state
  obtain ⟨m, hm, hs, hdesk⟩ := release_eq_ok h
  rw [hstate, hdesk]
  exact .unassign id m hm hs

theorem accepts_startMatch (h : (desk.startMatch id).answer = .ok ()) :
    Accepts desk (.startMatch id) (desk.startMatch id).state := by
  obtain ⟨desk', h, hstate⟩ := exists_of_commit h
  change Accepts desk _ (desk.commit _).state
  obtain ⟨m, hm, hs, hdesk⟩ := transition_eq_ok h
  rw [hstate, hdesk]
  exact .startMatch id m hm hs

theorem accepts_submit {s : Submission} (h : (desk.submit s).answer = .ok ()) :
    Accepts desk (.submit s) (desk.submit s).state := by
  obtain ⟨desk', h, hstate⟩ := exists_of_commit h
  change Accepts desk _ (desk.commit _).state
  rw [hstate]
  split at h
  · cases h
  rename_i m hm
  split_ifs at h with hs hd hw
  cases h
  exact .submit s m hm (by simpa using hs) (not_not.1 hd) (by simpa using hw)

theorem accepts_approve {effects : Effects} (h : (desk.approve id).answer = .ok effects) :
    Accepts desk (.approve id) (desk.approve id).state := by
  unfold Desk.approve at h ⊢
  split at h
  · cases h
  rename_i s hq
  obtain ⟨t, hr, hdesk⟩ := settle_eq_settled h
  exact hdesk ▸ .approve id s t effects hq hr

theorem accepts_reject {reason : String} (h : (desk.reject id reason).answer = .ok ()) :
    Accepts desk (.reject id reason) (desk.reject id reason).state := by
  obtain ⟨desk', h, hstate⟩ := exists_of_commit h
  change Accepts desk _ (desk.commit _).state
  rw [hstate]
  split at h
  · cases h
  rename_i s hq
  obtain ⟨desk₁, ht, rfl⟩ := map_eq_ok.1 h
  obtain ⟨m, hm, hs, rfl⟩ := transition_eq_ok ht
  exact .reject id reason s m hq hm hs

theorem accepts_record {o : Outcome} {effects : Effects}
    (h : (desk.record id o).answer = .ok effects) :
    Accepts desk (.record id o) (desk.record id o).state := by
  unfold Desk.record at h ⊢
  split at h
  · cases h
  rename_i m hm
  split_ifs at h ⊢ with hs
  · cases h
  obtain ⟨t, hr, hdesk⟩ := settle_eq_settled h
  exact hdesk ▸ .record id o m t effects hm hs hr

theorem accepts_of_ok {c : Call} (h : (desk.call c).answer = .ok ()) :
    Accepts desk c (desk.call c).state := by
  cases c with
  | register d => exact accepts_register h
  | remove d =>
    obtain ⟨freed, h, -⟩ := map_eq_ok.1 h
    exact accepts_remove h
  | assign id d => exact accepts_assign h
  | unassign id => exact accepts_unassign h
  | startMatch id => exact accepts_startMatch h
  | submit s => exact accepts_submit h
  | approve id =>
    obtain ⟨effects, h, -⟩ := map_eq_ok.1 h
    exact accepts_approve h
  | reject id reason => exact accepts_reject h
  | record id o =>
    obtain ⟨effects, h, -⟩ := map_eq_ok.1 h
    exact accepts_record h
  | drain => exact .drain

end Calls

/-! ## Runs -/

theorem returns_append {desk : Desk} {calls more : List Call} :
    Returns desk (calls ++ more) ↔ Returns desk calls ∧ Returns (desk.after calls) more := by
  induction calls generalizing desk with
  | nil => simp [Returns, after]
  | cons c calls ih =>
    rw [List.cons_append, Returns, Returns, ih, and_assoc]
    rfl

theorem after_append (desk : Desk) (calls more : List Call) :
    desk.after (calls ++ more) = (desk.after calls).after more :=
  List.foldl_append ..

/-- The calls of a run that have been accepted, in order. -/
def accepted (desk : Desk) : List Call → List Call
  | [] => []
  | c :: calls =>
    (if (desk.call c).answer.isOk then [c] else []) ++ (desk.call c).state.accepted calls

theorem accepted_cons_of_ok {desk : Desk} {c : Call} {calls : List Call}
    (h : (desk.call c).answer = .ok ()) :
    desk.accepted (c :: calls) = c :: (desk.call c).state.accepted calls := by
  rw [accepted, h]
  rfl

theorem accepted_cons_of_error {desk : Desk} {c : Call} {calls : List Call} {f : Fault}
    (h : (desk.call c).answer = .error f) :
    desk.accepted (c :: calls) = (desk.call c).state.accepted calls := by
  rw [accepted, h]
  rfl

theorem accepted_append {desk : Desk} {calls more : List Call} :
    desk.accepted (calls ++ more) = desk.accepted calls ++ (desk.after calls).accepted more := by
  induction calls generalizing desk with
  | nil => rfl
  | cons c calls ih =>
    rw [List.cons_append, accepted, accepted, ih, List.append_assoc]
    rfl

/-- An accepted call has met the desk that the calls before it have left. -/
theorem exists_of_accepted_eq {desk : Desk} {calls before after : List Call} {c : Call}
    (h : desk.accepted calls = before ++ c :: after) : ∃ first rest, calls = first ++ c :: rest ∧
      desk.accepted first = before ∧ ((desk.after first).call c).answer = .ok () := by
  induction calls generalizing desk before with
  | nil => simp [accepted] at h
  | cons c₀ calls ih =>
    rw [accepted] at h
    split_ifs at h with hok
    · rcases before with _ | ⟨b, before⟩
      · simp only [List.singleton_append, List.nil_append, List.cons.injEq] at h
        obtain ⟨rfl, -⟩ := h
        exact ⟨[], calls, rfl, rfl, isOk_iff.1 hok |>.choose_spec⟩
      · simp only [List.cons_append, List.cons.injEq] at h
        obtain ⟨rfl, h⟩ := h
        obtain ⟨first, rest, rfl, rfl, hc⟩ := ih h
        exact ⟨c₀ :: first, rest, rfl, by rw [accepted, if_pos hok]; rfl, hc⟩
    · obtain ⟨first, rest, rfl, rfl, hc⟩ := ih h
      exact ⟨c₀ :: first, rest, rfl, by rw [accepted, if_neg hok]; rfl, hc⟩

end Tourney.Desk
