import Tourney.Proofs.Arena.Cascade
import Tourney.Proofs.Desk.Frame
import Tourney.Proofs.Desk.Repair

/-!
# Matches that a desk cannot finish

A call changes the tournament in one of three ways: not at all, one match of its own choice, or by a
result (`touches`). So at a desk taken up from any tournament whatsoever a match with both its
players can be finished, by a result or by rejecting what waits for it first
(`exists_finish`). The one exception is a match that awaits approval and names no device. Nothing
waits for it, and it is not asked for again as no device has it: whatever is called for it is
refused (`Strands.refused`), and it is left as it is by all other calls, unless a grand final sends
its players there (`Strands.after`).
-/

namespace Tourney

open Arena

/-- The result of the match is awaited, from no device. -/
def Match.Stranded (m : Match) : Prop := m.status = .awaitingApproval ∧ m.device = none

/-! ## Results in any tournament -/

namespace Tournament

variable {t : Tournament}

/-- No round and no finals follow on the matches there are, and none of these is a grand final. -/
structure Plain (t : Tournament) : Prop where
  swiss : t.swiss = none
  groups : t.groups = none
  arena : ∀ m ∈ t.arena, m.isGrandFinal = false

/-- An advance adds matches and changes none. -/
theorem exists_arena_advance (t : Tournament) : ∃ new, t.advance.state.arena = t.arena ++ new := by
  rcases hp : t.pairNextRound with f | ⟨t₁, rounds⟩
  · simp only [advance, hp]
    exact ⟨[], (List.append_nil _).symm⟩
  obtain ⟨new, hnew⟩ : ∃ new, t₁.arena = t.arena ++ new := by
    rcases pairNextRound_cases hp with rfl | ⟨_, ms, _, rfl⟩
    · exact ⟨[], (List.append_nil _).symm⟩
    · exact ⟨ms, rfl⟩
  rcases hd : t₁.drawFinals with f | ⟨t₂, finals⟩
  · simp only [advance, hp, hd]
    exact ⟨new, hnew⟩
  obtain ⟨more, hmore⟩ : ∃ more, t₂.arena = t₁.arena ++ more := by
    rcases drawFinals_cases hd with rfl | ⟨_, _, ms, _, _, _, rfl⟩
    · exact ⟨[], (List.append_nil _).symm⟩
    · exact ⟨ms, rfl⟩
  rw [hnew, List.append_assoc] at hmore
  simp only [advance, hp, hd]
  split_ifs <;> exact ⟨_, hmore⟩

/-- However a result is answered, it has been entered in the arena, and matches have been added. -/
theorem exists_arena_record (t : Tournament) (id : MatchId) (o : Outcome) :
    ∃ new, (t.record id o).state.arena = (complete t.arena id o).state ++ new := by
  unfold record
  dsimp only
  split
  · exact ⟨[], (List.append_nil _).symm⟩
  split
  · exact ⟨[], (List.append_nil _).symm⟩
  rename_i t' htally
  obtain ⟨m, -, htally⟩ := bind_eq_ok.1 htally
  obtain ⟨new, hnew⟩ := exists_arena_advance t'
  exact ⟨new, by rw [hnew, tally_keeps_arena htally]⟩

theorem Plain.tally (h : Plain t) {t' : Tournament} {m : Match} (hok : t.tally m = .ok t') :
    ∃ table, t' = { t with table } := by
  unfold Tournament.tally at hok
  rw [h.swiss, h.groups] at hok
  split at hok
  · cases ‹none = some _›
  · obtain ⟨table, -, hok⟩ := bind_eq_ok.1 hok
    cases hok
    exact ⟨table, by simp [h.swiss, h.groups]⟩
  · cases ‹none = some _›
  · cases hok
    exact ⟨t.table, rfl⟩

theorem Plain.advance (h : Plain t) : Plain t.advance.state := by
  obtain ⟨t₁, status, hadv, rfl | ⟨plan, g, ms, next, -, hg, -⟩⟩ := advance_drawn h.swiss
  · rw [hadv]
    exact ⟨h.swiss, h.groups, h.arena⟩
  · rw [h.groups] at hg
    cases hg

theorem Plain.withArena (h : Plain t) {ms : List Match}
    (ho : ∀ m ∈ ms, ∃ a ∈ t.arena, m.outline = a.outline) : Plain { t with arena := ms } where
  swiss := h.swiss
  groups := h.groups
  arena m hm := by
    obtain ⟨a, ha, ho⟩ := ho m hm
    rw [Match.outline_isGrandFinal ho]
    exact h.arena a ha

theorem Plain.record (h : Plain t) (id : MatchId) (o : Outcome) : Plain (t.record id o).state := by
  have hentered : Plain { t with arena := (complete t.arena id o).state } :=
    h.withArena fun _ hm => mem_map_outline (outlines_of_outlasts (outlasts_complete id o)) hm
  unfold Tournament.record
  dsimp only
  split
  · exact hentered
  split
  · exact hentered
  rename_i t' htally
  obtain ⟨m, -, htally⟩ := bind_eq_ok.1 htally
  obtain ⟨table, rfl⟩ := hentered.tally htally
  exact Plain.advance ⟨h.swiss, h.groups, hentered.arena⟩

/-- No grand final, no reset. -/
theorem Plain.not_aimed (h : Plain t) (id : MatchId) : ¬Aimed t.arena id := by
  rintro ⟨g, hg, hgf, -⟩
  rw [h.arena g hg] at hgf
  cases hgf

end Tournament

namespace Desk

/-! ## What a call does -/

section Call

variable {desk : Desk} {c : Call} {id : MatchId}

/-- What a call may do to the tournament at a desk. -/
inductive Touches (desk : Desk) (c : Call) : Tournament → Prop
  | nothing : Touches desk c desk.tournament
  | moved (id : MatchId) (f : Match → Match) (hc : desk.target? c = some id)
      (hf : ∀ m, (f m).outline = m.outline) : Touches desk c (desk.setMatch id f).tournament
  | recorded (id : MatchId) (o : Outcome) (hc : desk.target? c = some id) :
      Touches desk c (desk.tournament.record id o).state

/-- A call that is refused changes nothing, or has entered a result. -/
theorem state_of_refused {f : Fault} (h : (desk.call c).answer = .error f) :
    (desk.call c).state = desk ∨ ∃ id o, desk.target? c = some id ∧
      (desk.call c).state = { desk with tournament := (desk.tournament.record id o).state } := by
  have hsettle {id : MatchId} {o : Outcome} {holder : Option DeviceId} {queue : Queue}
      (h : (desk.settle id o holder queue).answer = .error f) :
      (desk.settle id o holder queue).state =
        { desk with tournament := (desk.tournament.record id o).state } := by
    rcases hrec : desk.tournament.record id o with ⟨t', f' | effects⟩
    · simp only [Desk.settle, hrec]
      rfl
    · simp only [Desk.settle, hrec] at h
      cases h
  cases c with
  | register d => exact .inl (state_of_commit h)
  | remove d => exact .inl (state_of_ofExcept (map_eq_error.1 h))
  | assign id d => exact .inl (state_of_commit h)
  | unassign id => exact .inl (state_of_commit h)
  | startMatch id => exact .inl (state_of_commit h)
  | submit s => exact .inl (state_of_commit h)
  | reject id reason => exact .inl (state_of_commit h)
  | drain => cases h
  | approve id =>
    have h := map_eq_error.1 h
    rcases hq : desk.queue[id]? with _ | s <;> simp only [Desk.call, Desk.approve, hq] at h ⊢
    · exact .inl rfl
    · exact .inr ⟨id, s.outcome, rfl, hsettle h⟩
  | record id o =>
    have h := map_eq_error.1 h
    rcases hm : desk.match? id with _ | m <;> simp only [Desk.call, Desk.record, hm] at h ⊢
    · exact .inl rfl
    · split_ifs at h ⊢
      · exact .inl rfl
      · exact .inr ⟨id, o, rfl, hsettle h⟩

/-- The tournament after a call, whether it has been accepted or not. -/
theorem touches (desk : Desk) (c : Call) : Touches desk c (desk.call c).state.tournament := by
  rcases ha : (desk.call c).answer with f | ⟨⟩
  · rcases state_of_refused ha with h | ⟨id, o, hc, h⟩
    · rw [h]
      exact .nothing
    · rw [h]
      exact .recorded id o hc
  generalize hdesk : (desk.call c).state = desk'
  have hacc : Accepts desk c desk' := hdesk ▸ accepts_of_ok ha
  cases hacc with
  | reconnect | register | remove | drain => exact .nothing
  | abandon d device id m hd hh hm hs =>
    rw [released_tournament]
    exact .moved id _ (by simp [target?, deviceMatch?, hd, hh]) fun _ => rfl
  | assign id d => exact .moved id _ rfl fun _ => rfl
  | unassign id =>
    rw [released_tournament]
    exact .moved id _ rfl fun _ => rfl
  | startMatch id => exact .moved id _ rfl fun _ => rfl
  | submit s => exact .moved s.id _ rfl fun _ => rfl
  | reject id => exact .moved id _ rfl fun _ => rfl
  | approve id s t effects hq hr =>
    rw [settled_tournament, show t = (desk.tournament.record id s.outcome).state by rw [hr]; rfl]
    exact .recorded id _ rfl
  | record id o m t effects hm hs hr =>
    rw [settled_tournament, show t = (desk.tournament.record id o).state by rw [hr]; rfl]
    exact .recorded id _ rfl

theorem target?_of_queues? (h : c.queues? = some id) : desk.target? c = some id := by
  cases c <;> first | exact h | cases h

/-- What waits for a match is touched by the calls for it alone. -/
theorem queue_of_call (hc : desk.target? c ≠ some id) :
    (desk.call c).state.queue[id]? = desk.queue[id]? := by
  rcases ha : (desk.call c).answer with f | ⟨⟩
  · rcases state_of_refused ha with h | ⟨_, _, -, h⟩ <;> rw [h]
  · rw [(accepts_of_ok ha).queue_eq]
    exact enqueue_of_ne fun h => hc (target?_of_queues? h)

theorem exists_outline_of_call (desk : Desk) (c : Call) :
    ∀ g ∈ desk.tournament.arena, ∃ g' ∈ (desk.call c).state.tournament.arena,
      g.outline = g'.outline := by
  have ht := touches desk c
  generalize (desk.call c).state.tournament = t' at ht
  cases ht with
  | nothing => exact fun g hg => ⟨g, hg, rfl⟩
  | moved id f hc hf =>
    exact fun g hg => mem_map_outline (map_outline_modify fun m _ _ => hf m).symm hg
  | recorded id o hc =>
    obtain ⟨new, hnew⟩ := Tournament.exists_arena_record desk.tournament id o
    intro g hg
    obtain ⟨g', hg', ho⟩ := mem_map_outline (outlines_of_outlasts (outlasts_complete id o)).symm hg
    rw [hnew]
    exact ⟨g', List.mem_append_left _ hg', ho⟩

theorem plain_call (h : desk.tournament.Plain) (c : Call) :
    (desk.call c).state.tournament.Plain := by
  have ht := touches desk c
  generalize (desk.call c).state.tournament = t' at ht
  cases ht with
  | nothing => exact h
  | moved id f hc hf =>
    exact h.withArena fun m hm => mem_map_outline (map_outline_modify fun m _ _ => hf m) hm
  | recorded id o hc => exact h.record id o

end Call

/-! ## Stranded matches -/

/-- The match of an id is stranded: its result is awaited, and nothing waits. -/
structure Strands (desk : Desk) (id : MatchId) : Prop where
  awaits : ∃ m, desk.match? id = some m ∧ m.Stranded
  queue : desk.queue[id]? = none

section Strands

variable {desk : Desk} {id : MatchId}

/-- Whatever is called for a stranded match is refused. -/
theorem Strands.refused (h : Strands desk id) {c : Call} (hc : desk.target? c = some id) :
    ∃ f, desk.call c = .refused desk f := by
  obtain ⟨m, hm, hs, hd⟩ := h.awaits
  have hq := h.queue
  cases c with
  | register d => cases hc
  | drain => cases hc
  | remove d =>
    obtain ⟨device, hdevice, hh⟩ := Option.bind_eq_some_iff.1 hc
    refine ⟨.deviceBusy d id, ?_⟩
    simp [call, remove, hdevice, hh, hm, hs, Reply.ofExcept, Reply.refused, Except.map]
  | assign id' d =>
    obtain rfl := Option.some.inj hc
    rcases hdevice : desk.devices[d]? with _ | ⟨_ | busy, recovered⟩
    · refine ⟨.deviceNotFound d, ?_⟩
      simp [call, assign, hdevice, commit, Reply.ofExcept, Except.map]
    · refine ⟨.illegalTransition id' .awaitingApproval .assigned, ?_⟩
      simp [call, assign, hdevice, hm, hs, commit, Reply.ofExcept, Except.map]
    · refine ⟨.deviceBusy d busy, ?_⟩
      simp [call, assign, hdevice, commit, Reply.ofExcept, Except.map]
  | unassign id' =>
    obtain rfl := Option.some.inj hc
    refine ⟨.illegalTransition id' .awaitingApproval .pending, ?_⟩
    simp [call, unassign, release, hm, hs, commit, Reply.ofExcept, Except.map]
  | startMatch id' =>
    obtain rfl := Option.some.inj hc
    refine ⟨.illegalTransition id' .awaitingApproval .inProgress, ?_⟩
    simp [call, startMatch, transition, hm, hs, MatchStatus.canBecome, commit, Reply.ofExcept,
      Except.map]
  | submit s =>
    obtain rfl := Option.some.inj hc
    refine ⟨.deviceMismatch s.device s.id, ?_⟩
    simp [call, submit, hm, hs, hd, MatchStatus.canBecome, commit, Reply.ofExcept, Except.map]
  | approve id' =>
    obtain rfl := Option.some.inj hc
    refine ⟨.noPendingSubmission id', ?_⟩
    simp [call, approve, hq, Reply.refused, Except.map]
  | reject id' reason =>
    obtain rfl := Option.some.inj hc
    refine ⟨.noPendingSubmission id', ?_⟩
    simp [call, reject, hq, commit, Reply.ofExcept, Except.map]
  | record id' o =>
    obtain rfl := Option.some.inj hc
    refine ⟨.illegalTransition id' .awaitingApproval .complete, ?_⟩
    simp [call, record, hm, hs, Reply.refused, Except.map]

/-- Calls for other matches leave a stranded match where it is, unless a grand final leads there. -/
theorem Strands.call (h : Strands desk id) (c : Call)
    (ha : ¬Aimed desk.tournament.arena id) : Strands (desk.call c).state id := by
  by_cases hc : desk.target? c = some id
  · obtain ⟨f, hf⟩ := h.refused hc
    rw [hf]
    exact h
  refine ⟨?_, (queue_of_call hc).trans h.queue⟩
  obtain ⟨m, hm, hs, hd⟩ := h.awaits
  have hfind : find? desk.tournament.arena id = some m := hm
  have ht := touches desk c
  unfold Desk.match? Tournament.match?
  generalize (desk.call c).state.tournament = t' at ht ⊢
  cases ht with
  | nothing => exact ⟨m, hfind, hs, hd⟩
  | moved id' f hc' hf =>
    have hne : id' ≠ id := fun heq => hc (heq ▸ hc')
    exact ⟨m, (find?_modify_ne (fun m => Match.outline_id (hf m)) hne _).trans hfind, hs, hd⟩
  | recorded id' o hc' =>
    have hne : id' ≠ id := fun heq => hc (heq ▸ hc')
    obtain ⟨m', hm', hs', hd'⟩ := exists_held hne hfind (by rw [hs]; rfl) ha o
    obtain ⟨new, hnew⟩ := Tournament.exists_arena_record desk.tournament id' o
    rw [hnew]
    refine ⟨m', ?_, hs'.trans hs, hd'.trans hd⟩
    rw [find?, List.find?_append, ← find?, hm', Option.some_or]

/-- However a desk goes on, a stranded match is still stranded, unless a grand final leads there. -/
theorem Strands.after (h : Strands desk id) (calls : List Call) :
    Strands (desk.after calls) id ∨ Aimed (desk.after calls).tournament.arena id := by
  induction calls using List.reverseRecOn with
  | nil => exact .inl h
  | append_singleton calls c ih =>
    rw [after_append]
    by_cases ha : Aimed (desk.after calls).tournament.arena id
    · exact .inr (ha.mono (exists_outline_of_call _ c))
    · exact .inl ((ih.resolve_right ha).call c ha)

theorem plain_after (h : desk.tournament.Plain) (calls : List Call) :
    (desk.after calls).tournament.Plain := by
  induction calls generalizing desk with
  | nil => exact h
  | cons c calls ih => exact ih (plain_call h c)

end Strands

/-! ## Finishing a match -/

section Finish

variable {desk : Desk} {id : MatchId} {m : Match}

theorem tournament_settle (desk : Desk) (id : MatchId) (o : Outcome) (holder : Option DeviceId)
    (queue : Queue) : (desk.settle id o holder queue).state.tournament =
      (desk.tournament.record id o).state := by
  rcases hrec : desk.tournament.record id o with ⟨t', f | effects⟩ <;>
    simp only [settle, hrec, Reply.done, Reply.refused]
  rw [freeHolder_eq]

/-- A result entered by hand stands, whatever its answer. -/
theorem exists_complete_of_record (hm : desk.match? id = some m) (ha : m.status ≠ .awaitingApproval)
    {o : Outcome} (ho : checkOutcome m o = .ok ()) :
    ∃ m', (desk.after [.record id o]).match? id = some m' ∧ m'.status = .complete := by
  have htournament : (desk.after [.record id o]).tournament =
      (desk.tournament.record id o).state := by
    simp only [after, List.foldl_cons, List.foldl_nil, Desk.call, Desk.record, hm, ha, if_false]
    exact tournament_settle ..
  obtain ⟨m', hm', hs⟩ := exists_complete (show find? desk.tournament.arena id = some m from hm) ho
  obtain ⟨new, hnew⟩ := Tournament.exists_arena_record desk.tournament id o
  refine ⟨m', ?_, hs⟩
  rw [Desk.match?, Tournament.match?, htournament, hnew, find?, List.find?_append, ← find?, hm',
    Option.some_or]

/-- A submission that is rejected leaves its match with the device. -/
theorem exists_call_reject (hm : desk.match? id = some m) (ha : m.status = .awaitingApproval)
    (hq : id ∈ desk.queue) (reason : String) : ∃ desk',
      desk.call (.reject id reason) = .done desk' () ∧
        desk'.match? id = some { m with status := .assigned } := by
  obtain ⟨s, hs⟩ := Option.isSome_iff_exists.1 (Std.ExtTreeMap.mem_iff_isSome_getElem?.1 hq)
  refine ⟨{ desk.setMatch id fun m => { m with status := .assigned } with
    queue := desk.queue.erase id
    events := desk.events ++ [.submissionRejected id s.device reason] }, ?_, ?_⟩
  · simp [Desk.call, Desk.reject, hs, transition, hm, ha, MatchStatus.canBecome, commit,
      Reply.ofExcept, Except.map, setMatch]
  · have hfind : find? desk.tournament.arena id = some m := hm
    refine (find?_modify_self (f := fun m => { m with status := .assigned }) ?_ _).trans ?_
    · exact fun _ => rfl
    · rw [hfind]
      rfl

/-- A match with both its players is finished by a result, once what waits for it is rejected. -/
theorem exists_finish (hm : desk.match? id = some m) (hready : m.isReady)
    (ho : m.status.isResolved = false) (hq : m.status = .awaitingApproval → id ∈ desk.queue) :
    ∃ calls o, Returns desk calls ∧ ∃ m',
      (desk.after (calls ++ [.record id o])).match? id = some m' ∧ m'.status = .complete := by
  obtain ⟨w, hw⟩ : ∃ w, m.player1 = some w := by
    unfold Match.isReady at hready
    exact Option.isSome_iff_exists.1 (Bool.and_eq_true_iff.1 hready).1
  have hplayer : m.hasPlayer w := by simp [Match.hasPlayer, hw]
  by_cases ha : m.status = .awaitingApproval
  · obtain ⟨desk', hreject, hm'⟩ := exists_call_reject hm ha (hq ha) ""
    refine ⟨[.reject id ""], ⟨w, {}⟩, ⟨by rw [hreject]; rintro ⟨⟩, trivial⟩, ?_⟩
    rw [after_append, show desk.after [.reject id ""] = (desk.call (.reject id "")).state from rfl,
      hreject]
    exact exists_complete_of_record hm' (by simp)
      (checkOutcome_eq_ok_iff.2 ⟨rfl, hready, hplayer⟩)
  · exact ⟨[], ⟨w, {}⟩, trivial, exists_complete_of_record hm ha
      (checkOutcome_eq_ok_iff.2 ⟨ho, hready, hplayer⟩)⟩

end Finish

/-! ## Taking up a desk -/

/-- What can be done about a match at a desk. -/
structure Handled (desk : Desk) (m : Match) : Prop where
  /-- The result of the match waits if and only if it is awaited from a device. -/
  awaited : m.status = .awaitingApproval → (m.id ∈ desk.queue ↔ m.device.isSome)
  /-- A match with both its players can be finished, by a result in the end. -/
  finish : m.isReady → m.status.isResolved = false → ¬m.Stranded →
    ∃ calls o, Returns desk calls ∧ ∃ m',
      (desk.after (calls ++ [.record m.id o])).match? m.id = some m' ∧ m'.status = .complete
  /-- Nothing can be called for a stranded match. -/
  refused : m.Stranded → ∀ c, desk.target? c = some m.id → ∃ f, desk.call c = .refused desk f
  /-- No other calls help it either, unless a grand final leads there. -/
  lost : m.Stranded → ∀ calls, Aimed (desk.after calls).tournament.arena m.id ∨
    ∃ m', (desk.after calls).match? m.id = some m' ∧ m'.Stranded

section Restore

/-- A desk strands the matches that have been stranded before, and no others. -/
theorem stranded_takenOver_iff {queue : Queue} {ms : List Match} {m : Match} :
    (takenOver ∅ queue ms m).Stranded ↔ m.Stranded := by
  have hresumes : Resumes ms m (takenOver ∅ queue ms m) := resumes_takenOver
  rcases hh : holder? m with _ | d
  · rw [hresumes.unclaimed hh]
  have hd : m.device = some d := (holder?_eq_some_iff.1 hh).2
  refine iff_of_false (fun hs => ?_) fun hs => by rw [hs.2] at hd; cases hd
  by_cases hk : ms.find? (holder? · = some d) = some m
  · have hkept := (hresumes.kept d hk).1
    rw [hs.2] at hkept
    cases hkept
  · have hreturned := (hresumes.returned d hh hk).1
    rw [hs.1] at hreturned
    cases hreturned

variable {t : Tournament} {registered : List DeviceId} {left : List Submission}
  (hnd : (t.arena.map (·.id)).Nodup)

include hnd

theorem nodup_restore : ((restore t registered left).tournament.arena.map (·.id)).Nodup := by
  rw [arena_restore hnd, List.map_map,
    List.map_congr_left (g := (·.id)) fun m _ => id_takenOver]
  exact hnd

theorem match?_restore {m : Match} (hm : m ∈ t.arena) : (restore t registered left).match? m.id =
    some (takenOver ∅ (standing t left) t.arena m) := by
  have hmem : takenOver ∅ (standing t left) t.arena m ∈
      (restore t registered left).tournament.arena := by
    rw [arena_restore hnd]
    exact List.mem_map_of_mem hm
  obtain ⟨a, ha⟩ := exists_find? hmem id_takenOver
  obtain ⟨hmem', hid⟩ := mem_of_find? ha
  rw [← List.inj_on_of_nodup_map (nodup_restore hnd) hmem' hmem (hid.trans id_takenOver.symm)]
  exact ha

end Restore

/-- Whatever a desk is taken up from, a match is stranded at it if and only if it awaited approval
before and named no device; any other match with both its players can be finished. -/
theorem handled_restore {t : Tournament} (hnd : (t.arena.map (·.id)).Nodup)
    (registered : List DeviceId) (left : List Submission) {m : Match} (hm : m ∈ t.arena) :
    ∃ m', (restore t registered left).match? m.id = some m' ∧ m'.id = m.id ∧
      (m'.Stranded ↔ m.Stranded) ∧ Handled (restore t registered left) m' := by
  have hfind : (restore t registered left).match? m.id = _ := match?_restore hnd hm
  refine ⟨_, hfind, id_takenOver, stranded_takenOver_iff, ?_⟩
  have hrepaired := repaired_restore hnd registered left
  have hmem := (mem_of_find? hfind).1
  rw [← show (takenOver ∅ (standing t left) t.arena m).id = m.id from id_takenOver] at hfind
  generalize takenOver ∅ (standing t left) t.arena m = m' at hfind hmem
  have hawaited (hs : m'.status = .awaitingApproval) :
      m'.id ∈ (restore t registered left).queue ↔ m'.device.isSome := by
    refine ⟨fun hq => ?_, hrepaired.reported m' hmem hs⟩
    obtain ⟨s, hq⟩ := Option.isSome_iff_exists.1 (Std.ExtTreeMap.mem_iff_isSome_getElem?.1 hq)
    obtain ⟨-, -, a, ha, hid, -, hd⟩ := hrepaired.queued m'.id s hq
    rw [← List.inj_on_of_nodup_map (nodup_restore hnd) ha hmem hid, hd]
    rfl
  have hstrands (hs : m'.Stranded) : Strands (restore t registered left) m'.id := by
    refine ⟨⟨m', hfind, hs⟩, Std.ExtTreeMap.getElem?_eq_none fun hq => ?_⟩
    have hd := (hawaited hs.1).1 hq
    rw [hs.2] at hd
    cases hd
  constructor
  case awaited => exact hawaited
  case finish =>
    refine fun hready ho hs => exists_finish hfind hready ho fun ha => (hawaited ha).2 ?_
    exact Option.isSome_iff_ne_none.2 fun hd => hs ⟨ha, hd⟩
  case refused => exact fun hs c hc => (hstrands hs).refused hc
  case lost => exact fun hs calls => ((hstrands hs).after calls).symm.imp_right Strands.awaits

/-- A match whose result is awaited though no device has it. -/
def courtless : Match :=
  { Match.seated ⟨1⟩ 1 0 .main (some "A") (some "B") with status := .awaitingApproval }

/-- A cup of that match and of another that a device holds. -/
def lostCup : Tournament :=
  { onCourt with
    arena := [courtless,
      { Match.seated ⟨2⟩ 1 1 .main (some "C") (some "D") with
        status := .awaitingApproval
        device := some "hall" }] }

theorem handled_restore_lostCup : (lostCup.arena.map (·.id)).Nodup ∧ courtless ∈ lostCup.arena ∧
    ∃ m', (restore lostCup ["hall"] []).match? ⟨1⟩ = some m' ∧ m'.Stranded ∧
      Handled (restore lostCup ["hall"] []) m' := by
  have hnd : (lostCup.arena.map (·.id)).Nodup := by decide
  have hm : courtless ∈ lostCup.arena := by decide
  obtain ⟨m', hfind, -, hs, hh⟩ := handled_restore hnd ["hall"] [] hm
  exact ⟨hnd, hm, m', hfind, hs.2 ⟨rfl, rfl⟩, hh⟩

theorem match?_lostCup : (ofTournament lostCup).match? ⟨1⟩ = some courtless := by
  have hfind : (ofTournament lostCup).match? courtless.id = _ :=
    match?_restore (by decide) (by decide)
  rwa [takenOver_of_none rfl] at hfind

theorem strands_lostCup : Strands (ofTournament lostCup) ⟨1⟩ :=
  ⟨⟨courtless, match?_lostCup, rfl, rfl⟩, by decide⟩

/-- Two players wait for a result that nobody has reported, and however the desk goes on their match
is never complete. -/
theorem never_complete_lostCup : (lostCup.arena.map (·.id)).Nodup ∧
    (∃ m, (ofTournament lostCup).match? ⟨1⟩ = some m ∧ m.isReady ∧
      m.status = .awaitingApproval ∧ ⟨1⟩ ∉ (ofTournament lostCup).queue) ∧
    ∀ calls, ∃ m, ((ofTournament lostCup).after calls).match? ⟨1⟩ = some m ∧
      m.status = .awaitingApproval := by
  refine ⟨by decide, ⟨courtless, match?_lostCup, rfl, rfl, ?_⟩, fun calls => ?_⟩
  · rw [Std.ExtTreeMap.mem_iff_isSome_getElem?, strands_lostCup.queue]
    exact nofun
  · have hplain : (ofTournament lostCup).tournament.Plain := ⟨rfl, rfl, by decide⟩
    obtain ⟨m, hm, hs⟩ := ((strands_lostCup.after calls).resolve_right
      ((plain_after hplain calls).not_aimed _)).awaits
    exact ⟨m, hm, hs.1⟩

end Desk

end Tourney
