import Tourney.Proofs.Desk.Accepted
import Tourney.Proofs.Tournament.Create

/-!
# A balanced desk in use

Every call that is accepted leaves a balanced desk balanced (`Balanced.accepts`): devices come and
go, a match that is handed out or taken back changes its device, one that is started, submitted or
rejected stays with it (`Balanced.stay`), and a result frees it (`Balanced.settled`). A call that is
refused changes nothing (`Balanced.call_refused`).
-/

namespace Tourney.Desk

open Arena

section Accepted

variable {format : Format} {desk : Desk} (h : Balanced format desk)

include h

/-- A device that holds no match can come and go. -/
theorem Balanced.erase {d : DeviceId} (hd : holding desk.devices d = none) :
    Balanced format { desk with devices := desk.devices.erase d } := by
  refine h.withDevices fun d' => ?_
  rw [holding_erase]
  split_ifs with hdd
  · rw [← hdd, hd]
  · rfl

theorem Balanced.insert {d : DeviceId} {device : Device}
    (hd : holding desk.devices d = device.holding) :
    Balanced format { desk with devices := desk.devices.insert d device } := by
  refine h.withDevices fun d' => ?_
  rw [holding_insert]
  split_ifs with hdd
  · rw [← hdd, hd]
  · rfl

/-- The device of a match that is taken back is free again. -/
theorem Balanced.released {id : MatchId} {m : Match} (hm : desk.match? id = some m)
    (hs : m.status = .assigned ∨ m.status = .inProgress) :
    Balanced format (desk.released id m.device) ∧ ∀ d, holding desk.devices d = some id →
      holding (desk.released id m.device).devices d = none := by
  obtain ⟨hmem, rfl⟩ := mem_of_find? hm
  have hheld : m.status.isHeld := by rcases hs with hs | hs <;> rw [hs] <;> rfl
  have ho : m.status.isResolved = false := by rcases hs with hs | hs <;> rw [hs] <;> rfl
  have ht := h.tallies m hmem
  unfold Desk.released
  refine ⟨?_, fun d hd => by rw [holding_freeHolder, if_pos ⟨(ht.holds d).1 hd, hd⟩]⟩
  rw [freeHolder_eq]
  refine h.move hmem (h.ready hmem hheld) ho (s := .pending) (d := none) rfl rfl ?_
    (fun d id hne => holding_freeHolder_of_ne hne _ _) fun _ _ => rfl
  refine tallies_free ⟨rfl, rfl⟩ (Tallies.not_holding (desk.setMatch m.id _) ht) fun hq => ?_
  have hawaits := ht.mem_queue_iff.1 hq
  rcases hs with hs | hs <;> rw [hawaits] at hs <;> cases hs

theorem Balanced.assigned {id : MatchId} {m : Match} {d : DeviceId} {device : Device}
    {events : List Event} (hd : desk.devices[d]? = some device) (hh : device.holding = none)
    (hm : desk.match? id = some m) (hs : m.status = .pending) (hready : m.isReady) :
    Balanced format { desk.setMatch id fun m => { m with status := .assigned, device := some d } with
      devices := desk.devices.insert d { device with holding := some id }, events } := by
  obtain ⟨hmem, rfl⟩ := mem_of_find? hm
  have hnone : holding desk.devices d = none := by simp [holding, hd, hh]
  have ht := h.tallies m hmem
  have hfree := ht.free (by rw [hs]; rfl)
  refine h.move hmem hready (by rw [hs]; rfl) (s := .assigned)
    (d := some d) rfl rfl ⟨rfl, fun d' => ?_, ?_⟩ (fun d' id hne => ?_) fun _ _ => rfl
  · rw [holding_insert]
    change _ ↔ some d = some d'
    split_ifs with hdd
    · simp [hdd, Match.move]
    · have hd' := ht.holds d'
      rw [hfree.1] at hd'
      change holding desk.devices d' = some m.id ↔ _
      simp [hd', hdd]
  · refine queued_of_notMem (fun hq => ?_) (by simp [Match.move])
    rw [ht.mem_queue_iff.1 hq] at hs
    cases hs
  · rw [holding_insert]
    split_ifs with hdd
    · rw [← hdd, hnone]
      simp [Ne.symm hne]
    · rfl

/-- A match moves on and stays with its device. -/
theorem Balanced.stay {id : MatchId} {m : Match} (hm : desk.match? id = some m)
    (hheld : m.status.isHeld) {f : Match → Match} {s : MatchStatus} (hf : f m = m.move s m.device)
    (hs : s.isHeld) {queue : Queue} {events : List Event} (hself : Queued (f m) queue[id]?)
    (hqueue : ∀ id', id' ≠ id → queue[id']? = desk.queue[id']?) :
    Balanced format { desk.setMatch id f with queue, events } := by
  obtain ⟨hmem, rfl⟩ := mem_of_find? hm
  have ht := h.tallies m hmem
  rw [hf] at hself
  refine h.move hmem (h.ready hmem hheld) ?_ hf ?_ ⟨?_, ht.holds, hself⟩ (fun _ _ _ => .rfl) hqueue
  · cases hst : m.status <;> rw [hst] at hheld <;> first | rfl | cases hheld
  · cases s <;> first | rfl | cases hs
  · change m.device.isSome = s.isHeld
    rw [ht.device, hheld, hs]

/-- A result that counts frees the device of its match and takes the match off the queue; whatever
it sets in motion concerns no device. -/
theorem Balanced.settled {id : MatchId} {m : Match} (hm : desk.match? id = some m) {o : Outcome}
    {queue : Queue} (hq : id ∉ queue) (hqueue : ∀ id', id' ≠ id → queue[id']? = desk.queue[id']?)
    {t : Tournament} {effects : Effects} (hrec : desk.tournament.record id o = .done t effects) :
    Balanced format (desk.settled id o m.device queue t effects) := by
  cases h.running.recorded id o with
  | refused f hf hr hno => exact absurd (hrec.symm.trans hr) nofun
  | overflows m hm ho hwhy hr =>
    rw [hrec] at hr
    cases hr
  | done m' ms t' effects hm' ho hok hms hr hrun he =>
    obtain rfl : m = m' := Option.some.inj (hm.symm.trans hm')
    obtain rfl : t = t' := congrArg Reply.state (hrec.symm.trans hr)
    obtain ⟨hmem, rfl⟩ := mem_of_find? hm
    have hkept : ∀ id, (∃ a ∈ desk.tournament.arena, a.id = id) → ∃ b ∈ t.arena, b.id = id := by
      rintro id ⟨a, ha, rfl⟩
      exact h.running.kept_of_done hmem hms he ho ha
    have hother : ∀ d id, id ≠ m.id → (holding (({ desk with tournament := t, queue } :
        Desk).freeHolder m.device m.id).devices d = some id ↔ holding desk.devices d = some id) :=
      fun d id hid => holding_freeHolder_of_ne hid _ _
    have hself : ∀ d, holding (({ desk with tournament := t, queue } :
        Desk).freeHolder m.device m.id).devices d ≠ some m.id :=
      Tallies.not_holding { desk with tournament := t, queue } (h.tallies m hmem)
    rw [Desk.settled, freeHolder_eq]
    refine ⟨hrun, he.format.trans h.format, fun b hb => ?_, fun d id hid => hkept id ?_,
      fun id hid => hkept id ?_⟩
    · rcases h.running.cases_of_done hmem hms he ho hrun hb with
        rfl | ⟨a, ha, hid, hf⟩ | ⟨hfree, hfresh⟩
      · exact tallies_free ⟨rfl, rfl⟩ hself hq
      · have ht := h.tallies a ha
        by_cases hheld : a.status.isHeld
        · obtain rfl := hf.fixed (.inl fun hp => by rw [hp] at hheld; cases hheld)
          exact ht.congr (fun d => hother d _ hid) (hqueue _ hid)
        · have hheld : a.status.isHeld = false := by simpa using hheld
          refine tallies_free ((ht.free hheld).follows hf) (fun d hd => ?_) fun hmem => ?_
          · rw [Match.outline_id hf.outline, hother d _ hid, ht.holds, (ht.free hheld).1] at hd
            cases hd
          · rw [Match.outline_id hf.outline] at hmem
            rw [ht.mem_queue_iff.1 ((mem_queue_congr (hqueue _ hid)).1 hmem)] at hheld
            cases hheld
      · -- a generated match has an id of its own, so nobody can have it
        have hid : b.id ≠ m.id := fun hc => hfresh m hmem hc.symm
        refine tallies_free hfree (fun d hd => ?_) fun hmem => ?_
        · obtain ⟨a, ha, hab⟩ := h.devices d _ ((hother d _ hid).1 hd)
          exact hfresh a ha hab
        · obtain ⟨a, ha, hab⟩ := h.queue _ ((mem_queue_congr (hqueue _ hid)).1 hmem)
          exact hfresh a ha hab
    · have hne : id ≠ m.id := fun hc => hself d (hc ▸ hid)
      exact h.devices d id ((hother d id hne).1 hid)
    · have hne : id ≠ m.id := fun hc => hq (hc ▸ hid)
      exact h.queue id ((mem_queue_congr (hqueue id hne)).1 hid)

/-- An accepted call leaves the entries right. -/
theorem Balanced.accepts {desk' : Desk} {c : Call} (ha : Accepts desk c desk') :
    Balanced format desk' := by
  cases ha with
  | reconnect d device hd hr => exact h.insert (by simp [holding, hd])
  | register d hd => exact h.insert (by simp [holding, hd])
  | remove d device hd hh => exact h.erase (by simp [holding, hd, hh])
  | abandon d device id m hd hh hm hs =>
    obtain ⟨h', hfree⟩ := h.released hm hs
    exact h'.erase (hfree d (by simp [holding, hd, hh]))
  | assign id d device m p1 p2 hd hh hm hs h1 h2 =>
    exact h.assigned hd hh hm hs (by simp [Match.isReady, h1, h2])
  | unassign id m hm hs => exact (h.released hm hs).1
  | startMatch id m hm hs =>
    have hassigned : m.status = .assigned := by
      cases hst : m.status <;> simp_all [MatchStatus.canBecome]
    refine h.stay hm (by rw [hassigned]; rfl) (s := .inProgress) rfl rfl ?_ fun _ _ => rfl
    obtain ⟨hmem, rfl⟩ := mem_of_find? hm
    refine queued_of_notMem (fun hq => ?_) (by simp)
    rw [(h.tallies m hmem).mem_queue_iff.1 hq] at hassigned
    cases hassigned
  | submit s m hm hs hd hw =>
    have hheld : m.status.isHeld := by
      cases hst : m.status <;> simp_all [MatchStatus.canBecome, MatchStatus.isHeld]
    refine h.stay hm hheld (s := .awaitingApproval) rfl rfl ?_ fun _ => queue_insert_of_ne
    rw [Std.ExtTreeMap.getElem?_insert_self]
    exact ⟨rfl, hd, hw⟩
  | approve id s t effects hq hr =>
    obtain ⟨m, hm, rfl⟩ := h.queue id (Std.ExtTreeMap.mem_iff_isSome_getElem?.2 (by rw [hq]; rfl))
    have hqueued := (h.tallies m hm).queued
    rw [hq] at hqueued
    rw [← hqueued.2.1]
    exact h.settled (h.ordered.find? hm) (by simp) (fun _ => queue_erase_of_ne) hr
  | reject id reason s m hq hm hs =>
    have hqueued := (h.tallies m (mem_of_find? hm).1).queued
    rw [(mem_of_find? hm).2, hq] at hqueued
    refine h.stay hm (by rw [hqueued.1]; rfl) (s := .assigned) rfl rfl ?_
      fun _ => queue_erase_of_ne
    rw [Std.ExtTreeMap.getElem?_erase_self]
    simp [Queued]
  | record id o m t effects hm hs hr =>
    refine h.settled hm (fun hid => hs ?_) (fun _ _ => rfl) hr
    obtain ⟨hmem, rfl⟩ := mem_of_find? hm
    exact (h.tallies m hmem).mem_queue_iff.1 hid
  | drain => exact h.withDevices fun _ => rfl

end Accepted

/-! ## Refused calls -/

theorem state_of_commit {desk : Desk} {r : Except Fault Desk} {f : Fault}
    (h : (desk.commit r).answer = .error f) : (desk.commit r).state = desk := by
  cases r with
  | error f' => rfl
  | ok desk' => cases h

theorem state_of_ofExcept {σ α : Type} {s : σ} {r : Except Fault (σ × α)} {f : Fault}
    (h : (Reply.ofExcept s r).answer = .error f) : (Reply.ofExcept s r).state = s := by
  cases r with
  | error f' => rfl
  | ok a => cases h

section Refused

variable {format : Format} {desk : Desk} (h : Balanced format desk) {id : MatchId} {f : Fault}
  (hf : f ≠ .outOfRange)

include h hf

/-- A result that is refused leaves the desk as it was. -/
theorem Balanced.settle_refused {o : Outcome} {holder : Option DeviceId} {queue : Queue}
    (hr : (desk.settle id o holder queue).answer = .error f) :
    (∀ m, desk.match? id = some m → checkOutcome m o ≠ .ok ()) ∧
      (desk.settle id o holder queue).state = desk := by
  rcases hrec : desk.tournament.record id o with ⟨t', f' | effects⟩
  · simp only [Desk.settle, hrec] at hr
    obtain rfl := Except.error.inj hr
    have hr : (desk.tournament.record id o).answer = .error f' := by rw [hrec]
    obtain ⟨hno, hstate⟩ := h.running.refused_of_error hf hr
    refine ⟨hno, ?_⟩
    rw [hrec] at hstate
    simp only [Desk.settle, hrec, hstate]
    rfl
  · simp only [Desk.settle, hrec] at hr
    cases hr

/-- A result that waits in the queue is not refused. -/
theorem Balanced.approve_refused (hr : (desk.approve id).answer = .error f) :
    desk.queue[id]? = none := by
  unfold Desk.approve at hr
  split at hr
  · assumption
  rename_i s hsub
  have hid : id ∈ desk.queue := by
    rw [Std.ExtTreeMap.mem_iff_isSome_getElem?, hsub]
    rfl
  obtain ⟨m, hm, rfl⟩ := h.queue id hid
  have hq := (h.tallies m hm).queued
  rw [hsub] at hq
  obtain ⟨hawaits, -, hwinner⟩ := hq
  have hready := h.ready hm (by rw [hawaits]; rfl)
  have hno := (h.settle_refused hf hr).1 m (h.ordered.find? hm)
  exact absurd (checkOutcome_eq_ok_iff.2 ⟨by rw [hawaits]; rfl, hready, hwinner⟩) hno

theorem Balanced.call_refused {c : Call} (hr : (desk.call c).answer = .error f) :
    (desk.call c).state = desk := by
  cases c with
  | register d => exact state_of_commit hr
  | remove d => exact state_of_ofExcept (map_eq_error.1 hr)
  | assign id d => exact state_of_commit hr
  | unassign id => exact state_of_commit hr
  | startMatch id => exact state_of_commit hr
  | submit s => exact state_of_commit hr
  | reject id reason => exact state_of_commit hr
  | drain => cases hr
  | approve id =>
    have hr := map_eq_error.1 hr
    have hnone := h.approve_refused hf hr
    simp only [Desk.call, Desk.approve, hnone]
    rfl
  | record id o =>
    have hr := map_eq_error.1 hr
    change (desk.record id o).state = desk
    unfold Desk.record at hr ⊢
    split at hr
    · rfl
    · split_ifs at hr ⊢
      · rfl
      · exact (h.settle_refused hf hr).2

end Refused

section Calls

variable {format : Format} {desk : Desk} (h : Balanced format desk) {c : Call}
  (hne : (desk.call c).answer ≠ .error .outOfRange)

include h hne

/-- A call is accepted or changes nothing. -/
theorem Balanced.call_cases :
    (desk.call c).answer = .ok () ∧ Accepts desk c (desk.call c).state ∨
      ∃ f, (desk.call c).answer = .error f ∧ (desk.call c).state = desk := by
  rcases ha : (desk.call c).answer with f | ⟨⟩
  · exact .inr ⟨f, rfl, h.call_refused (fun hf => hne (hf ▸ ha)) ha⟩
  · exact .inl ⟨rfl, accepts_of_ok ha⟩

theorem Balanced.call : Balanced format (desk.call c).state := by
  rcases h.call_cases hne with ⟨-, ha⟩ | ⟨f, -, hstate⟩
  · exact h.accepts ha
  · rwa [hstate]

end Calls

theorem Balanced.after {format : Format} {desk : Desk} (h : Balanced format desk)
    {calls : List Call} (hr : Returns desk calls) : Balanced format (desk.after calls) := by
  induction calls generalizing desk with
  | nil => exact h
  | cons c calls ih => exact ih (h.call hr.1) hr.2

end Tourney.Desk
