import Tourney.Desk.Basic
import Tourney.Proofs.Tournament.Record

/-!
# The books of a desk

Who scores which match stands in three places: with the match, with the device, and in the queue of
submissions. The three agree on a balanced desk. Handing a match on keeps the balance as long as
the entries of that one match are kept right (`Balanced.move`).
-/

namespace Tourney.Desk

open Arena

/-- The match a device holds. -/
def holding (devices : Devices) (d : DeviceId) : Option MatchId := devices[d]?.bind Device.holding

/-- What the queue is to say of a match. -/
def Queued (m : Match) : Option Submission → Prop
  | none => m.status ≠ .awaitingApproval
  | some s => m.status = .awaitingApproval ∧ m.device = some s.device ∧ m.hasPlayer s.outcome.winner

/-- The entries of a match agree. -/
structure Tallies (devices : Devices) (queue : Queue) (m : Match) : Prop where
  device : m.device.isSome = m.status.isHeld
  holds : ∀ d, holding devices d = some m.id ↔ m.device = some d
  queued : Queued m queue[m.id]?

structure Balanced (format : Format) (desk : Desk) : Prop where
  running : desk.tournament.Running
  format : desk.tournament.format = format
  tallies : ∀ m ∈ desk.tournament.arena, Tallies desk.devices desk.queue m
  devices : ∀ d id, holding desk.devices d = some id → ∃ m ∈ desk.tournament.arena, m.id = id
  queue : ∀ id ∈ desk.queue, ∃ m ∈ desk.tournament.arena, m.id = id

section Lookups

variable {devices : Devices} {queue : Queue} {d d' : DeviceId} {id : MatchId}

theorem holding_insert {device : Device} :
    holding (devices.insert d device) d' =
      if d = d' then device.holding else holding devices d' := by
  simp only [holding, Std.ExtTreeMap.getElem?_insert, Std.LawfulEqCmp.compare_eq_iff_eq]
  split_ifs <;> rfl

theorem holding_erase :
    holding (devices.erase d) d' = if d = d' then none else holding devices d' := by
  simp only [holding, Std.ExtTreeMap.getElem?_erase, Std.LawfulEqCmp.compare_eq_iff_eq]
  split_ifs <;> rfl

theorem queue_insert_of_ne {id' : MatchId} {s : Submission} (h : id' ≠ id) :
    (queue.insert id s)[id']? = queue[id']? := by
  rw [Std.ExtTreeMap.getElem?_insert, if_neg]
  rw [Std.LawfulEqCmp.compare_eq_iff_eq]
  exact h.symm

theorem queue_erase_of_ne {id' : MatchId} (h : id' ≠ id) :
    (queue.erase id)[id']? = queue[id']? := by
  rw [Std.ExtTreeMap.getElem?_erase, if_neg]
  rw [Std.LawfulEqCmp.compare_eq_iff_eq]
  exact h.symm

theorem mem_queue_congr {queue' : Queue} (h : queue'[id]? = queue[id]?) :
    id ∈ queue' ↔ id ∈ queue := by
  rw [Std.ExtTreeMap.mem_iff_isSome_getElem?, Std.ExtTreeMap.mem_iff_isSome_getElem?, h]

theorem queued_of_notMem {m : Match} (hq : id ∉ queue) (hs : m.status ≠ .awaitingApproval) :
    Queued m queue[id]? := by
  rw [Std.ExtTreeMap.getElem?_eq_none hq]
  exact hs

theorem mem_of_holding (h : holding devices d = some id) : d ∈ devices := by
  rw [Std.ExtTreeMap.mem_iff_isSome_getElem?]
  cases hd : devices[d]? with
  | none => simp [holding, hd] at h
  | some device => rfl

theorem holding_freeHolder (desk : Desk) (holder : Option DeviceId) :
    holding (desk.freeHolder holder id).devices d =
      if holder = some d ∧ holding desk.devices d = some id then none
      else holding desk.devices d := by
  unfold freeHolder
  split
  · rename_i d₀
    unfold freeDevice
    by_cases hd : d₀ = d
    · subst hd
      split
      · rename_i device hdevice
        have hold : holding desk.devices d₀ = device.holding := by simp [holding, hdevice]
        by_cases hid : device.holding = some id
        · simp [hid, hold, holding_insert]
        · simp [hid, hold]
      · simp [holding, *]
    · have hne : some d₀ ≠ some d := fun h => hd (Option.some.inj h)
      rw [if_neg fun h => hne h.1]
      split
      · split_ifs
        · simp only [holding_insert, if_neg hd]
        · rfl
      · rfl
  · simp

theorem holding_freeHolder_of_ne {id' : MatchId} (hne : id' ≠ id) (desk : Desk)
    (holder : Option DeviceId) :
    holding (desk.freeHolder holder id).devices d = some id' ↔
      holding desk.devices d = some id' := by
  rw [holding_freeHolder]
  split_ifs with hd
  · simp [hd.2, Ne.symm hne]
  · rfl

theorem freeHolder_eq (desk : Desk) (holder : Option DeviceId) (id : MatchId) :
    desk.freeHolder holder id = { desk with devices := (desk.freeHolder holder id).devices } := by
  unfold freeHolder
  split
  · unfold freeDevice
    split
    · split_ifs <;> rfl
    · rfl
  · rfl

end Lookups

section Balance

variable {format : Format} {desk : Desk} {m : Match}

theorem Tallies.congr {devices devices' : Devices} {queue queue' : Queue}
    (h : Tallies devices queue m)
    (hd : ∀ d, holding devices' d = some m.id ↔ holding devices d = some m.id)
    (hq : queue'[m.id]? = queue[m.id]?) : Tallies devices' queue' m :=
  ⟨h.device, fun d => (hd d).trans (h.holds d), by rw [hq]; exact h.queued⟩

/-- Nobody is to know of a match that nobody holds. -/
theorem tallies_free {devices : Devices} {queue : Queue} (h : m.Free)
    (hd : ∀ d, holding devices d ≠ some m.id) (hq : m.id ∉ queue) : Tallies devices queue m := by
  refine ⟨by rw [h.1, h.2]; rfl, fun d => ?_, ?_⟩
  · rw [h.1]
    exact ⟨fun hc => absurd hc (hd d), fun hc => by cases hc⟩
  · rw [Std.ExtTreeMap.getElem?_eq_none hq]
    intro hs
    have := h.2
    rw [hs] at this
    cases this

/-- The queue has an entry for the matches that await approval. -/
theorem Tallies.mem_queue_iff {devices : Devices} {queue : Queue} (h : Tallies devices queue m) :
    m.id ∈ queue ↔ m.status = .awaitingApproval := by
  have hq := h.queued
  rw [Std.ExtTreeMap.mem_iff_isSome_getElem?]
  cases hs : queue[m.id]? with
  | none =>
    rw [hs] at hq
    simpa [Queued] using hq
  | some s =>
    rw [hs] at hq
    simp [hq.1]

theorem Tallies.not_holding (desk : Desk) {queue : Queue} (h : Tallies desk.devices queue m)
    (d : DeviceId) : holding (desk.freeHolder m.device m.id).devices d ≠ some m.id := by
  rw [holding_freeHolder]
  split_ifs with hd
  · simp
  · exact fun hc => hd ⟨(h.holds d).1 hc, hc⟩

theorem Tallies.free {devices : Devices} {queue : Queue} (h : Tallies devices queue m)
    (hh : m.status.isHeld = false) : m.Free := by
  have hdev := h.device
  rw [hh] at hdev
  exact ⟨by simpa using hdev, hh⟩

variable (h : Balanced format desk)

include h

theorem Balanced.ordered : Ordered desk.tournament.arena := h.running.sound.coherent.wired.ordered

theorem Balanced.ready (hm : m ∈ desk.tournament.arena) (hh : m.status.isHeld) : m.isReady := by
  have hrest := h.running.sound.coherent.atRest hm
  unfold Match.AtRest at hrest
  cases hs : m.status <;> simp_all [MatchStatus.isHeld]

theorem Balanced.withDevices {devices : Devices} {events : List Event}
    (hd : ∀ d, holding devices d = holding desk.devices d) :
    Balanced format { desk with devices, events } where
  running := h.running
  format := h.format
  tallies m hm := (h.tallies m hm).congr (fun d => by rw [hd]) rfl
  devices d id hid := h.devices d id (by rw [← hd]; exact hid)
  queue := h.queue

/-- A match is handed on, and its entries are right. -/
theorem Balanced.move (hm : m ∈ desk.tournament.arena) (hready : m.isReady)
    (ho : m.status.isResolved = false) {f : Match → Match} {s : MatchStatus}
    {d : Option DeviceId} (hf : f m = m.move s d) (hs : s.isResolved = false)
    {devices : Devices} {queue : Queue} {events : List Event}
    (hself : Tallies devices queue (m.move s d))
    (hdevices : ∀ d id, id ≠ m.id →
      (holding devices d = some id ↔ holding desk.devices d = some id))
    (hqueue : ∀ id, id ≠ m.id → queue[id]? = desk.queue[id]?) :
    Balanced format { desk.setMatch m.id f with devices, queue, events } := by
  have hr := h.running
  obtain ⟨hc, he⟩ := hr.sound.coherent.move hm hready ho hf hs
  have hmem : ∀ a, a ∈ Arena.modify m.id f desk.tournament.arena ↔
      a = m.move s d ∨ a ∈ desk.tournament.arena ∧ a.id ≠ m.id := fun a => by
    rw [h.ordered.mem_modify hm, hf]
  have hids : ∀ id, (∃ a ∈ desk.tournament.arena, a.id = id) →
      ∃ a ∈ Arena.modify m.id f desk.tournament.arena, a.id = id := by
    rintro id ⟨a, ha, rfl⟩
    obtain ⟨b, hb, hab⟩ := exists_right he ha
    exact ⟨b, hb, Match.outline_id hab.outline⟩
  have hopen : ({ desk.tournament with arena := Arena.modify m.id f desk.tournament.arena } :
      Tournament).Open := ⟨m.move s d, (hmem _).2 (.inl rfl), hs⟩
  refine ⟨⟨hr.sound.goOn hc he, hr.stages.goOn he, fun _ _ _ => hopen, fun _ _ _ => hopen, ?_⟩,
    h.format, fun a ha => ?_, fun d id hid => hids id ?_, fun id hid => hids id ?_⟩
  · exact (hr.status_of_open ⟨m, hm, ho⟩).trans (if_neg hopen.not_allStagesDone).symm
  · rcases (hmem a).1 ha with rfl | ⟨ha, hne⟩
    · exact hself
    · exact (h.tallies a ha).congr (fun d => hdevices d _ hne) (hqueue _ hne)
  · by_cases hne : id = m.id
    · exact ⟨m, hm, hne.symm⟩
    · exact h.devices d id ((hdevices d id hne).1 hid)
  · by_cases hne : id = m.id
    · exact ⟨m, hm, hne.symm⟩
    · exact h.queue id ((mem_queue_congr (hqueue id hne)).1 hid)

end Balance

end Tourney.Desk
