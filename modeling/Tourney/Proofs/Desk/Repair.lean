import Tourney.Proofs.Desk.Restore

/-!
# Taking up a desk from data that contradict one another

A tournament may name a device in several matches, and the submissions left with it may be stale,
foreign or lost. Each match is then settled with its device for itself (`resumes_takenOver`), a
device holds the one match that has kept it (`deviceMatch?_restore`), and what waits is what still
stands (`mem_queue_restore`). So whatever a desk is taken up from, its books are consistent
(`repaired_restore`).

What a desk keeps lists every device it knows, and not which of them have registered: a device known
from its match alone counts as registered once the desk has been left, and is then refused
(`answer_register_reloaded`).
-/

namespace Tourney.Desk

open Arena

/-- What becomes of a match of an arena when a desk is taken up with it: nothing but its status and
its device changes, and these only for the claim it has on a device. -/
structure Resumes (ms : List Match) (m m' : Match) : Prop where
  rest : m' = m.move m'.status m'.device
  unclaimed : holder? m = none → m' = m
  kept : ∀ d, ms.find? (holder? · = some d) = some m → m'.device = some d ∧
    (m'.status = m.status ∨ m.status = .awaitingApproval ∧ m'.status = .assigned)
  returned : ∀ d, holder? m = some d → ms.find? (holder? · = some d) ≠ some m →
    m'.status = .pending ∧ m'.device = none

/-- The books of a desk agree with the arena they were taken up from, and with one another. -/
structure Repaired (t : Tournament) (registered : List DeviceId) (left : List Submission)
    (desk : Desk) : Prop where
  tournament : desk.tournament = { t with arena := desk.tournament.arena }
  resumes : List.Forall₂ (Resumes t.arena) t.arena desk.tournament.arena
  holds : ∀ d id, desk.deviceMatch? d = some id ↔
    ∃ m ∈ desk.tournament.arena, m.id = id ∧ m.status.isHeld ∧ m.device = some d
  apart : ∀ m ∈ desk.tournament.arena, ∀ m' ∈ desk.tournament.arena, ∀ d,
    m.status.isHeld → m.device = some d → m'.status.isHeld → m'.device = some d → m = m'
  queued : ∀ id s, desk.queue[id]? = some s → s ∈ left ∧ s.id = id ∧
    ∃ m ∈ desk.tournament.arena, m.id = id ∧ m.status = .awaitingApproval ∧
      m.device = some s.device
  reported : ∀ m ∈ desk.tournament.arena, m.status = .awaitingApproval → m.device.isSome →
    m.id ∈ desk.queue
  known : ∀ d ∈ registered, d ∈ desk.devices

/-! ## One match -/

section Match

variable {queue : Queue} {ms : List Match} {m : Match} {d : DeviceId}

theorem keeps_empty : Keeps ∅ ms d m ↔ ms.find? (holder? · = some d) = some m := by
  simp [Keeps]

theorem status_askAgain (queue : Queue) (m : Match) : (askAgain queue m).status = m.status ∨
    m.status = .awaitingApproval ∧ (askAgain queue m).status = .assigned := by
  unfold askAgain
  split_ifs with h
  · exact .inr ⟨h.1, rfl⟩
  · exact .inl rfl

theorem device_askAgain : (askAgain queue m).device = m.device := by
  unfold askAgain
  split_ifs <;> rfl

theorem mem_of_status_askAgain (h : (askAgain queue m).status = .awaitingApproval) :
    m.id ∈ queue := by
  unfold askAgain at h
  split_ifs at h with hc
  by_contra hq
  refine hc ⟨h, ?_⟩
  rw [Bool.not_eq_true', Bool.eq_false_iff]
  exact mt Std.ExtTreeMap.mem_iff_contains.2 hq

theorem holder?_askAgain : holder? (askAgain queue m) = holder? m := by
  rw [holder?, holder?, device_askAgain]
  rcases status_askAgain queue m with hs | ⟨hs, hs'⟩
  · rw [hs]
  · rw [hs, hs']
    rfl

theorem takenOver_eq_move : takenOver ∅ queue ms m =
    m.move (takenOver ∅ queue ms m).status (takenOver ∅ queue ms m).device := by
  unfold takenOver askAgain
  split
  · rfl
  · split_ifs <;> rfl

theorem id_takenOver : (takenOver ∅ queue ms m).id = m.id := by
  rw [takenOver_eq_move]
  rfl

/-- A device is left with the match that has kept it. -/
theorem holder?_takenOver : holder? (takenOver ∅ queue ms m) = some d ↔
    ms.find? (holder? · = some d) = some m := by
  have hclaims (h : ms.find? (holder? · = some d) = some m) : holder? m = some d := by
    simpa using List.find?_some h
  rcases hm : holder? m with _ | d'
  · rw [takenOver_of_none hm]
    exact iff_of_false (by simp [hm]) fun h => by simp [hclaims h] at hm
  · by_cases hk : Keeps ∅ ms d' m
    · rw [takenOver_of_keeps hm hk, holder?_askAgain]
      refine ⟨fun h => ?_, hclaims⟩
      rw [hm, Option.some.injEq] at h
      exact h ▸ keeps_empty.1 hk
    · rw [takenOver_of_returned ((returned_iff hm).2 hk)]
      refine iff_of_false (by simp [holder?, Match.move, MatchStatus.isHeld]) fun h => hk ?_
      rw [hclaims h, Option.some.injEq] at hm
      exact hm ▸ keeps_empty.2 h

theorem resumes_takenOver : Resumes ms m (takenOver ∅ queue ms m) where
  rest := takenOver_eq_move
  unclaimed := takenOver_of_none
  kept d h := by
    refine ⟨(holder?_eq_some_iff.1 (holder?_takenOver.2 h)).2, ?_⟩
    rw [takenOver_of_keeps (by simpa using List.find?_some h) (keeps_empty.2 h)]
    exact status_askAgain _ m
  returned d hm h := by
    rw [takenOver_of_returned ((returned_iff hm).2 (mt keeps_empty.1 h))]
    exact ⟨rfl, rfl⟩

end Match

/-! ## The desk -/

section Restore

variable {t : Tournament} {registered : List DeviceId} {left : List Submission}
  (hnd : (t.arena.map (·.id)).Nodup)

include hnd

theorem arena_restore : (restore t registered left).tournament.arena =
    t.arena.map (takenOver ∅ (standing t left) t.arena) :=
  (takesOver hnd).arena

theorem getElem?_devices_restore (d : DeviceId) : (restore t registered left).devices[d]? =
    let device := (t.arena.find? (holder? · = some d)).map fun m => ⟨some m.id, true⟩
    if d ∈ registered then some { device.getD {} with recovered := false } else device := by
  rw [show (restore t registered left).devices = registered.foldl enrol
    (takeOver ∅ (standing t left) t.arena).2.1 from rfl, getElem?_foldl_enrol,
    (takesOver hnd).known, Std.ExtTreeMap.getElem?_empty, Option.none_or]

theorem deviceMatch?_restore (d : DeviceId) : (restore t registered left).deviceMatch? d =
    (t.arena.find? (holder? · = some d)).map Match.id := by
  rw [deviceMatch?, getElem?_devices_restore hnd]
  rcases t.arena.find? (holder? · = some d) with _ | m <;> by_cases hd : d ∈ registered <;>
    simp [hd]

/-- What waits is a submission left for a match that awaits approval with the same device and has
kept it. -/
theorem mem_queue_restore {id : MatchId} {s : Submission}
    (h : (restore t registered left).queue[id]? = some s) : s ∈ left ∧ s.id = id ∧
      ∃ m ∈ t.arena, m.id = id ∧ m.status = .awaitingApproval ∧ m.device = some s.device ∧
        takenOver ∅ (standing t left) t.arena m = m := by
  obtain ⟨hq, hr⟩ := ((takesOver hnd).waiting id s).1 h
  obtain ⟨hs, rfl⟩ := of_waits_map_submit (standing_iff_waits.1 hq)
  obtain ⟨hs, hst⟩ := List.mem_filter.1 hs
  refine ⟨hs, rfl, ?_⟩
  unfold stands at hst
  split at hst
  · rename_i m hm
    have hmem : m ∈ t.arena := List.mem_of_find?_eq_some hm
    have hid : m.id = s.id := by simpa using List.find?_some hm
    rw [Bool.and_eq_true, decide_eq_true_iff, decide_eq_true_iff] at hst
    have hholder : holder? m = some s.device :=
      holder?_eq_some_iff.2 ⟨by simp [hst.1, MatchStatus.isHeld], hst.2⟩
    have hk := not_not.1 (mt (returned_iff hholder).2 (hr m hmem hid))
    refine ⟨m, hmem, hid, hst.1, hst.2, ?_⟩
    rw [takenOver_of_keeps hholder hk, askAgain_eq_self]
    exact fun _ => Std.ExtTreeMap.mem_iff_isSome_getElem?.2 (by rw [hid, hq]; rfl)
  · cases hst

/-- What a match still awaits approval of waits. -/
theorem mem_queue_of_awaits {m : Match} (hm : m ∈ t.arena)
    (hs : (takenOver ∅ (standing t left) t.arena m).status = .awaitingApproval)
    (hd : (takenOver ∅ (standing t left) t.arena m).device.isSome) :
    m.id ∈ (restore t registered left).queue := by
  obtain ⟨d, hd⟩ := Option.isSome_iff_exists.1 hd
  have hfind := holder?_takenOver.1
    (holder?_eq_some_iff.2 ⟨by simp [hs, MatchStatus.isHeld], hd⟩)
  have hholder : holder? m = some d := by simpa using List.find?_some hfind
  have hk : Keeps ∅ t.arena d m := keeps_empty.2 hfind
  rw [takenOver_of_keeps hholder hk] at hs
  obtain ⟨s, hq⟩ := Option.isSome_iff_exists.1
    (Std.ExtTreeMap.mem_iff_isSome_getElem?.1 (mem_of_status_askAgain hs))
  refine Std.ExtTreeMap.mem_iff_isSome_getElem?.2 (Option.isSome_iff_exists.2 ⟨s, ?_⟩)
  refine ((takesOver hnd).waiting m.id s).2 ⟨hq, fun a ha hid => ?_⟩
  rw [List.inj_on_of_nodup_map hnd ha hm hid]
  exact mt (returned_iff hholder).1 (not_not.2 hk)

end Restore

/-- Whatever a tournament, a list of devices and a pile of submissions say, the desk taken up from
them is consistent. -/
theorem repaired_restore {t : Tournament} (hnd : (t.arena.map (·.id)).Nodup)
    (registered : List DeviceId) (left : List Submission) :
    Repaired t registered left (restore t registered left) := by
  have harena : (restore t registered left).tournament.arena = _ := arena_restore hnd
  constructor
  case tournament => rfl
  case resumes =>
    rw [harena, List.forall₂_map_right_iff]
    exact List.forall₂_same.2 fun m _ => resumes_takenOver
  case holds =>
    intro d id
    simp only [deviceMatch?_restore hnd, harena, List.mem_map, exists_exists_and_eq_and,
      id_takenOver, ← holder?_eq_some_iff, holder?_takenOver, Option.map_eq_some_iff]
    refine exists_congr fun m => ?_
    constructor
    · exact fun ⟨hfind, hid⟩ => ⟨List.mem_of_find?_eq_some hfind, hid, hfind⟩
    · exact fun ⟨_, hid, hfind⟩ => ⟨hfind, hid⟩
  case apart =>
    rw [harena]
    refine List.forall_mem_map.2 fun a _ => List.forall_mem_map.2 fun b _ => ?_
    intro d ha hda hb hdb
    have ha := holder?_takenOver.1 (holder?_eq_some_iff.2 ⟨ha, hda⟩)
    have hb := holder?_takenOver.1 (holder?_eq_some_iff.2 ⟨hb, hdb⟩)
    rw [Option.some.inj (ha.symm.trans hb)]
  case queued =>
    intro id s h
    obtain ⟨hs, hid, m, hm, hmid, hstatus, hdevice, hsame⟩ := mem_queue_restore hnd h
    refine ⟨hs, hid, m, ?_, hmid, hstatus, hdevice⟩
    rw [harena]
    exact List.mem_map.2 ⟨m, hm, hsame⟩
  case reported =>
    rw [harena]
    refine List.forall_mem_map.2 fun m hm hs hd => ?_
    rw [id_takenOver]
    exact mem_queue_of_awaits hnd hm hs hd
  case known =>
    intro d hd
    rw [Std.ExtTreeMap.mem_iff_isSome_getElem?, getElem?_devices_restore hnd]
    simp [hd]

/-- A match that a device holds. -/
def onCourt : Tournament where
  id := Uuid.zero
  name := "Cup"
  roomCode := "AAAAAA"
  format := .singleElimination
  scoring := {}
  players := ["A", "B"]
  arena := [
    { Match.seated ⟨1⟩ 1 0 .main (some "A") (some "B") with
      status := .assigned
      device := some "court" }]
  status := .inProgress
  createdAt := .epoch
  nextMatchId := ⟨2⟩
  shuffle := false
  swiss := none
  table := []
  groups := none

/-- Matches of which two claim one device, and one names a device without being with it. -/
def muddled : Tournament :=
  { onCourt with
    arena := [
      { Match.seated ⟨1⟩ 1 0 .main (some "A") (some "B") with
        status := .awaitingApproval
        device := some "court" },
      { Match.seated ⟨2⟩ 1 1 .main (some "C") (some "D") with
        status := .inProgress
        device := some "court" },
      { Match.seated ⟨3⟩ 1 2 .main (some "E") (some "F") with
        status := .awaitingApproval
        device := some "hall" },
      { Match.seated ⟨4⟩ 1 3 .main (some "G") (some "H") with device := some "attic" }] }

/-- Two submissions for a match that awaits one, one from a device that has lost its match, and one
for a match that nobody knows. -/
def piled : List Submission :=
  [⟨⟨3⟩, "hall", ⟨"E", {}⟩, .epoch⟩, ⟨⟨3⟩, "hall", ⟨"F", {}⟩, .epoch⟩,
    ⟨⟨2⟩, "court", ⟨"C", {}⟩, .epoch⟩, ⟨⟨9⟩, "attic", ⟨"Z", {}⟩, .epoch⟩]

theorem repaired_restore_muddled : (muddled.arena.map (·.id)).Nodup ∧
    Repaired muddled ["attic", "court"] piled (restore muddled ["attic", "court"] piled) := by
  have hnd : (muddled.arena.map (·.id)).Nodup := by decide
  exact ⟨hnd, repaired_restore hnd _ _⟩

example : (restore muddled ["attic", "court"] piled).tournament.arena.map
    (fun m => (m.status, m.device)) = [(.assigned, some "court"), (.pending, none),
      (.awaitingApproval, some "hall"), (.pending, some "attic")] := by
  decide +kernel

/-! ## Devices that come back -/

/-- A desk taken up from what it keeps. -/
def reloaded (desk : Desk) : Desk := (Snapshot.Kept.ofDesk desk).restore

section Reload

variable {desk : Desk} {d : DeviceId} {device : Device}

theorem answer_register (h : desk.devices[d]? = some device) : (desk.register d).answer =
    if device.recovered then .ok () else .error (.deviceAlreadyRegistered d) := by
  unfold register
  rw [h]
  dsimp only
  split_ifs <;> rfl

/-- What a desk keeps lists every device it knows, so all of them count as registered. -/
theorem exists_getElem?_reloaded (h : desk.devices[d]? = some device) :
    ∃ device', (reloaded desk).devices[d]? = some device' ∧ device'.recovered = false := by
  have hkept : d ∈ (Snapshot.Kept.ofDesk desk).devices := by
    refine Std.ExtTreeMap.mem_keys.2 (Std.ExtTreeMap.mem_iff_isSome_getElem?.2 ?_)
    rw [h]
    rfl
  have henrol : (reloaded desk).devices[d]? = _ := getElem?_foldl_enrol
  rw [if_pos hkept] at henrol
  exact ⟨_, henrol, rfl⟩

theorem exists_getElem?_iterate_reloaded (h : desk.devices[d]? = some device) (saves : Nat) :
    ∃ device', (reloaded^[saves] desk).devices[d]? = some device' ∧
      device'.recovered = (decide (saves = 0) && device.recovered) := by
  induction saves with
  | zero => exact ⟨device, h, by simp⟩
  | succ saves ih =>
    obtain ⟨device', h', -⟩ := ih
    obtain ⟨device'', h'', hr⟩ := exists_getElem?_reloaded h'
    rw [Function.iterate_succ_apply']
    exact ⟨device'', h'', by simpa using hr⟩

end Reload

/-- A device that is known from its match alone can register again as long as the desk has not been
left in between; a device that a desk knows when it is left counts as registered from then on. -/
theorem answer_register_reloaded {desk : Desk} {d : DeviceId} {device : Device}
    (h : desk.devices[d]? = some device) (saves : Nat) :
    ((reloaded^[saves] desk).register d).answer =
      if saves = 0 ∧ device.recovered then .ok () else .error (.deviceAlreadyRegistered d) := by
  obtain ⟨device', h', hr⟩ := exists_getElem?_iterate_reloaded h saves
  rw [answer_register h', hr]
  simp only [Bool.and_eq_true, decide_eq_true_iff]

theorem devices_onCourt : (ofTournament onCourt).devices["court"]? = some ⟨some ⟨1⟩, true⟩ := by
  rw [ofTournament, getElem?_devices_restore (by decide)]
  decide

theorem answer_register_reloaded_onCourt :
    (ofTournament onCourt).devices["court"]? = some ⟨some ⟨1⟩, true⟩ ∧
      ((reloaded^[2] (ofTournament onCourt)).register "court").answer =
        .error (.deviceAlreadyRegistered "court") :=
  ⟨devices_onCourt, answer_register_reloaded devices_onCourt 2⟩

/-- The board has not been registered since its match was taken over, and is refused all the same
once the desk has been left and taken up again. -/
theorem refused_reloaded_onCourt : ∃ device,
    (ofTournament onCourt).devices["court"]? = some device ∧ device.recovered ∧
      ((ofTournament onCourt).register "court").answer = .ok () ∧
      ((reloaded (ofTournament onCourt)).register "court").answer ≠ .ok () := by
  obtain ⟨device, hdevice, hr⟩ := exists_getElem?_reloaded devices_onCourt
  refine ⟨_, devices_onCourt, rfl, answer_register devices_onCourt, ?_⟩
  rw [answer_register hdevice, hr]
  nofun

end Tourney.Desk
