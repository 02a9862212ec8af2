import Tourney.Proofs.Desk.Answers
import Tourney.Proofs.Desk.Submissions
import Tourney.Proofs.Desk.TakeOver
import Tourney.Snapshot.Desk

/-!
# Taking up a desk again

What a desk keeps overnight is enough to take it up again. Every submission that waits still stands
(`Balanced.standing_submissions`), every match finds the one device that holds it
(`Balanced.keeps_device`), and a device that is not scoring is on the list of those registered
(`getElem?_foldl_enrol`). So the desk is the same but for the notices that nobody has read
(`Balanced.restore_eq`), and goes on as if it had never been left (`answers_ahead`).
-/

namespace Tourney.Desk

open Arena

/-! ## The submissions -/

section Queue

variable {desk : Desk} {id : MatchId} {s : Submission}

/-- Submissions wait under the match they are for. -/
def Keyed (queue : Queue) : Prop :=
  ∀ (id : MatchId) (s : Submission), queue[id]? = some s → s.id = id

theorem mem_submissions : s ∈ desk.submissions ↔ ∃ id : MatchId, desk.queue[id]? = some s := by
  simp [submissions, Std.ExtTreeMap.mem_toList_iff_getElem?_eq_some]

theorem nodup_submissions (hk : Keyed desk.queue) : (desk.submissions.map (·.id)).Nodup := by
  have hperm := (List.mergeSort_perm (desk.queue.toList.map (·.2)) fun a b =>
    a.submittedAt.le b.submittedAt).map (·.id)
  have hkeys : (desk.queue.toList.map (·.2)).map (·.id) = desk.queue.keys := by
    rw [List.map_map, ← Std.ExtTreeMap.map_fst_toList_eq_keys]
    refine List.map_congr_left fun p hp => ?_
    exact hk p.1 p.2 (Std.ExtTreeMap.mem_toList_iff_getElem?_eq_some.1 hp)
  exact hperm.nodup_iff.2 (hkeys ▸ Std.ExtTreeMap.nodup_keys)

/-- Of submissions handed in together only those wait, each for its match. -/
theorem of_waits_map_submit {ss : List Submission} (h : Waits (ss.map .submit) id s) :
    s ∈ ss ∧ s.id = id := by
  obtain ⟨before, after, hss, hid, -⟩ := h
  obtain ⟨s', hs', heq⟩ := List.mem_map.1 (show Call.submit s ∈ ss.map .submit by simp [hss])
  cases heq
  exact ⟨hs', hid⟩

/-- Of submissions for different matches each waits for its own. -/
theorem waits_map_submit {ss : List Submission} (h : (ss.map (·.id)).Nodup) :
    Waits (ss.map .submit) id s ↔ s ∈ ss ∧ s.id = id := by
  refine ⟨of_waits_map_submit, ?_⟩
  rintro ⟨hs, rfl⟩
  obtain ⟨before, after, rfl⟩ := List.append_of_mem hs
  refine ⟨before.map .submit, after.map .submit, by simp, rfl, fun c hc => ?_⟩
  obtain ⟨s', hs', rfl⟩ := List.mem_map.1 hc
  rw [List.map_append, List.map_cons, List.nodup_append] at h
  have hne := (List.nodup_cons.1 h.2.1).1
  exact fun heq => hne (List.mem_map.2 ⟨s', hs', Option.some.inj heq⟩)

/-- The submissions that stand are queued as if they had been handed in. -/
theorem standing_iff_waits {t : Tournament} {ss : List Submission} :
    (standing t ss)[id]? = some s ↔ Waits ((ss.filter (stands t)).map .submit) id s := by
  rw [← foldl_enqueue_iff, List.foldl_map]
  rfl

theorem Balanced.standing_submissions {format : Format} (h : Balanced format desk)
    (hk : Keyed desk.queue) : standing desk.tournament desk.submissions = desk.queue := by
  have hall : desk.submissions.filter (Desk.stands desk.tournament) = desk.submissions := by
    refine List.filter_eq_self.2 fun s hs => ?_
    obtain ⟨id, hq⟩ := mem_submissions.1 hs
    obtain rfl := hk id s hq
    obtain ⟨m, hm, hid⟩ := h.queue s.id (Std.ExtTreeMap.mem_iff_isSome_getElem?.2 (by simp [hq]))
    have hqueued := (h.tallies m hm).queued
    rw [hid, hq] at hqueued
    have hfind : desk.tournament.match? s.id = some m := hid ▸ h.ordered.find? hm
    simp [Desk.stands, hfind, hqueued.1, hqueued.2.1]
  refine Std.ExtTreeMap.ext_getElem? fun id => Option.ext fun s => ?_
  rw [standing_iff_waits, hall, waits_map_submit (nodup_submissions hk), mem_submissions]
  constructor
  · rintro ⟨⟨id', hq⟩, rfl⟩
    rwa [hk id' s hq]
  · exact fun hq => ⟨⟨id, hq⟩, hk id s hq⟩

end Queue

/-! ## The devices -/

section Devices

variable {devices : Devices} {d : DeviceId}

theorem getElem?_enrol {d₀ : DeviceId} : (enrol devices d₀)[d]? =
    if d₀ = d then some { devices[d]?.getD {} with recovered := false } else devices[d]? := by
  unfold enrol
  split
  · rename_i device hdevice
    rw [Std.ExtTreeMap.getElem?_insert]
    simp only [Std.LawfulEqCmp.compare_eq_iff_eq]
    split_ifs with hd
    · subst hd
      simp [hdevice]
    · rfl
  · rename_i hdevice
    rw [Std.ExtTreeMap.getElem?_insert]
    simp only [Std.LawfulEqCmp.compare_eq_iff_eq]
    split_ifs with hd
    · subst hd
      simp [hdevice]
    · rfl

theorem getElem?_foldl_enrol {ds : List DeviceId} : (ds.foldl enrol devices)[d]? =
    if d ∈ ds then some { devices[d]?.getD {} with recovered := false } else devices[d]? := by
  induction ds generalizing devices with
  | nil => simp
  | cons d₀ ds ih =>
    rw [List.foldl_cons, ih, getElem?_enrol]
    by_cases hd : d₀ = d
    · simp [hd]
    · by_cases hmem : d ∈ ds <;> simp [hd, hmem, Ne.symm hd]

/-- Every device has been registered since it was known. -/
def Registered (devices : Devices) : Prop :=
  ∀ (d : DeviceId) (device : Device), devices[d]? = some device → device.recovered = false

theorem Registered.insert (h : Registered devices) {device : Device}
    (hr : device.recovered = false) : Registered (devices.insert d device) := by
  intro d' device' hd'
  rw [Std.ExtTreeMap.getElem?_insert] at hd'
  split_ifs at hd'
  · cases hd'
    exact hr
  · exact h d' device' hd'

theorem Registered.erase (h : Registered devices) : Registered (devices.erase d) := by
  intro d' device' hd'
  rw [Std.ExtTreeMap.getElem?_erase] at hd'
  split_ifs at hd'
  exact h d' device' hd'

theorem Registered.freeHolder {desk : Desk} (h : Registered desk.devices)
    (holder : Option DeviceId) (id : MatchId) :
    Registered (desk.freeHolder holder id).devices := by
  unfold Desk.freeHolder
  split
  · unfold freeDevice
    split
    · rename_i device hdevice
      split_ifs
      · exact h.insert (h _ device hdevice)
      · exact h
    · exact h
  · exact h

theorem Accepts.registered {desk desk' : Desk} {c : Call} (ha : Accepts desk c desk')
    (h : Registered desk.devices) : Registered desk'.devices := by
  cases ha with
  | reconnect d device hd => exact h.insert rfl
  | register d hd => exact h.insert rfl
  | remove d device hd hh => exact h.erase
  | abandon d device id m => exact .erase (.freeHolder (by exact h) m.device id)
  | assign id d device m p1 p2 hd => exact h.insert (h d device hd)
  | unassign id m => exact .freeHolder (by exact h) m.device id
  | approve id s t effects => exact .freeHolder (by exact h) (some s.device) id
  | record id o m t effects => exact .freeHolder (by exact h) m.device id
  | startMatch | submit | reject | drain => exact h

end Devices

/-! ## The desk -/

section Restore

variable {format : Format} {desk : Desk} (h : Balanced format desk)

include h

theorem Balanced.holder?_iff {m : Match} (hm : m ∈ desk.tournament.arena) {d : DeviceId} :
    holder? m = some d ↔ holding desk.devices d = some m.id := by
  have ht := h.tallies m hm
  rw [ht.holds, holder?]
  split_ifs with hheld
  · rfl
  · simp [(ht.free (by simpa using hheld)).1]

theorem Balanced.find?_holder (d : DeviceId) :
    (desk.tournament.arena.find? (holder? · = some d)).map Match.id = holding desk.devices d := by
  rcases hfind : desk.tournament.arena.find? (holder? · = some d) with _ | m
  · rcases hd : holding desk.devices d with _ | id
    · rfl
    · obtain ⟨m, hm, rfl⟩ := h.devices d id hd
      exact absurd ((h.holder?_iff hm).2 hd) (by simpa using List.find?_eq_none.1 hfind m hm)
  · have hd : holder? m = some d := by simpa using List.find?_some hfind
    exact ((h.holder?_iff (List.mem_of_find?_eq_some hfind)).1 hd).symm

theorem Balanced.keeps_device {m : Match} (hm : m ∈ desk.tournament.arena) {d : DeviceId}
    (hd : holder? m = some d) : Keeps ∅ desk.tournament.arena d m := by
  refine ⟨by simp, ?_⟩
  have hfind := h.find?_holder d
  rw [(h.holder?_iff hm).1 hd] at hfind
  obtain ⟨m', hm', hid⟩ := Option.map_eq_some_iff.1 hfind
  rw [hm', h.ordered.eq_of_id_eq (List.mem_of_find?_eq_some hm') hm hid]

theorem Balanced.not_returned {m : Match} (hm : m ∈ desk.tournament.arena) :
    ¬Returned ∅ desk.tournament.arena m := by
  rintro ⟨d, hd, hk⟩
  exact hk (h.keeps_device hm hd)

theorem Balanced.takenOver_eq {m : Match} (hm : m ∈ desk.tournament.arena) :
    takenOver ∅ desk.queue desk.tournament.arena m = m := by
  rcases hd : holder? m with _ | d
  · exact takenOver_of_none hd
  · rw [takenOver_of_keeps hd (h.keeps_device hm hd)]
    exact askAgain_eq_self (h.tallies m hm).mem_queue_iff.2

/-- A desk in use can be taken up again as it is, but for the notices that wait at it. -/
theorem Balanced.restore_eq (hk : Keyed desk.queue) (hr : Registered desk.devices) :
    restore desk.tournament desk.devices.keys desk.submissions = { desk with events := [] } := by
  have htake : TakesOver ∅ desk.queue desk.tournament.arena _ := takesOver h.ordered.nodup
  have harena : (takeOver ∅ desk.queue desk.tournament.arena).1 = desk.tournament.arena := by
    rw [htake.arena, List.map_congr_left fun m hm => h.takenOver_eq hm, List.map_id']
  have hqueue : (takeOver ∅ desk.queue desk.tournament.arena).2.2 = desk.queue := by
    refine Std.ExtTreeMap.ext_getElem? fun id => Option.ext fun s => ?_
    rw [htake.waiting]
    exact and_iff_left fun m hm _ => h.not_returned hm
  have hdevices : desk.devices.keys.foldl enrol (takeOver ∅ desk.queue desk.tournament.arena).2.1 =
      desk.devices := by
    refine Std.ExtTreeMap.ext_getElem? fun d => ?_
    rw [getElem?_foldl_enrol, htake.known, Std.ExtTreeMap.getElem?_empty, Option.none_or]
    have hfind := h.find?_holder d
    rcases hd : desk.devices[d]? with _ | device
    · rw [holding, hd, Option.bind_none, Option.map_eq_none_iff] at hfind
      have hmem : d ∉ desk.devices.keys := by
        rw [Std.ExtTreeMap.mem_keys, Std.ExtTreeMap.mem_iff_isSome_getElem?, hd]
        simp
      simp [hmem, hfind]
    · rw [holding, hd, Option.bind_some] at hfind
      have hmem : d ∈ desk.devices.keys := by
        rw [Std.ExtTreeMap.mem_keys, Std.ExtTreeMap.mem_iff_isSome_getElem?, hd]
        rfl
      have hrecovered := hr d device hd
      rw [if_pos hmem]
      obtain ⟨holding, recovered⟩ := device
      subst hfind hrecovered
      rcases desk.tournament.arena.find? (holder? · = some d) with _ | m <;> rfl
  simp only [restore, h.standing_submissions hk, harena, hqueue, hdevices]

end Restore

/-! ## Runs -/

/-- A desk that has been taken up again is the same but for the notices that waited, and what is
asked of it from then on is answered as it would have been. -/
structure Survives (desk restored : Desk) : Prop where
  tournament : restored.tournament = desk.tournament
  devices : restored.devices = desk.devices
  queue : restored.queue = desk.queue
  events : restored.events = []
  answers : ∀ calls, desk.answers calls = preceded desk.events (restored.answers calls)
  after : ∀ calls, ∃ events, desk.after calls = ahead events (restored.after calls)

section Run

variable {c : Config} {stamp : Stamp} {draw : Draw} {t : Tournament}
  (h : Tournament.create c stamp draw = .ok t)

include h

theorem keyed_after {calls : List Call} (hr : Returns (ofTournament t) calls) :
    Keyed ((ofTournament t).after calls).queue := by
  intro id s hq
  obtain ⟨-, -, -, hid, -⟩ := (queue_iff_waits h hr id s).1 hq
  exact hid

/-- A desk taken up from a new tournament knows no device that has not been registered at it. -/
theorem registered_after {calls : List Call} (hr : Returns (ofTournament t) calls) :
    Registered ((ofTournament t).after calls).devices := by
  have hlive := Tournament.live_of_create h
  induction calls using List.reverseRecOn with
  | nil =>
    rw [ofTournament_eq hlive.free]
    exact fun d device hd => by simp [after] at hd
  | append_singleton calls call ih =>
    obtain ⟨hr, hcall, -⟩ := returns_append.1 hr
    have hafter : (ofTournament t).after (calls ++ [call]) =
        (((ofTournament t).after calls).call call).state := after_append ..
    rw [hafter]
    rcases ((balanced_ofTournament hlive).after hr).call_cases hcall with
      ⟨-, hacc⟩ | ⟨f, -, hstate⟩
    · exact hacc.registered (ih hr)
    · rw [hstate]
      exact ih hr

end Run

/-- Whatever has been done at a desk taken up from a new tournament, what the desk keeps is enough
to go on with it. -/
theorem survives_snapshot {c : Config} {stamp : Stamp} {draw : Draw} {t : Tournament}
    (h : Tournament.create c stamp draw = .ok t) (calls : List Call)
    (hr : Returns (ofTournament t) calls) :
    Survives ((ofTournament t).after calls)
      (Snapshot.Kept.ofDesk ((ofTournament t).after calls)).restore := by
  have hb := (balanced_ofTournament (Tournament.live_of_create h)).after hr
  have heq : (Snapshot.Kept.ofDesk ((ofTournament t).after calls)).restore =
      { (ofTournament t).after calls with events := [] } :=
    hb.restore_eq (keyed_after h hr) (registered_after h hr)
  rw [heq]
  have hahead : (ofTournament t).after calls = ahead ((ofTournament t).after calls).events
      { (ofTournament t).after calls with events := [] } := by simp [ahead]
  refine ⟨rfl, rfl, rfl, rfl, fun more => ?_, fun more => ?_⟩
  · rw [← answers_ahead, ← hahead]
  · obtain ⟨events, hafter⟩ := exists_after_ahead ((ofTournament t).after calls).events
      { (ofTournament t).after calls with events := [] } more
    exact ⟨events, by rw [← hafter, ← hahead]⟩

/-- A desk with a match in play, a result that waits, and a board that is idle. -/
def courtsCalls : List Call :=
  [.register "east", .register "west", .register "north", .assign ⟨1⟩ "east", .startMatch ⟨1⟩,
    .assign ⟨2⟩ "west", .submit ⟨⟨2⟩, "west", ⟨"B", {}⟩, .epoch⟩]

theorem survives_snapshot_smallCup :
    ∃ t, Tournament.create (Tournament.smallCup .singleElimination) Tournament.smallStamp .seeded =
        .ok t ∧
      Returns (ofTournament t) courtsCalls ∧ Survives ((ofTournament t).after courtsCalls)
        (Snapshot.Kept.ofDesk ((ofTournament t).after courtsCalls)).restore := by
  obtain ⟨t, ht, hlive⟩ := (Tournament.create_yields
    (c := Tournament.smallCup .singleElimination) Tournament.smallStamp .seeded
    (by decide)).exists_ok (by decide)
  have hr := (balanced_ofTournament hlive).returns (.inl rfl) courtsCalls
  exact ⟨t, ht, hr, survives_snapshot ht courtsCalls hr⟩

end Tourney.Desk
