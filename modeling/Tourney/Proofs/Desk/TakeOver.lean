import Tourney.Proofs.Desk.Balance

/-!
# Taking over what devices hold

Of the matches that claim a device the first gets it (`Keeps`); any other goes back to the pool
without its submission. So an arena is taken over match by match, however its devices and its
submissions contradict one another (`takesOver`).
-/

namespace Tourney.Desk

open Arena

/-- The match is the first to claim a device that nobody has yet. -/
def Keeps (devices : Devices) (ms : List Match) (d : DeviceId) (m : Match) : Prop :=
  d ∉ devices ∧ ms.find? (holder? · = some d) = some m

instance (devices : Devices) (ms : List Match) (d : DeviceId) (m : Match) :
    Decidable (Keeps devices ms d m) :=
  inferInstanceAs (Decidable (_ ∧ _))

/-- The match claims a device that it does not get. -/
def Returned (devices : Devices) (ms : List Match) (m : Match) : Prop :=
  ∃ d, holder? m = some d ∧ ¬Keeps devices ms d m

/-- What taking over makes of a match. -/
def takenOver (devices : Devices) (queue : Queue) (ms : List Match) (m : Match) : Match :=
  match holder? m with
  | none => m
  | some d => if Keeps devices ms d m then askAgain queue m else m.move .pending none

section Match

variable {devices devices' : Devices} {queue queue' : Queue} {ms : List Match} {m a : Match}
  {d : DeviceId}

theorem holder?_eq_some_iff : holder? m = some d ↔ m.status.isHeld ∧ m.device = some d := by
  unfold holder?
  split_ifs with h <;> simp [h]

theorem takenOver_of_none (h : holder? m = none) : takenOver devices queue ms m = m := by
  rw [takenOver, h]

theorem takenOver_of_keeps (h : holder? m = some d) (hk : Keeps devices ms d m) :
    takenOver devices queue ms m = askAgain queue m := by
  rw [takenOver, h]
  exact if_pos hk

theorem takenOver_of_returned (h : Returned devices ms m) :
    takenOver devices queue ms m = m.move .pending none := by
  obtain ⟨d, hd, hk⟩ := h
  rw [takenOver, hd]
  exact if_neg hk

theorem not_returned_of_none (h : holder? m = none) : ¬Returned devices ms m := by
  rintro ⟨d, hd, -⟩
  rw [h] at hd
  cases hd

theorem returned_iff (h : holder? m = some d) : Returned devices ms m ↔ ¬Keeps devices ms d m := by
  constructor
  · rintro ⟨d', hd', hk⟩
    rw [h, Option.some.injEq] at hd'
    rwa [hd']
  · exact fun hk => ⟨d, h, hk⟩

theorem askAgain_congr (h : m.id ∈ queue' ↔ m.id ∈ queue) :
    askAgain queue' m = askAgain queue m := by
  have hc : queue'.contains m.id = queue.contains m.id := by
    rw [Bool.eq_iff_iff, ← Std.ExtTreeMap.mem_iff_contains, ← Std.ExtTreeMap.mem_iff_contains, h]
  simp only [askAgain, hc]

theorem askAgain_eq_self (h : m.status = .awaitingApproval → m.id ∈ queue) :
    askAgain queue m = m := by
  unfold askAgain
  rw [if_neg]
  rintro ⟨hs, hc⟩
  rw [Std.ExtTreeMap.mem_iff_contains.1 (h hs)] at hc
  cases hc

/-- A match gets its device or not as it would behind the matches before it, with their devices
gone. -/
theorem keeps_cons (hd : ∀ d, d ∈ devices' ↔ d ∈ devices ∨ holder? m = some d)
    (ha : a.id ≠ m.id) : Keeps devices (m :: ms) d a ↔ Keeps devices' ms d a := by
  unfold Keeps
  rw [hd, not_or, and_assoc]
  refine and_congr_right fun _ => ?_
  by_cases hm : holder? m = some d
  · rw [List.find?_cons_of_pos (by simpa using hm)]
    refine iff_of_false ?_ fun h => h.1 hm
    rintro h
    exact ha (congrArg Match.id (Option.some.inj h)).symm
  · rw [List.find?_cons_of_neg (by simpa using hm)]
    simp [hm]

theorem returned_cons (hd : ∀ d, d ∈ devices' ↔ d ∈ devices ∨ holder? m = some d)
    (ha : a.id ≠ m.id) : Returned devices (m :: ms) a ↔ Returned devices' ms a :=
  exists_congr fun _ => and_congr_right fun _ => not_congr (keeps_cons hd ha)

theorem takenOver_cons (hd : ∀ d, d ∈ devices' ↔ d ∈ devices ∨ holder? m = some d)
    (ha : a.id ≠ m.id) (hq : a.id ∈ queue' ↔ a.id ∈ queue) :
    takenOver devices queue (m :: ms) a = takenOver devices' queue' ms a := by
  simp only [takenOver, keeps_cons hd ha, askAgain_congr hq]

end Match

/-! ## One match after the other -/

/-- What taking over has made of an arena, of the devices that are known, and of the queue. -/
structure TakesOver (devices : Devices) (queue : Queue) (ms : List Match)
    (r : List Match × Devices × Queue) : Prop where
  arena : r.1 = ms.map (takenOver devices queue ms)
  known : ∀ d, r.2.1[d]? = devices[d]?.or
    ((ms.find? (holder? · = some d)).map fun m => ⟨some m.id, true⟩)
  waiting : ∀ id s, r.2.2[id]? = some s ↔
    queue[id]? = some s ∧ ∀ m ∈ ms, m.id = id → ¬Returned devices ms m

section Step

variable {devices devices' : Devices} {queue queue' : Queue} {ms : List Match} {m : Match}
  {d : DeviceId} {r : List Match × Devices × Queue}

/-- Behind a match the rest is taken over as it would be without it. -/
theorem TakesOver.cons (h : TakesOver devices' queue' ms r) (hne : ∀ a ∈ ms, a.id ≠ m.id)
    (hd : ∀ d, d ∈ devices' ↔ d ∈ devices ∨ holder? m = some d)
    (hq : ∀ id, id ≠ m.id → queue'[id]? = queue[id]?)
    (hdevices : ∀ d, r.2.1[d]? = devices[d]?.or
      (((m :: ms).find? (holder? · = some d)).map fun m => ⟨some m.id, true⟩))
    (hself : ∀ s, r.2.2[m.id]? = some s ↔
      queue[m.id]? = some s ∧ ¬Returned devices (m :: ms) m) :
    TakesOver devices queue (m :: ms) (takenOver devices queue (m :: ms) m :: r.1, r.2) where
  arena := by
    rw [h.arena, List.map_cons]
    refine congrArg _ (List.map_congr_left fun a ha => ?_)
    exact (takenOver_cons hd (hne a ha) (mem_queue_congr (hq _ (hne a ha)))).symm
  known := hdevices
  waiting id s := by
    rw [List.forall_mem_cons]
    by_cases hid : m.id = id
    · subst hid
      rw [hself]
      refine and_congr_right fun _ => ⟨fun hr => ⟨fun _ => hr, ?_⟩, fun hr => hr.1 rfl⟩
      exact fun a ha hid => absurd hid (hne a ha)
    · rw [h.waiting, hq id (Ne.symm hid)]
      simp only [hid, false_implies, true_and]
      refine and_congr_right fun _ => forall₂_congr fun a ha => ?_
      rw [returned_cons hd (hne a ha)]

variable (hne : ∀ a ∈ ms, a.id ≠ m.id)

include hne

theorem TakesOver.unclaimed (h : TakesOver devices queue ms r) (hm : holder? m = none) :
    TakesOver devices queue (m :: ms) (m :: r.1, r.2) := by
  have hcons : TakesOver devices queue (m :: ms) _ := h.cons hne (by simp [hm]) (fun _ _ => rfl)
    (fun d => by rw [h.known, List.find?_cons_of_neg (by simp [hm])])
    fun s => by
      rw [h.waiting]
      refine and_congr_right fun _ => iff_of_true (fun a ha hid => ?_) (not_returned_of_none hm)
      exact absurd hid (hne a ha)
  rwa [takenOver_of_none hm] at hcons

theorem TakesOver.returned (h : TakesOver devices (queue.erase m.id) ms r)
    (hm : holder? m = some d) (hd : d ∈ devices) :
    TakesOver devices queue (m :: ms) (m.move .pending none :: r.1, r.2) := by
  have hr : Returned devices (m :: ms) m := ⟨d, hm, fun hk => hk.1 hd⟩
  have hcons : TakesOver devices queue (m :: ms) _ := h.cons hne
    (fun d' => by rw [hm, Option.some.injEq, or_iff_left_of_imp (· ▸ hd)])
    (fun _ hid => queue_erase_of_ne hid)
    (fun d' => by
      rw [h.known]
      by_cases hdd : d = d'
      · subst hdd
        obtain ⟨device, hdevice⟩ := Option.isSome_iff_exists.1
          (Std.ExtTreeMap.mem_iff_isSome_getElem?.1 hd)
        simp [hdevice]
      · rw [List.find?_cons_of_neg (by simp [hm, hdd])])
    fun s => by
      rw [h.waiting]
      simp [hr]
  rwa [takenOver_of_returned hr] at hcons

theorem TakesOver.kept (h : TakesOver (devices.insert d ⟨some m.id, true⟩) queue ms r)
    (hm : holder? m = some d) (hd : d ∉ devices) :
    TakesOver devices queue (m :: ms) (askAgain queue m :: r.1, r.2) := by
  have hk : Keeps devices (m :: ms) d m := ⟨hd, List.find?_cons_of_pos (by simpa using hm)⟩
  have hcons : TakesOver devices queue (m :: ms) _ := h.cons hne
    (fun d' => by
      rw [Std.ExtTreeMap.mem_insert, Std.LawfulEqCmp.compare_eq_iff_eq, hm, Option.some.injEq,
        or_comm])
    (fun _ _ => rfl)
    (fun d' => by
      rw [h.known, Std.ExtTreeMap.getElem?_insert]
      simp only [Std.LawfulEqCmp.compare_eq_iff_eq]
      by_cases hdd : d = d'
      · subst hdd
        rw [if_pos rfl, List.find?_cons_of_pos (by simpa using hm),
          Std.ExtTreeMap.getElem?_eq_none hd]
        rfl
      · rw [if_neg hdd, List.find?_cons_of_neg (by simp [hm, hdd])])
    fun s => by
      rw [h.waiting, returned_iff hm]
      refine and_congr_right fun _ => iff_of_true (fun a ha hid => ?_) (not_not.2 hk)
      exact absurd hid (hne a ha)
  rwa [takenOver_of_keeps hm hk] at hcons

end Step

/-- Matches with ids of their own are taken over each for itself. -/
theorem takesOver {devices : Devices} {queue : Queue} {ms : List Match}
    (hnd : (ms.map (·.id)).Nodup) :
    TakesOver devices queue ms (takeOver devices queue ms) := by
  induction ms generalizing devices queue with
  | nil => exact ⟨rfl, fun d => by simp [takeOver], fun id s => by simp [takeOver]⟩
  | cons m ms ih =>
    obtain ⟨hm, hnd⟩ := List.nodup_cons.1 hnd
    have hne : ∀ a ∈ ms, a.id ≠ m.id := fun a ha hid => hm (List.mem_map.2 ⟨a, ha, hid⟩)
    unfold takeOver
    split
    · rename_i hh
      exact (ih hnd).unclaimed hne hh
    · rename_i d hh
      split_ifs with hd
      · exact (ih hnd).returned hne hh (Std.ExtTreeMap.mem_iff_contains.2 hd)
      · exact (ih hnd).kept hne hh (mt Std.ExtTreeMap.mem_iff_contains.1 hd)

end Tourney.Desk
