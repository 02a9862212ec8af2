import Tourney.Proofs.Desk.Consistent
import Tourney.Proofs.Desk.Story
import Tourney.Proofs.Tournament.Modest
import Tourney.Simulation.Run

/-!
# A desk with its devices

What a simulation does at the desk, step by step. Handing a match to an idle device
(`Staffed.hand`), reporting a result (`Staffed.report`) and rejecting one (`Staffed.reject`) are
never refused and leave the tournament as it is but for who scores what (`Shifted`); approving a
modest result is not refused either, as long as there are ids, and one match more has been played
(`Staffed.approve`).
-/

namespace Tourney.Simulation

open Arena Desk

/-- The match whose submission a notice says is rejected. -/
def rejected? : Desk.Event → Option MatchId
  | .submissionRejected id .. => some id
  | _ => none

def rejections (events : List Desk.Event) : List MatchId := events.filterMap rejected?

def approvals (events : List Desk.Event) : List MatchId :=
  (events.filterMap Event.approved?).map (·.1)

theorem rejections_append (es es' : List Desk.Event) :
    rejections (es ++ es') = rejections es ++ rejections es' := List.filterMap_append

theorem approvals_append (es es' : List Desk.Event) :
    approvals (es ++ es') = approvals es ++ approvals es' := by
  rw [approvals, List.filterMap_append, List.map_append]
  rfl

theorem rejections_notices (t : Tournament) (effects : Effects) :
    rejections (notices t effects) = [] := by
  unfold rejections notices
  rw [List.filterMap_append, List.filterMap_map]
  split_ifs <;> simp [rejected?, Function.comp_def]

/-- The matches that have been played, by id. -/
def playedIds (t : Tournament) : List MatchId := (t.arena.filter Match.isPlayed).map (·.id)

theorem isPlayed_unheld (m : Match) : m.unheld.isPlayed = m.isPlayed := by
  unfold Match.isPlayed Match.unheld
  cases m.status <;> rfl

theorem playedIds_unheld (t : Tournament) : playedIds t.unheld = playedIds t := by
  change ((t.arena.map Match.unheld).filter Match.isPlayed).map _ = _
  rw [List.filter_map, List.map_map, playedIds]
  exact congrArg (List.map _) (List.filter_congr fun m _ => isPlayed_unheld m)

/-- A balanced desk with these devices, at which only modest results wait. -/
structure Staffed (format : Format) (names : List DeviceId) (desk : Desk) : Prop where
  balanced : Balanced format desk
  devices : ∀ d, d ∈ desk.devices ↔ d ∈ names
  modest : ∀ (id : MatchId) (s : Submission), desk.queue[id]? = some s →
    s.outcome.Within winningScore

/-- Only who scores what has changed. -/
structure Shifted (desk desk' : Desk) : Prop where
  unheld : desk'.tournament.unheld = desk.tournament.unheld
  approvals : approvals desk'.events = approvals desk.events
  rejections : rejections desk'.events = rejections desk.events

theorem Shifted.refl (desk : Desk) : Shifted desk desk := ⟨rfl, rfl, rfl⟩

theorem Shifted.trans {a b c : Desk} (h : Shifted a b) (h' : Shifted b c) : Shifted a c :=
  ⟨h'.unheld.trans h.unheld, h'.approvals.trans h.approvals, h'.rejections.trans h.rejections⟩

theorem mem_devices_insert {devices : Devices} {d d' : DeviceId} {device : Device}
    (hd : d ∈ devices) : d' ∈ devices.insert d device ↔ d' ∈ devices := by
  rw [Std.ExtTreeMap.mem_insert, Std.LawfulEqCmp.compare_eq_iff_eq]
  exact ⟨fun h => h.elim (fun h => h ▸ hd) id, .inr⟩

theorem mem_devices_freeHolder (desk : Desk) (holder : Option DeviceId) (id : MatchId)
    (d : DeviceId) : d ∈ (desk.freeHolder holder id).devices ↔ d ∈ desk.devices := by
  unfold freeHolder
  split
  · unfold freeDevice
    split
    · rename_i device hdevice
      split_ifs
      · exact mem_devices_insert (Std.ExtTreeMap.mem_iff_isSome_getElem?.2 (by rw [hdevice]; rfl))
      · rfl
    · rfl
  · rfl

/-- A simulated result is a modest win for one of the two. -/
theorem result_spec (dice : Dice) (thrown setsToWin : Nat) (p1 p2 : Player) :
    (result dice thrown setsToWin p1 p2).1.Within winningScore ∧
      ((result dice thrown setsToWin p1 p2).1.winner = p1 ∨
        (result dice thrown setsToWin p1 p2).1.winner = p2) := by
  have hwon : (UInt32.ofNat winningScore).toNat ≤ winningScore := by decide
  have hlost : (UInt32.ofNat (Dice.below (winningScore - 1) (dice (thrown + 1)))).toNat ≤
      winningScore := by
    have hlt : Dice.below (winningScore - 1) (dice (thrown + 1)) < winningScore - 1 :=
      Nat.mod_lt _ (by decide)
    rw [UInt32.toNat_ofNat']
    exact (Nat.mod_le ..).trans (by omega)
  by_cases hfirst : Dice.coin (dice thrown) <;> by_cases hsets : 1 < setsToWin <;>
    simp only [result, hfirst, hsets, if_true, if_false]
  · exact ⟨⟨hwon, hlost⟩, .inl trivial⟩
  · exact ⟨⟨hwon, hlost⟩, .inl trivial⟩
  · exact ⟨⟨hlost, hwon⟩, .inr rfl⟩
  · exact ⟨⟨hlost, hwon⟩, .inr rfl⟩

theorem exists_players {m : Match} (hready : m.isReady) :
    ∃ p1 p2, m.player1 = some p1 ∧ m.player2 = some p2 := by
  simpa [Match.isReady, Option.isSome_iff_exists] using hready

section Matches

variable (desk : Desk) {id id' : MatchId} {f : Match → Match} (hf : ∀ m, (f m).id = m.id)

include hf

theorem match?_setMatch_self : (desk.setMatch id f).match? id = (desk.match? id).map f :=
  find?_modify_self hf desk.tournament.arena

theorem match?_setMatch_ne (hne : id' ≠ id) : (desk.setMatch id f).match? id' = desk.match? id' :=
  find?_modify_ne hf hne.symm desk.tournament.arena

end Matches

section Steps

variable {format : Format} {names : List DeviceId} {desk : Desk} (h : Staffed format names desk)
  {m : Match} {d : DeviceId}

include h

theorem Staffed.exists_holding (hheld : m.status.isHeld) (hm : m ∈ desk.tournament.arena) :
    ∃ d ∈ names, holding desk.devices d = some m.id := by
  obtain ⟨-, d, hd, hdevice⟩ := h.balanced.consistent.held m hm hheld
  exact ⟨d, (h.devices d).1 hd, ((h.balanced.tallies m hm).holds d).2 hdevice⟩

/-- Every match with a waiting submission is held by a device. -/
theorem Staffed.exists_holder {id : MatchId} (hid : id ∈ desk.queue) :
    ∃ d ∈ names, holding desk.devices d = some id := by
  obtain ⟨m, hm, rfl⟩ := h.balanced.queue id hid
  have hawaits := (h.balanced.tallies m hm).mem_queue_iff.1 hid
  exact h.exists_holding (by rw [hawaits]; rfl) hm

/-- No more submissions wait than there are devices. -/
theorem Staffed.length_keys_le : desk.queue.keys.length ≤ names.length := by
  have hsub : desk.queue.keys ⊆ names.filterMap (holding desk.devices) := fun id hid => by
    obtain ⟨d, hd, hholds⟩ := h.exists_holder (Std.ExtTreeMap.mem_keys.1 hid)
    exact List.mem_filterMap.2 ⟨d, hd, hholds⟩
  exact (Std.ExtTreeMap.nodup_keys.subperm hsub).length_le.trans (List.length_filterMap_le ..)

theorem Staffed.exists_device (hd : d ∈ names) : ∃ device, desk.devices[d]? = some device :=
  Option.isSome_iff_exists.1 (Std.ExtTreeMap.mem_iff_isSome_getElem?.1 ((h.devices d).2 hd))

/-- A ready match is handed to an idle device, which begins it. -/
theorem Staffed.hand (hm : m ∈ desk.tournament.arena) (hs : m.status = .pending)
    (hready : m.isReady) (hd : d ∈ names) (hfree : holding desk.devices d = none) :
    ∃ desk', begin desk m.id d = .ok desk' ∧ Staffed format names desk' ∧ Shifted desk desk' ∧
      desk'.queue = desk.queue ∧
      (∀ d', holding desk'.devices d' = if d = d' then some m.id else holding desk.devices d') ∧
      ∀ id, id ≠ m.id → desk'.match? id = desk.match? id := by
  obtain ⟨device, hdevice⟩ := h.exists_device hd
  have hidle : device.holding = none := by simpa [holding, hdevice] using hfree
  have hfind : desk.match? m.id = some m := h.balanced.ordered.find? hm
  obtain ⟨p1, p2, h1, h2⟩ := exists_players hready
  let assigned : Desk :=
    { desk.setMatch m.id fun m => { m with status := .assigned, device := some d } with
      devices := desk.devices.insert d { device with holding := some m.id }
      events := desk.events ++ [.matchAssigned m.id d p1 p2] }
  have hassign : Accepts desk (.assign m.id d) assigned :=
    .assign m.id d device m p1 p2 hdevice hidle hfind hs h1 h2
  have hfind' : assigned.match? m.id = some { m with status := .assigned, device := some d } :=
    (match?_setMatch_self desk (f := fun m => { m with status := .assigned, device := some d })
      fun _ => rfl).trans (congrArg _ hfind)
  have hstart : Accepts assigned (.startMatch m.id)
      (assigned.setMatch m.id fun m => { m with status := .inProgress }) :=
    .startMatch m.id _ hfind' rfl
  refine ⟨assigned.setMatch m.id fun m => { m with status := .inProgress }, ?_, ?_, ?_, rfl,
    fun d' => holding_insert, fun id hne => ?_⟩
  · have hdone : desk.assign m.id d = .done assigned () := by
      simp only [Desk.assign, hdevice, hidle, hfind, hs, h1, h2, ne_eq, not_true_eq_false,
        if_false]
      rfl
    have hgo : assigned.startMatch m.id =
        .done (assigned.setMatch m.id fun m => { m with status := .inProgress }) () := by
      simp only [Desk.startMatch, transition, hfind']
      rfl
    simp only [begin, hdone]
    change (assigned.startMatch m.id).toExcept = _
    rw [hgo]
    rfl
  · exact ⟨(h.balanced.accepts hassign).accepts hstart,
      fun d' => (mem_devices_insert ((h.devices d).2 hd)).trans (h.devices d'), h.modest⟩
  · refine ⟨(hstart.unheld rfl).trans (hassign.unheld rfl), ?_, ?_⟩
    · change approvals (desk.events ++ _) = _
      rw [approvals_append]
      exact List.append_nil _
    · change rejections (desk.events ++ _) = _
      rw [rejections_append]
      exact List.append_nil _
  · exact Eq.trans (match?_setMatch_ne assigned (fun _ => rfl) hne)
      (match?_setMatch_ne desk (fun _ => rfl) hne)

/-- A device reports a result of the match it holds. -/
theorem Staffed.report {id : MatchId} (hd : holding desk.devices d = some id) (dice : Dice)
    (thrown : Nat) :
    ∃ desk' thrown', report dice desk thrown d id = .ok (desk', thrown') ∧
      Staffed format names desk' ∧ Shifted desk desk' ∧ desk'.devices = desk.devices ∧
      ∀ id', id' ∈ desk'.queue ↔ id' = id ∨ id' ∈ desk.queue := by
  obtain ⟨m, hm, rfl⟩ := h.balanced.devices d id hd
  have hdevice := ((h.balanced.tallies m hm).holds d).1 hd
  have hheld : m.status.isHeld := by
    rw [← (h.balanced.tallies m hm).device, hdevice]
    rfl
  have hfind : desk.match? m.id = some m := h.balanced.ordered.find? hm
  obtain ⟨p1, p2, h1, h2⟩ := exists_players (h.balanced.ready hm hheld)
  obtain ⟨hwithin, hwinner⟩ :=
    result_spec dice thrown desk.tournament.scoring.bestOf.setsToWin p1 p2
  rcases hres : result dice thrown desk.tournament.scoring.bestOf.setsToWin p1 p2 with ⟨o, thrown'⟩
  rw [hres] at hwithin hwinner
  have hplays : m.hasPlayer o.winner := by
    rcases hwinner with rfl | rfl <;> simp [Match.hasPlayer, h1, h2]
  have hcan : m.status.canBecome .awaitingApproval := by
    cases hs : m.status <;> rw [hs] at hheld <;> first | rfl | cases hheld
  let s : Submission := ⟨m.id, d, o, .epoch⟩
  let queued : Desk :=
    { desk.setMatch m.id fun m => { m with status := .awaitingApproval } with
      queue := desk.queue.insert m.id s }
  have hsubmit : Accepts desk (.submit s) queued := .submit s m hfind hcan hdevice hplays
  refine ⟨queued, thrown', ?_, ⟨h.balanced.accepts hsubmit, h.devices, fun id s' hs' => ?_⟩,
    ⟨hsubmit.unheld rfl, rfl, rfl⟩, rfl, fun id' => ?_⟩
  · have hdone : desk.submit s = .done queued () := by
      simp only [Desk.submit, s, hfind, hcan, hdevice, hplays, Bool.not_true, ne_eq,
        not_true_eq_false, Bool.false_eq_true, if_false]
      rfl
    simp only [Simulation.report, hfind, h1, h2, hres]
    change ((desk.submit s).toExcept >>= _) = _
    rw [hdone]
    rfl
  · by_cases hid : id = m.id
    · subst hid
      have hs' : (desk.queue.insert m.id s)[m.id]? = some s' := hs'
      rw [Std.ExtTreeMap.getElem?_insert_self] at hs'
      cases hs'
      exact hwithin
    · exact h.modest id s' ((queue_insert_of_ne hid).symm.trans hs')
  · change id' ∈ desk.queue.insert m.id s ↔ _
    rw [Std.ExtTreeMap.mem_insert, Std.LawfulEqCmp.compare_eq_iff_eq, eq_comm]

/-- A waiting result is rejected, and its match stays with its device. -/
theorem Staffed.reject {id : MatchId} (hid : id ∈ desk.queue) (reason : String) :
    ∃ desk', desk.reject id reason = .done desk' () ∧ Staffed format names desk' ∧
      desk'.tournament.unheld = desk.tournament.unheld ∧
      approvals desk'.events = approvals desk.events ∧
      rejections desk'.events = rejections desk.events ++ [id] ∧
      desk'.devices = desk.devices ∧ desk'.queue = desk.queue.erase id := by
  obtain ⟨m, hm, rfl⟩ := h.balanced.queue id hid
  have hawaits := (h.balanced.tallies m hm).mem_queue_iff.1 hid
  have hfind : desk.match? m.id = some m := h.balanced.ordered.find? hm
  obtain ⟨s, hs⟩ := Option.isSome_iff_exists.1 (Std.ExtTreeMap.mem_iff_isSome_getElem?.1 hid)
  have hcan : m.status.canBecome .assigned := by
    rw [hawaits]
    rfl
  have hreject : Accepts desk (.reject m.id reason) _ := .reject m.id reason s m hs hfind hcan
  refine ⟨_, ?_, ⟨h.balanced.accepts hreject, h.devices, fun id s' hs' => ?_⟩,
    hreject.unheld rfl, ?_, ?_, rfl, rfl⟩
  · simp only [Desk.reject, transition, hs, hfind, hcan, if_true]
    rfl
  · rw [Std.ExtTreeMap.getElem?_erase] at hs'
    split_ifs at hs'
    exact h.modest id s' hs'
  · change approvals (desk.events ++ _) = _
    rw [approvals_append]
    exact List.append_nil _
  · change rejections (desk.events ++ _) = _
    rw [rejections_append]
    rfl

/-- A waiting result is approved: one match more has been played, and its device is free. Only the
ids for the matches that follow may run out. -/
theorem Staffed.approve {c : Config} {t₀ : Tournament}
    (hmodest : Tournament.Modest winningScore c t₀ desk.tournament.unheld) {id : MatchId}
    (hid : id ∈ desk.queue) :
    (∃ desk' effects, desk.approve id = .done desk' effects ∧ Staffed format names desk' ∧
      Tournament.Modest winningScore c t₀ desk'.tournament.unheld ∧
      (playedIds desk'.tournament).Perm (id :: playedIds desk.tournament) ∧
      approvals desk'.events = approvals desk.events ++ [id] ∧
      rejections desk'.events = rejections desk.events ∧
      (∀ d id', id' ≠ id →
        (holding desk'.devices d = some id' ↔ holding desk.devices d = some id')) ∧
      desk'.queue = desk.queue.erase id) ∨
    ¬Tournament.Fits c.format c.players.length ∧
      (desk.approve id).answer = .error .outOfRange := by
  obtain ⟨m, hm, rfl⟩ := h.balanced.queue id hid
  obtain ⟨s, hs⟩ := Option.isSome_iff_exists.1 (Std.ExtTreeMap.mem_iff_isSome_getElem?.1 hid)
  have hqueued := (h.balanced.tallies m hm).queued
  rw [hs] at hqueued
  obtain ⟨hawaits, -, hwinner⟩ := hqueued
  have hready := h.balanced.ready hm (by rw [hawaits]; rfl)
  have hcheck : checkOutcome m s.outcome = .ok () :=
    checkOutcome_eq_ok_iff.2 ⟨by rw [hawaits]; rfl, hready, hwinner⟩
  rcases hmodest.record_held (by decide) h.balanced.running (h.balanced.ordered.find? hm) hcheck
    (h.modest m.id s hs) with ⟨t, effects, hrec, hmodest', hplayed⟩ | ⟨hfits, hover⟩
  swap
  · exact .inr ⟨hfits, by simp only [Desk.approve, hs, settle, hover]; rfl⟩
  have happrove : Accepts desk (.approve m.id) _ := .approve m.id s t effects hs hrec
  have hevents : (desk.settled m.id s.outcome (some s.device) (desk.queue.erase m.id) t
      effects).events = desk.events ++ ([.resultApproved m.id s.outcome.winner] ++
        notices t effects) := rfl
  refine .inl ⟨_, effects, ?_, ⟨h.balanced.accepts happrove, fun d => ?_, fun id s' hs' => ?_⟩,
    ?_, ?_, ?_, ?_, fun d id' hne => holding_freeHolder_of_ne hne _ _, settled_queue ..⟩
  · simp only [Desk.approve, hs, settle, hrec, Reply.done, settled]
    rw [freeHolder_eq]
  · exact (mem_devices_freeHolder _ _ _ _).trans (h.devices d)
  · rw [settled_queue, Std.ExtTreeMap.getElem?_erase] at hs'
    split_ifs at hs'
    exact h.modest id s' hs'
  · rwa [settled_tournament]
  · rw [settled_tournament, ← playedIds_unheld, ← playedIds_unheld desk.tournament]
    exact hplayed.map _
  · rw [hevents, approvals_append, approvals_append]
    simp only [approvals, notices_approved]
    rfl
  · rw [hevents, rejections_append, rejections_append, rejections_notices]
    exact List.append_nil _

end Steps

end Tourney.Simulation
