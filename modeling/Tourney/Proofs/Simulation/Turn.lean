import Tourney.Proofs.Simulation.Staffed

/-!
# One turn of a simulation

The phases of a step, each a loop with what holds of the rest of its work: handing out ready
matches (`Staffed.dispatch`), reporting (`reportAll_ok`), judging (`Judging.judge`). In a turn of an
incomplete tournament somebody plays, so one submission at least is judged and the queue is empty
again (`Underway.turn`).
-/

namespace Tourney.Simulation

open Arena Desk

/-! ## Dispatch -/

theorem pairwise_zip {α β : Type} {as : List α} {bs : List β} (ha : as.Nodup) (hb : bs.Nodup) :
    (as.zip bs).Pairwise fun p q => p.1 ≠ q.1 ∧ p.2 ≠ q.2 := by
  induction as generalizing bs with
  | nil => exact .nil
  | cons a as ih =>
    cases bs with
    | nil => exact .nil
    | cons b bs =>
      rw [List.nodup_cons] at ha hb
      refine .cons (fun p hp => ?_) (ih ha.2 hb.2)
      obtain ⟨hp1, hp2⟩ := List.of_mem_zip (a := p.1) (b := p.2) hp
      exact ⟨(ne_of_mem_of_not_mem hp1 ha.1).symm, (ne_of_mem_of_not_mem hp2 hb.1).symm⟩

/-- The desk while matches are handed out, with the pairs of a match and a device still to come. -/
structure Handing (format : Format) (names : List DeviceId) (start : Desk)
    (pairs : List (MatchId × DeviceId)) (desk : Desk) : Prop where
  staffed : Staffed format names desk
  shifted : Shifted start desk
  queue : desk.queue = start.queue
  keeps : ∀ d id, holding start.devices d = some id → holding desk.devices d = some id
  ready : ∀ p ∈ pairs, ∃ m, desk.match? p.1 = some m ∧ m.status = .pending ∧ m.isReady
  idle : ∀ p ∈ pairs, p.2 ∈ names ∧ holding desk.devices p.2 = none
  apart : pairs.Pairwise fun p q => p.1 ≠ q.1 ∧ p.2 ≠ q.2
  busy : pairs ≠ [] ∨ ∃ d ∈ names, ∃ id, holding desk.devices d = some id

section Dispatch

variable {format : Format} {names : List DeviceId} {desk : Desk}

theorem Handing.step {start : Desk} {p : MatchId × DeviceId} {pairs : List (MatchId × DeviceId)}
    (h : Handing format names start (p :: pairs) desk) :
    ∃ desk', begin desk p.1 p.2 = .ok desk' ∧ Handing format names start pairs desk' := by
  obtain ⟨id, d⟩ := p
  obtain ⟨m, hm, hs, hready⟩ := h.ready _ List.mem_cons_self
  obtain ⟨hd, hfree⟩ := h.idle _ List.mem_cons_self
  obtain ⟨hmem, rfl⟩ := mem_of_find? hm
  obtain ⟨hapart, hrest⟩ := List.pairwise_cons.1 h.apart
  obtain ⟨desk', hbegin, hstaffed, hshifted, hqueue, hholding, hmatch⟩ :=
    h.staffed.hand hmem hs hready hd hfree
  refine ⟨desk', hbegin, hstaffed, h.shifted.trans hshifted, hqueue.trans h.queue,
    fun d' id hheld => ?_, fun p hp => ?_, fun p hp => ?_, hrest,
    .inr ⟨d, hd, m.id, by rw [hholding, if_pos rfl]⟩⟩
  · have hkept := h.keeps d' id hheld
    rw [hholding, if_neg, hkept]
    rintro rfl
    rw [hfree] at hkept
    cases hkept
  · rw [hmatch p.1 (hapart p hp).1.symm]
    exact h.ready p (List.mem_cons_of_mem _ hp)
  · rw [hholding, if_neg (hapart p hp).2]
    exact h.idle p (List.mem_cons_of_mem _ hp)

/-- The devices with nothing to score are those that hold no match. -/
theorem mem_idleDevices {desk : Desk} {d : DeviceId} :
    d ∈ desk.idleDevices ↔ d ∈ desk.devices ∧ holding desk.devices d = none := by
  unfold idleDevices holding
  simp only [List.mem_map, List.mem_filter, Prod.exists,
    Std.ExtTreeMap.mem_toList_iff_getElem?_eq_some]
  constructor
  · rintro ⟨d', device, ⟨hdevice, hidle⟩, rfl⟩
    refine ⟨Std.ExtTreeMap.mem_iff_isSome_getElem?.2 (by rw [hdevice]; rfl), ?_⟩
    rw [hdevice]
    simpa using hidle
  · rintro ⟨hd, hidle⟩
    obtain ⟨device, hdevice⟩ :=
      Option.isSome_iff_exists.1 (Std.ExtTreeMap.mem_iff_isSome_getElem?.1 hd)
    refine ⟨d, device, ⟨hdevice, ?_⟩, rfl⟩
    rw [hdevice] at hidle
    simpa using hidle

theorem nodup_idleDevices (desk : Desk) : desk.idleDevices.Nodup := by
  have hkeys : (desk.devices.toList.map Prod.fst).Nodup := by
    rw [Std.ExtTreeMap.map_fst_toList_eq_keys]
    exact Std.ExtTreeMap.nodup_keys
  exact hkeys.sublist (List.filter_sublist.map _)

variable (h : Staffed format names desk)

include h

theorem Staffed.nodup_ready : (desk.readyMatches.map (·.id)).Nodup :=
  h.balanced.ordered.nodup.sublist (List.filter_sublist.map _)

/-- If nobody scores a match while the tournament is open, a match is ready and waits. -/
theorem Staffed.exists_ready (ho : desk.tournament.Open)
    (hnobody : ∀ d ∈ names, holding desk.devices d = none) : desk.readyMatches ≠ [] := by
  obtain ⟨m, hm, hopen⟩ := ho
  obtain ⟨m, hm, hopen, hready⟩ := h.balanced.running.sound.coherent.exists_ready hm hopen
  have hpending : m.status = .pending := by
    have hheld : ¬m.status.isHeld := fun hheld => by
      obtain ⟨d, hd, hholds⟩ := h.exists_holding hheld hm
      rw [hnobody d hd] at hholds
      cases hholds
    cases hs : m.status <;> simp_all [MatchStatus.isHeld, MatchStatus.isResolved]
  refine List.ne_nil_of_mem (a := m) (List.mem_filter.2 ⟨hm, ?_⟩)
  simp [hpending, hready]

theorem Staffed.handing (hnames : names ≠ []) (ho : desk.tournament.Open) :
    Handing format names desk ((desk.readyMatches.map (·.id)).zip desk.idleDevices) desk where
  staffed := h
  shifted := .refl desk
  queue := rfl
  keeps _ _ hheld := hheld
  ready p hp := by
    obtain ⟨m, hm, hid⟩ := List.mem_map.1 (List.of_mem_zip (a := p.1) (b := p.2) hp).1
    obtain ⟨hm, hready⟩ := List.mem_filter.1 hm
    refine ⟨m, hid ▸ h.balanced.ordered.find? hm, ?_⟩
    simpa using hready
  idle p hp := by
    obtain ⟨hd, hfree⟩ := mem_idleDevices.1 (List.of_mem_zip (a := p.1) (b := p.2) hp).2
    exact ⟨(h.devices p.2).1 hd, hfree⟩
  apart := pairwise_zip h.nodup_ready (nodup_idleDevices desk)
  busy := by
    by_cases hbusy : ∃ d ∈ names, ∃ id, holding desk.devices d = some id
    · exact .inr hbusy
    · have hnobody : ∀ d ∈ names, holding desk.devices d = none := fun d hd => by
        rw [Option.eq_none_iff_forall_ne_some]
        exact fun id hid => hbusy ⟨d, hd, id, hid⟩
      obtain ⟨d, rest, rfl⟩ := List.exists_cons_of_ne_nil hnames
      have hidle : desk.idleDevices ≠ [] := List.ne_nil_of_mem
        (mem_idleDevices.2 ⟨(h.devices d).2 List.mem_cons_self, hnobody d List.mem_cons_self⟩)
      refine .inl fun hnil => ?_
      rcases List.zip_eq_nil_iff.1 hnil with hready | hnone
      · exact h.exists_ready ho hnobody (List.map_eq_nil_iff.1 hready)
      · exact hidle hnone

/-- In an open tournament somebody has a match to score after the hand-out. -/
theorem Staffed.dispatch (hnames : names ≠ []) (ho : desk.tournament.Open) :
    ∃ desk', dispatch desk = .ok desk' ∧ Handing format names desk [] desk' :=
  foldlM_ok (fun _ _ _ h => h.step) (h.handing hnames ho)

end Dispatch

/-! ## Reports -/

/-- The desk while devices report, with those still to come. -/
structure Reporting (format : Format) (names : List DeviceId) (start : Desk)
    (pairs : List (DeviceId × MatchId)) (desk : Desk) : Prop where
  staffed : Staffed format names desk
  shifted : Shifted start desk
  devices : desk.devices = start.devices
  holds : ∀ p ∈ pairs, holding desk.devices p.1 = some p.2
  waits : pairs ≠ [] ∨ ∃ id, id ∈ desk.queue

section Report

variable {format : Format} {names : List DeviceId}

theorem Reporting.step {start desk : Desk} {p : DeviceId × MatchId}
    {pairs : List (DeviceId × MatchId)} (h : Reporting format names start (p :: pairs) desk)
    (dice : Dice) (thrown : Nat) :
    ∃ desk' thrown', report dice desk thrown p.1 p.2 = .ok (desk', thrown') ∧
      Reporting format names start pairs desk' := by
  obtain ⟨desk', thrown', hreport, hstaffed, hshifted, hdevices, hqueue⟩ :=
    h.staffed.report (h.holds p List.mem_cons_self) dice thrown
  refine ⟨desk', thrown', hreport, hstaffed, h.shifted.trans hshifted, hdevices.trans h.devices,
    fun q hq => ?_, .inr ⟨p.2, (hqueue p.2).2 (.inl rfl)⟩⟩
  rw [hdevices]
  exact h.holds q (List.mem_cons_of_mem _ hq)

/-- Where somebody scores a match, a submission waits once everybody has reported. -/
theorem reportAll_ok {sim : Simulation} (h : Staffed format names sim.desk)
    (hdevices : sim.devices = names)
    (hbusy : ∃ d ∈ names, ∃ id, holding sim.desk.devices d = some id) (dice : Dice) :
    sim.busy ≠ [] ∧ ∃ desk' thrown', reportAll dice sim =
      .ok { sim with desk := desk', thrown := thrown' } ∧
      Reporting format names sim.desk [] desk' := by
  have hmem : ∀ p ∈ sim.busy, holding sim.desk.devices p.1 = some p.2 := fun p hp => by
    obtain ⟨d, -, hd⟩ := List.mem_filterMap.1 hp
    obtain ⟨id, hid, rfl⟩ := Option.map_eq_some_iff.1 hd
    exact hid
  have hne : sim.busy ≠ [] := by
    obtain ⟨d, hd, id, hid⟩ := hbusy
    refine List.ne_nil_of_mem (a := (d, id)) (List.mem_filterMap.2 ⟨d, hdevices ▸ hd, ?_⟩)
    exact Option.map_eq_some_iff.2 ⟨id, hid, rfl⟩
  obtain ⟨⟨desk', thrown'⟩, hfold, hreported⟩ := foldlM_ok
    (f := fun (b : Desk × Nat) p => report dice b.1 b.2 p.1 p.2)
    (P := fun pairs b => Reporting format names sim.desk pairs b.1)
    (fun p pairs b hb => by
      obtain ⟨desk', thrown', hreport, hb'⟩ := hb.step dice b.2
      exact ⟨(desk', thrown'), hreport, hb'⟩)
    (b := (sim.desk, sim.thrown)) ⟨h, .refl _, rfl, hmem, .inl hne⟩
  refine ⟨hne, desk', thrown', ?_, hreported⟩
  unfold reportAll
  exact bind_eq_ok.2 ⟨(desk', thrown'), hfold, rfl⟩

end Report

/-! ## Judgement -/

/-- What the notices so far say of the results and the rejections of a simulation. -/
structure Ledger (events : List Desk.Event) (sim : Simulation) : Prop where
  played : (approvals events).Perm (playedIds sim.desk.tournament)
  approved : sim.approved = (approvals events).length
  rejected : sim.rejected = (rejections events).length
  once : (rejections events).Nodup
  judged : ∀ id ∈ rejections events, id ∈ sim.judged
  settled : ∀ id ∈ approvals events, id ∈ sim.judged
  /-- A match whose submission was rejected is played in the end, or still with its device. -/
  kept : ∀ id ∈ rejections events, id ∈ approvals events ∨
    ∃ d, holding sim.desk.devices d = some id

/-- A simulation of a tournament that was created from a configuration, on the notices that have
been taken in before. -/
structure Underway (c : Config) (t₀ : Tournament) (names : List DeviceId)
    (past : List Desk.Event) (sim : Simulation) : Prop where
  staffed : Staffed c.format names sim.desk
  modest : Tournament.Modest winningScore c t₀ sim.desk.tournament.unheld
  devices : sim.devices = names
  rate : sim.rejectRate.isRate
  ledger : Ledger (past ++ sim.desk.events) sim

/-- The simulation while submissions are judged, with those still to come. -/
structure Judging (c : Config) (t₀ : Tournament) (names : List DeviceId)
    (past : List Desk.Event) (total : Nat) (ids : List MatchId) (sim : Simulation) : Prop
    extends Underway c t₀ names past sim where
  queue : ∀ id, id ∈ sim.desk.queue ↔ id ∈ ids
  nodup : ids.Nodup
  total : sim.approved + sim.rejected + ids.length = total

/-- A part of a simulation goes through as specified, or the ids run out, which `fit` rules out. -/
def GoesOn {α : Type} (fit : Prop) (x : Except Stop α) (P : α → Prop) : Prop :=
  (∃ a, x = .ok a ∧ P a) ∨ ¬fit ∧ x = .error (.refused .outOfRange)

section Judge

variable {c : Config} {t₀ : Tournament} {names : List DeviceId} {past : List Desk.Event}
  {total : Nat} {id : MatchId} {ids : List MatchId} {sim : Simulation}
  (h : Judging c t₀ names past total (id :: ids) sim)

theorem mem_queue_erase {queue : Queue} (hq : ∀ id', id' ∈ queue ↔ id' ∈ id :: ids)
    (hn : (id :: ids).Nodup) (id' : MatchId) : id' ∈ queue.erase id ↔ id' ∈ ids := by
  rw [Std.ExtTreeMap.mem_erase, hq, ne_eq, Std.LawfulEqCmp.compare_eq_iff_eq, List.mem_cons]
  constructor
  · rintro ⟨hne, rfl | hid'⟩
    · exact absurd rfl hne
    · exact hid'
  · exact fun hid' => ⟨fun hc => (List.nodup_cons.1 hn).1 (hc ▸ hid'), .inr hid'⟩

include h

theorem Judging.mem_queue : id ∈ sim.desk.queue := (h.queue id).2 List.mem_cons_self

theorem Judging.approve (hjudged : id ∈ sim.judged) :
    GoesOn (Tournament.Fits c.format c.players.length) (approve sim id)
      (Judging c t₀ names past total ids) := by
  rcases h.staffed.approve h.modest h.mem_queue with ⟨desk', effects, hdone, hstaffed, hmodest,
    hplayed, happrovals, hrejections, hholding, hqueue⟩ | ⟨hfits, hover⟩
  swap
  · exact .inr ⟨hfits, by simp only [Simulation.approve, hover]⟩
  have hledger := h.ledger
  have happroved : approvals (past ++ desk'.events) =
      approvals (past ++ sim.desk.events) ++ [id] := by
    rw [approvals_append, happrovals, approvals_append, List.append_assoc]
  have hrejected : rejections (past ++ desk'.events) = rejections (past ++ sim.desk.events) := by
    rw [rejections_append, hrejections, rejections_append]
  refine .inl ⟨{ sim with desk := desk', approved := sim.approved + 1 }, ?_, ⟨hstaffed, hmodest,
    h.devices, h.rate, ⟨?_, ?_, ?_, ?_, ?_, ?_, ?_⟩⟩, fun id' => ?_, (List.nodup_cons.1 h.nodup).2,
    ?_⟩
  · simp only [Simulation.approve, hdone]
    rfl
  · rw [happroved]
    exact (List.perm_append_singleton ..).trans ((hledger.played.cons id).trans hplayed.symm)
  · rw [happroved, List.length_append, hledger.approved]
    rfl
  · rw [hrejected, hledger.rejected]
  · rw [hrejected]
    exact hledger.once
  · rw [hrejected]
    exact hledger.judged
  · rw [happroved]
    exact List.forall_mem_append.2 ⟨hledger.settled, fun id' hid' =>
      List.mem_singleton.1 hid' ▸ hjudged⟩
  · rw [happroved, hrejected]
    intro id' hid'
    rcases hledger.kept id' hid' with hid' | ⟨d, hd⟩
    · exact .inl (List.mem_append_left _ hid')
    · by_cases hne : id' = id
      · exact .inl (List.mem_append_right _ (List.mem_singleton.2 hne))
      · exact .inr ⟨d, (hholding d id' hne).2 hd⟩
  · change id' ∈ desk'.queue ↔ _
    rw [hqueue]
    exact mem_queue_erase h.queue h.nodup id'
  · have htotal := h.total
    rw [List.length_cons] at htotal
    change sim.approved + 1 + sim.rejected + ids.length = total
    omega

/-- A first submission may be rejected. -/
theorem Judging.reject (hjudged : id ∈ sim.judged)
    (hfirst : id ∉ rejections (past ++ sim.desk.events)) :
    ∃ sim', reject sim id = .ok sim' ∧ Judging c t₀ names past total ids sim' := by
  obtain ⟨desk', hdone, hstaffed, hunheld, happrovals, hrejections, hdevices, hqueue⟩ :=
    h.staffed.reject h.mem_queue rejectionReason
  have hledger := h.ledger
  have happroved : approvals (past ++ desk'.events) = approvals (past ++ sim.desk.events) := by
    rw [approvals_append, happrovals, approvals_append]
  have hrejected : rejections (past ++ desk'.events) =
      rejections (past ++ sim.desk.events) ++ [id] := by
    rw [rejections_append, hrejections, rejections_append, List.append_assoc]
  obtain ⟨d, -, hd⟩ := h.staffed.exists_holder h.mem_queue
  refine ⟨{ sim with desk := desk', rejected := sim.rejected + 1 }, ?_,
    ⟨hstaffed, hunheld ▸ h.modest, h.devices, h.rate, ⟨?_, ?_, ?_, ?_, ?_, ?_, ?_⟩⟩,
    fun id' => ?_, (List.nodup_cons.1 h.nodup).2, ?_⟩
  · simp only [Simulation.reject, hdone]
    rfl
  · change List.Perm _ (playedIds desk'.tournament)
    rw [happroved, ← playedIds_unheld, hunheld, playedIds_unheld]
    exact hledger.played
  · rw [happroved, hledger.approved]
  · rw [hrejected, List.length_append, hledger.rejected]
    rfl
  · rw [hrejected]
    exact (List.concat_eq_append ..) ▸ hledger.once.concat hfirst
  · rw [hrejected]
    exact List.forall_mem_append.2 ⟨hledger.judged, fun id' hid' =>
      List.mem_singleton.1 hid' ▸ hjudged⟩
  · rw [happroved]
    exact hledger.settled
  · rw [happroved, hrejected]
    change ∀ id' ∈ _, _ ∨ ∃ d, holding desk'.devices d = some id'
    rw [hdevices]
    exact List.forall_mem_append.2 ⟨hledger.kept, fun id' hid' =>
      .inr ⟨d, List.mem_singleton.1 hid' ▸ hd⟩⟩
  · change id' ∈ desk'.queue ↔ _
    rw [hqueue]
    exact mem_queue_erase h.queue h.nodup id'
  · have htotal := h.total
    rw [List.length_cons] at htotal
    change sim.approved + (sim.rejected + 1) + ids.length = total
    omega

/-- Marking a match as judged changes nothing else. -/
theorem Judging.mark (thrown : Nat) : Judging c t₀ names past total (id :: ids)
    { sim with judged := id :: sim.judged, thrown } where
  staffed := h.staffed
  modest := h.modest
  devices := h.devices
  rate := h.rate
  ledger := { h.ledger with
    judged := fun id' hid' => List.mem_cons_of_mem _ (h.ledger.judged id' hid')
    settled := fun id' hid' => List.mem_cons_of_mem _ (h.ledger.settled id' hid') }
  queue := h.queue
  nodup := h.nodup
  total := h.total

theorem Judging.judge (dice : Dice) :
    GoesOn (Tournament.Fits c.format c.players.length) (judge dice sim id)
      (Judging c t₀ names past total ids) := by
  unfold Simulation.judge
  split_ifs with hid
  · exact h.approve hid
  have hfirst : id ∉ rejections (past ++ sim.desk.events) := fun hc => hid (h.ledger.judged id hc)
  have hmark := h.mark (sim.thrown + 1)
  simp only [Dice.chance?, h.rate, if_true, Nat.add_sub_cancel]
  cases decide ((dice sim.thrown).toNat < Dice.threshold sim.rejectRate) with
  | true => exact .inl (hmark.reject List.mem_cons_self hfirst)
  | false => exact hmark.approve List.mem_cons_self

end Judge

/-! ## The turn -/

/-- A step of a simulation before it takes in the notices. -/
def turn (dice : Dice) (sim : Simulation) : Except Stop Simulation := do
  let desk ← liftDesk (dispatch sim.desk)
  let sim := { sim with desk }
  if sim.busy.isEmpty then .error .nothingToPlay
  let sim ← liftDesk (reportAll dice sim)
  judgeAll dice sim

theorem step_eq (dice : Dice) (sim : Simulation) :
    step dice sim = (turn dice sim).map takeNotices := by
  unfold step turn
  rcases liftDesk (dispatch sim.desk) with f | desk
  · rfl
  change (if ({ sim with desk } : Simulation).busy.isEmpty then _ else _) =
    (if ({ sim with desk } : Simulation).busy.isEmpty then _ else _ : Except Stop Simulation).map _
  split_ifs
  · rfl
  rcases liftDesk (reportAll dice { sim with desk }) with f | sim₁
  · rfl
  change (judgeAll dice sim₁ >>= _) = (judgeAll dice sim₁).map _
  rcases judgeAll dice sim₁ with f | sim₂ <;> rfl

section Turn

variable {c : Config} {t₀ : Tournament} {names : List DeviceId} {past : List Desk.Event}
  {sim : Simulation} (h : Underway c t₀ names past sim)

include h

/-- A simulation goes on where only who scores what has changed and nobody lets go of a match. -/
theorem Underway.shift {desk : Desk} (hstaffed : Staffed c.format names desk)
    (hshifted : Shifted sim.desk desk)
    (hkeeps : ∀ d id, holding sim.desk.devices d = some id → holding desk.devices d = some id)
    (thrown : Nat) : Underway c t₀ names past { sim with desk, thrown } where
  staffed := hstaffed
  modest := hshifted.unheld ▸ h.modest
  devices := h.devices
  rate := h.rate
  ledger := by
    have hledger := h.ledger
    have happroved : approvals (past ++ desk.events) = approvals (past ++ sim.desk.events) := by
      rw [approvals_append, hshifted.approvals, approvals_append]
    have hrejected : rejections (past ++ desk.events) = rejections (past ++ sim.desk.events) := by
      rw [rejections_append, hshifted.rejections, rejections_append]
    refine ⟨?_, happroved ▸ hledger.approved, hrejected ▸ hledger.rejected,
      hrejected ▸ hledger.once, hrejected ▸ hledger.judged, happroved ▸ hledger.settled, ?_⟩
    · change List.Perm _ (playedIds desk.tournament)
      rw [happroved, ← playedIds_unheld, hshifted.unheld, playedIds_unheld]
      exact hledger.played
    · rw [happroved, hrejected]
      exact fun id hid => (hledger.kept id hid).imp_right fun ⟨d, hd⟩ => ⟨d, hkeeps d id hd⟩

/-- In a turn of an open tournament nothing is refused but for want of ids, and one submission at
least is judged, though no more than there are devices. -/
theorem Underway.turn (hnames : names ≠ []) (ho : sim.desk.tournament.Open) (dice : Dice) :
    GoesOn (Tournament.Fits c.format c.players.length) (turn dice sim) fun sim' =>
      Underway c t₀ names past sim' ∧ sim'.desk.queue = ∅ ∧
        sim.approved + sim.rejected < sim'.approved + sim'.rejected ∧
        sim'.approved + sim'.rejected ≤ sim.approved + sim.rejected + names.length := by
  obtain ⟨desk₁, hdispatch, hhanded⟩ := h.staffed.dispatch hnames ho
  have h₁ := h.shift hhanded.staffed hhanded.shifted hhanded.keeps sim.thrown
  have hbusy := hhanded.busy.resolve_left fun hc => hc rfl
  obtain ⟨hne, desk₂, thrown, hreport, hreported⟩ := reportAll_ok h₁.staffed h₁.devices hbusy dice
  have h₂ := h₁.shift hreported.staffed hreported.shifted
    (fun d id hd => by rw [hreported.devices]; exact hd) thrown
  obtain ⟨id, hid⟩ := hreported.waits.resolve_left fun hc => hc rfl
  have hturn : Simulation.turn dice sim = judgeAll dice { sim with desk := desk₂, thrown } := by
    unfold Simulation.turn
    rw [hdispatch]
    change (if ({ sim with desk := desk₁ } : Simulation).busy.isEmpty then _ else _) = _
    rw [if_neg (by simpa using hne)]
    rw [hreport]
    rfl
  rw [hturn]
  rcases foldlM_cases (f := judge dice)
    (P := Judging c t₀ names past (sim.approved + sim.rejected + desk₂.queue.keys.length))
    (fun id ids sim hsim => hsim.judge dice)
    ⟨h₂, fun id => Std.ExtTreeMap.mem_keys.symm, Std.ExtTreeMap.nodup_keys, rfl⟩ with
    ⟨sim₃, hjudge, h₃⟩ | hover
  swap
  · exact .inr hover
  refine .inl ⟨sim₃, hjudge, h₃.toUnderway, ?_, ?_⟩
  · exact Std.ExtTreeMap.eq_empty_iff_forall_not_mem.2 fun id hid =>
      List.not_mem_nil ((h₃.queue id).1 hid)
  · have hkeys := List.length_pos_of_mem (Std.ExtTreeMap.mem_keys.2 hid)
    have hdevices := hreported.staffed.length_keys_le
    have htotal := h₃.total
    rw [List.length_nil] at htotal
    omega

/-- The notices taken in are among those of the past. -/
theorem Underway.takeNotices :
    Underway c t₀ names (past ++ sim.desk.events) sim.takeNotices where
  staffed := ⟨h.staffed.balanced.accepts .drain, h.staffed.devices, h.staffed.modest⟩
  modest := h.modest
  devices := h.devices
  rate := h.rate
  ledger := by
    change Ledger (past ++ sim.desk.events ++ []) _
    rw [List.append_nil]
    exact { h.ledger with }

/-- Each match is played at most once, and rejected at most once. -/
theorem Underway.counts_le : sim.approved ≤ Tournament.matchCount c.format c.players.length ∧
    sim.rejected ≤ Tournament.matchCount c.format c.players.length := by
  have hledger := h.ledger
  have hlen : sim.desk.tournament.arena.length ≤
      Tournament.matchCount c.format c.players.length := by
    have hle := h.modest.live.running.length_le
    rw [h.modest.live.format, h.modest.live.players] at hle
    simpa [Tournament.unheld, Tournament.withArena] using hle
  have hplayed : playedIds sim.desk.tournament ⊆ sim.desk.tournament.arena.map (·.id) :=
    List.map_subset _ List.filter_sublist.subset
  constructor
  · rw [hledger.approved, hledger.played.length_eq, playedIds, List.length_map]
    exact (List.length_filter_le ..).trans hlen
  · have hsub : rejections (past ++ sim.desk.events) ⊆
        sim.desk.tournament.arena.map (·.id) := fun id hid => by
      rcases hledger.kept id hid with hid | ⟨d, hd⟩
      · exact hplayed (hledger.played.mem_iff.1 hid)
      · obtain ⟨m, hm, rfl⟩ := h.staffed.balanced.devices d id hd
        exact List.mem_map_of_mem hm
    have hle := (hledger.once.subperm hsub).length_le
    rw [List.length_map] at hle
    rw [hledger.rejected]
    exact hle.trans hlen

end Turn

end Tourney.Simulation
