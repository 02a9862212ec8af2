import Tourney.Proofs.Simulation.Turn

/-!
# Simulations play to the end

A simulation counts up its approvals and rejections with every turn (`Underway.advances`), and no
match is approved twice or rejected twice. So a tournament with no more matches than half the steps
that are granted is played to its end, whatever the dice (`plays_out`).
-/

namespace Tourney.Simulation

open Arena Desk Tournament

/-- The notices that a run takes in. -/
def heard (dice : Dice) : Nat → Simulation → List Desk.Event
  | 0, _ => []
  | n + 1, sim =>
    if sim.desk.tournament.isComplete then []
    else
      match turn dice sim with
      | .error _ => []
      | .ok sim' => sim'.desk.events ++ heard dice n sim'.takeNotices

/-- A simulation that has played its tournament to the end and has taken in these notices. -/
structure PlayedOut (c : Config) (events : List Desk.Event) (sim : Simulation) : Prop where
  complete : sim.desk.tournament.status = .complete
  length : sim.desk.tournament.arena.length = matchCount c.format c.players.length
  champion : ∃ p ∈ c.players, sim.desk.tournament.champion = some p ∧ sim.champion = some p
  /-- Every match with both seats taken has been approved once. -/
  approvals : (approvals events).Perm
    ((sim.desk.tournament.arena.filter (·.isReady)).map (·.id))
  approved : sim.approved = sim.desk.tournament.arena.countP (·.isReady)
  /-- No match has been rejected twice. -/
  once : (rejections events).Nodup
  rejected : sim.rejected = (rejections events).length
  fewer : sim.rejected ≤ sim.approved
  queue : sim.desk.queue = ∅
  devices : ∀ d, d ∈ sim.desk.devices ↔ d ∈ sim.devices
  idle : ∀ d, sim.desk.deviceMatch? d = none

/-- A simulation goes on for so many steps. In each of them its tournament is incomplete, and a
submission is judged, though no more than there are devices. -/
inductive Advances (dice : Dice) (devices : Nat) : Nat → Simulation → Simulation → Prop
  | stop (sim : Simulation) : Advances dice devices 0 sim sim
  | step {k : Nat} {sim sim₁ last : Simulation} (hopen : ¬sim.desk.tournament.isComplete)
      (hstep : step dice sim = .ok sim₁)
      (hmore : sim.approved + sim.rejected < sim₁.approved + sim₁.rejected)
      (hfew : sim₁.approved + sim₁.rejected ≤ sim.approved + sim.rejected + devices)
      (h : Advances dice devices k sim₁ last) : Advances dice devices (k + 1) sim last

theorem heard_succ {dice : Dice} {sim sim' : Simulation}
    (hopen : ¬sim.desk.tournament.isComplete) (h : turn dice sim = .ok sim') (n : Nat) :
    heard dice (n + 1) sim = sim'.desk.events ++ heard dice n sim'.takeNotices := by
  rw [heard, if_neg hopen, h]

namespace Advances

variable {dice : Dice} {devices k : Nat} {sim last : Simulation}
  (h : Advances dice devices k sim last)

include h

/-- A run that is granted more steps goes on from there. -/
theorem runFor_add (n : Nat) : runFor dice (k + n) sim = runFor dice n last := by
  induction h with
  | stop sim => rw [Nat.zero_add]
  | step hopen hstep _ _ _ ih =>
    rw [Nat.succ_add, runFor, if_neg hopen, hstep]
    exact ih

/-- A run that is granted no more steps is given up, though every one of them has judged a
submission. -/
theorem runFor_le {n : Nat} (hn : n ≤ k) : runFor dice n sim = .error .tooManySteps := by
  induction h generalizing n with
  | stop sim =>
    obtain rfl := Nat.le_zero.1 hn
    rfl
  | step hopen hstep _ _ _ ih =>
    cases n with
    | zero => rfl
    | succ n =>
      rw [runFor, if_neg hopen, hstep]
      exact ih (Nat.le_of_succ_le_succ hn)

theorem heard_add (n : Nat) : heard dice (k + n) sim = heard dice k sim ++ heard dice n last := by
  induction h with
  | stop sim => rw [Nat.zero_add, heard, List.nil_append]
  | @step k sim sim₁ last hopen hstep _ _ _ ih =>
    rw [step_eq, map_eq_ok] at hstep
    obtain ⟨sim', hturn, rfl⟩ := hstep
    rw [Nat.succ_add, heard_succ hopen hturn, heard_succ hopen hturn, ih, List.append_assoc]

theorem counts : sim.approved + sim.rejected + k ≤ last.approved + last.rejected ∧
    last.approved + last.rejected ≤ sim.approved + sim.rejected + devices * k := by
  induction h with
  | stop sim => exact ⟨le_rfl, le_rfl⟩
  | step _ _ hmore hfew _ ih =>
    rw [Nat.mul_succ]
    omega

end Advances

section Run

variable {c : Config} {t₀ : Tournament} {names : List DeviceId} {past : List Desk.Event}
  {sim : Simulation} (h : Underway c t₀ names past sim)

include h

/-- Every turn leaves fewer approvals and rejections to come, so a simulation goes on until its
tournament is complete, or until the ids run out. -/
theorem Underway.advances (hquiet : sim.desk.events = []) (hqueue : sim.desk.queue = ∅)
    (hnames : names ≠ []) (dice : Dice) :
    ∃ k last, Advances dice names.length k sim last ∧
      Underway c t₀ names (past ++ heard dice k sim) last ∧ last.desk.events = [] ∧
      last.desk.queue = ∅ ∧ (last.desk.tournament.status = .complete ∨
        ¬Fits c.format c.players.length ∧ ¬last.desk.tournament.isComplete ∧
          step dice last = .error (.refused .outOfRange)) := by
  induction hleft : 2 * matchCount c.format c.players.length - (sim.approved + sim.rejected)
    using Nat.strong_induction_on generalizing past sim with
  | _ left ih =>
    by_cases hc : sim.desk.tournament.status = .complete
    · exact ⟨0, sim, .stop sim, by simpa only [heard, List.append_nil] using h, hquiet, hqueue,
        .inl hc⟩
    have hopen : ¬sim.desk.tournament.isComplete := by simp [isComplete, hc]
    have ho : sim.desk.tournament.Open := by
      by_contra hno
      exact hc (h.staffed.balanced.running.complete_iff.2 hno)
    rcases h.turn hnames ho dice with ⟨sim₁, hturn, h₁, hqueue₁, hmore, hfew⟩ | ⟨hfits, hover⟩
    · have hcounts := h₁.counts_le
      have hstep : step dice sim = .ok sim₁.takeNotices := by
        rw [step_eq, hturn]
        rfl
      have hless : 2 * matchCount c.format c.players.length -
          (sim₁.takeNotices.approved + sim₁.takeNotices.rejected) < left := by
        change _ - (sim₁.approved + sim₁.rejected) < left
        omega
      obtain ⟨k, last, hadv, hlast, hend⟩ := ih _ hless h₁.takeNotices rfl hqueue₁ rfl
      refine ⟨k + 1, last, .step hopen hstep hmore hfew hadv, ?_, hend⟩
      rw [heard_succ hopen hturn, ← List.append_assoc]
      exact hlast
    · refine ⟨0, sim, .stop sim, by simpa only [heard, List.append_nil] using h, hquiet, hqueue,
        .inr ⟨hfits, hopen, ?_⟩⟩
      rw [step_eq, hover]
      rfl

/-- A run reaches the end if it is granted more steps than there are approvals and rejections to
come. -/
theorem Underway.runFor (hquiet : sim.desk.events = []) (hqueue : sim.desk.queue = ∅)
    (hnames : names ≠ [])
    (hroom : (matchCount c.format c.players.length + 1) * (winningScore + 1) < UInt32.size)
    (dice : Dice) {n : Nat}
    (hn : 2 * matchCount c.format c.players.length < sim.approved + sim.rejected + n) :
    ∃ sim', runFor dice n sim = .ok sim' ∧ Underway c t₀ names (past ++ heard dice n sim) sim' ∧
      sim'.desk.events = [] ∧ sim'.desk.queue = ∅ ∧ sim'.desk.tournament.status = .complete := by
  obtain ⟨k, last, hadv, hlast, hquiet', hqueue', hend⟩ := h.advances hquiet hqueue hnames dice
  have hc := hend.resolve_right fun hover => hover.1 (fits_of_room hroom)
  have hcomplete : last.desk.tournament.isComplete = true := by simp [isComplete, hc]
  have hcounts := hlast.counts_le
  have hsteps := hadv.counts.1
  obtain ⟨n, rfl⟩ := Nat.exists_eq_add_of_lt (show k < n by omega)
  refine ⟨last, ?_, ?_, hquiet', hqueue', hc⟩
  · rw [Nat.add_assoc, hadv.runFor_add, Simulation.runFor, if_pos hcomplete]
  · rwa [Nat.add_assoc, hadv.heard_add, heard, if_pos hcomplete, List.append_nil]

/-- A simulation that has come to a complete tournament has played it out. -/
theorem Underway.playedOut (hquiet : sim.desk.events = []) (hqueue : sim.desk.queue = ∅)
    (hc : sim.desk.tournament.status = .complete) : PlayedOut c past sim := by
  have hrun := h.staffed.balanced.running
  have hlive := h.modest.live
  have hledger := h.ledger
  rw [hquiet, List.append_nil] at hledger
  have hresolved := hrun.all_resolved hc
  have hready : ∀ m ∈ sim.desk.tournament.arena, m.isPlayed = m.isReady := fun m hm => by
    have hrest := hrun.sound.coherent.atRest hm
    have hres := hresolved m hm
    cases hs : m.status <;> rw [hs] at hres <;> try cases hres
    · simp [Match.isPlayed, hs]
    · have hseat : m.seat1 = .settled none := hrest.seats_of_skipped hs .first
      simp [Match.isPlayed, hs, Match.isReady, Match.player1, hseat, Seat.settled]
  have hids : playedIds sim.desk.tournament =
      (sim.desk.tournament.arena.filter (·.isReady)).map (·.id) :=
    congrArg (List.map _) (List.filter_congr hready)
  have hidle : ∀ d, holding sim.desk.devices d = none := fun d => by
    rw [Option.eq_none_iff_forall_ne_some]
    intro id hid
    obtain ⟨m, hm, -, -, hheld⟩ := (h.staffed.balanced.consistent.devices d id).1 hid
    have hres := hresolved m hm
    cases hs : m.status <;> simp_all [MatchStatus.isHeld, MatchStatus.isResolved]
  have happroved : sim.approved = sim.desk.tournament.arena.countP (·.isReady) := by
    rw [hledger.approved, hledger.played.length_eq, hids, List.length_map,
      ← List.countP_eq_length_filter]
  have hfewer := hledger.once.subperm fun id hid =>
    (hledger.kept id hid).resolve_right fun hheld => by
      obtain ⟨d, hd⟩ := hheld
      rw [hidle d] at hd
      cases hd
  refine ⟨hc, ?_, ?_, hids ▸ hledger.played, happroved, hledger.once, hledger.rejected, ?_,
    hqueue, fun d => ?_, hidle⟩
  · rw [hrun.length_of_closed (hrun.complete_iff.1 hc), h.staffed.balanced.format]
    exact congrArg _ (congrArg _ hlive.players)
  · obtain ⟨p, hp, hchampion⟩ := hrun.exists_champion hc
    exact ⟨p, hlive.players ▸ hp, hchampion, hchampion⟩
  · rw [hledger.rejected, hledger.approved]
    exact hfewer.length_le
  · rw [h.devices]
    exact h.staffed.devices d

end Run

/-! ## Setting up -/

theorem deviceName_injective : Function.Injective deviceName := by
  intro a b hab
  have hlist : "device-".toList ++ (toString a).toList = "device-".toList ++ (toString b).toList := by
    rw [← String.toList_append, ← String.toList_append]
    exact congrArg String.toList hab
  exact Nat.repr_inj.1 (String.toList_inj.1 (List.append_cancel_left hlist))

/-- The names of so many new devices. -/
def deviceNames (n : Nat) : List DeviceId := (List.range n).map fun i => deviceName (i + 1)

theorem nodup_deviceNames (n : Nat) : (deviceNames n).Nodup :=
  List.nodup_range.map fun _ _ hab => Nat.succ.inj (deviceName_injective hab)

/-- The desk while new devices are registered, with those still to come. -/
structure Registering (t : Tournament) (names rest : List DeviceId) (desk : Desk) : Prop where
  tournament : desk.tournament = t
  queue : desk.queue = ∅
  events : desk.events = []
  idle : ∀ d, holding desk.devices d = none
  known : ∀ d, d ∈ names ↔ d ∈ desk.devices ∨ d ∈ rest
  fresh : ∀ d ∈ rest, d ∉ desk.devices
  nodup : rest.Nodup

theorem Registering.step {t : Tournament} {names rest : List DeviceId} {desk : Desk}
    {d : DeviceId} (h : Registering t names (d :: rest) desk) :
    ∃ desk', (desk.register d).toExcept = .ok desk' ∧ Registering t names rest desk' := by
  have hnone : desk.devices[d]? = none :=
    Std.ExtTreeMap.getElem?_eq_none (h.fresh d List.mem_cons_self)
  obtain ⟨hd, hrest⟩ := List.nodup_cons.1 h.nodup
  have hmem : ∀ d', d' ∈ desk.devices.insert d {} ↔ d' = d ∨ d' ∈ desk.devices := fun d' => by
    rw [Std.ExtTreeMap.mem_insert, Std.LawfulEqCmp.compare_eq_iff_eq, eq_comm]
  refine ⟨{ desk with devices := desk.devices.insert d {} }, ?_, h.tournament, h.queue, h.events,
    fun d' => ?_, fun d' => ?_, fun d' hd' => ?_, hrest⟩
  · simp only [Desk.register, hnone]
    rfl
  · change holding (desk.devices.insert d {}) d' = none
    rw [holding_insert, h.idle d']
    split_ifs <;> rfl
  · change _ ↔ d' ∈ desk.devices.insert d {} ∨ _
    rw [h.known, hmem, List.mem_cons]
    tauto
  · change d' ∉ desk.devices.insert d {}
    rw [hmem]
    rintro (rfl | hc)
    · exact hd hd'
    · exact h.fresh d' (List.mem_cons_of_mem _ hd') hc

/-- A simulation of a new tournament is set up. -/
theorem exists_create {c : Config} {stamp : Stamp} {draw : Draw} {t : Tournament}
    (h : Tournament.create c stamp draw = .ok t) (n : Nat) {rate : Double} (hrate : rate.isRate) :
    ∃ sim, Simulation.create (.ofTournament t) n rate = .ok sim ∧
      Underway c t (deviceNames n) [] sim ∧ sim.desk.events = [] ∧ sim.desk.queue = ∅ := by
  have hlive := live_of_create h
  have hbalanced := balanced_ofTournament hlive
  have hunheld := unheld_ofTournament hlive
  rw [ofTournament_eq hlive.free] at hbalanced hunheld ⊢
  obtain ⟨desk, hregister, hdone⟩ := foldlM_ok
    (f := fun (desk : Desk) d => (desk.register d).toExcept)
    (P := Registering t (deviceNames n)) (fun d rest desk hdesk => hdesk.step)
    (show Registering t (deviceNames n) (deviceNames n) ⟨t, ∅, ∅, []⟩ from
      ⟨rfl, rfl, rfl, fun d => by simp [holding], fun d => by simp, fun d hd => by simp,
        nodup_deviceNames n⟩)
  obtain ⟨t', devices, queue, events⟩ := desk
  obtain ⟨rfl, rfl, rfl, hidle, hknown, -, -⟩ := hdone
  refine ⟨{ desk := ⟨t', devices, ∅, []⟩, devices := deviceNames n, rejectRate := rate }, ?_,
    ⟨⟨?_, fun d => ?_, ?_⟩, ?_, rfl, hrate, ?_⟩, rfl, rfl⟩
  · exact bind_eq_ok.2 ⟨_, hregister, rfl⟩
  · exact hbalanced.withDevices fun d => (hidle d).trans (by simp [holding])
  · rw [hknown]
    simp
  · intro id s hs
    simp at hs
  · rw [hunheld]
    exact modest_of_create h _
  · have hnone : playedIds t' = [] := by
      rw [playedIds, List.map_eq_nil_iff, List.filter_eq_nil_iff]
      intro m hm
      rw [(fresh_of_create h m hm).unplayed]
      exact Bool.false_ne_true
    refine ⟨?_, rfl, rfl, List.nodup_nil, fun _ hid => absurd hid List.not_mem_nil,
      fun _ hid => absurd hid List.not_mem_nil, fun _ hid => absurd hid List.not_mem_nil⟩
    change List.Perm [] (playedIds t')
    rw [hnone]

/-- Whatever the dice, a tournament from a valid configuration is played to its end by any number
of devices, if the steps allowed for cover its matches twice over. -/
theorem plays_out {c : Config} {stamp : Stamp} {draw : Draw} {t : Tournament}
    (h : Tournament.create c stamp draw = .ok t) {n : Nat} (hn : 1 ≤ n) {rate : Double}
    (hrate : rate.isRate)
    (hlimit : 2 * matchCount c.format c.players.length < stepLimit) (dice : Dice) :
    ∃ sim sim', Simulation.create (.ofTournament t) n rate = .ok sim ∧ sim.run dice = .ok sim' ∧
      sim'.devices.length = n ∧ PlayedOut c (heard dice stepLimit sim) sim' := by
  obtain ⟨sim, hcreate, hunder, hquiet, hqueue⟩ := exists_create h n hrate
  have hnames : deviceNames n ≠ [] := List.ne_nil_of_length_pos (by simp [deviceNames]; omega)
  have hroom : (matchCount c.format c.players.length + 1) * (winningScore + 1) < UInt32.size := by
    have hsteps : stepLimit = 10000 := rfl
    have hscore : winningScore = 21 := rfl
    have hsize : UInt32.size = 4294967296 := rfl
    rw [hscore, hsize]
    omega
  obtain ⟨sim', hrun, hend, hquiet', hqueue', hc⟩ :=
    hunder.runFor hquiet hqueue hnames hroom dice (n := stepLimit) (by omega)
  exact ⟨sim, sim', hcreate, hrun, by rw [hend.devices, deviceNames]; simp,
    hend.playedOut hquiet' hqueue' hc⟩

/-- Two devices, and a rejection now and then. -/
theorem plays_out_smallCup :
    ∃ t, Tournament.create (smallCup .singleElimination) smallStamp .seeded = .ok t ∧
      1 ≤ 2 ∧ (Double.nearest false 1 10).isRate ∧
      2 * matchCount (smallCup .singleElimination).format
        (smallCup .singleElimination).players.length < stepLimit ∧
      ∃ sim sim', Simulation.create (.ofTournament t) 2 (Double.nearest false 1 10) = .ok sim ∧
        sim.run (Dice.ofSeed 7) = .ok sim' ∧ sim'.devices.length = 2 ∧
        PlayedOut (smallCup .singleElimination) (heard (Dice.ofSeed 7) stepLimit sim) sim' := by
  obtain ⟨t, ht, -⟩ := (create_yields (c := smallCup .singleElimination) smallStamp .seeded
    (by decide)).exists_ok (by decide)
  have hrate : (Double.nearest false 1 10).isRate := by decide +kernel
  have hlimit : 2 * matchCount (smallCup .singleElimination).format
      (smallCup .singleElimination).players.length < stepLimit := by decide
  exact ⟨t, ht, by decide, hrate, hlimit, plays_out ht (by decide) hrate hlimit (Dice.ofSeed 7)⟩

end Tourney.Simulation
