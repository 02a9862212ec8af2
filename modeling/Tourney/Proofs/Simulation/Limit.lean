import Tourney.Proofs.Simulation.Playout
import Tourney.Proofs.Simulation.Settings

/-!
# When a simulation is given up

Every step of a simulation judges a submission, and the limit counts the steps all the same. So a
run is given up exactly if its tournament takes as many steps as the limit or more
(`given_up_by_turns`), never for want of progress. Where every first submission is rejected, each
match is judged twice (`Underway.approved_le_rejected`), and a league of a hundred and one is too
long for one device (`given_up_longLeague`).
-/

namespace Tourney.Simulation

open Desk Tournament

/-- A run that is granted more steps than it takes comes to its end, any other is given up. -/
theorem Advances.run_eq {dice : Dice} {devices turns : Nat} {sim last : Simulation}
    (h : Advances dice devices turns sim last) {ending : Except Stop Simulation}
    (hend : ∀ n, runFor dice (n + 1) last = ending) :
    sim.run dice = if turns < stepLimit then ending else .error .tooManySteps := by
  unfold run
  split_ifs with hlt
  · obtain ⟨n, hn⟩ := Nat.exists_eq_add_of_lt hlt
    rw [hn, Nat.add_assoc, h.runFor_add, hend]
  · exact h.runFor_le (Nat.le_of_not_lt hlt)

/-- A simulation of a new tournament goes on until the tournament is complete or the ids run out. -/
theorem exists_advances {c : Config} {stamp : Stamp} {draw : Draw} {t : Tournament}
    (h : Tournament.create c stamp draw = .ok t) {n : Nat} (hn : 1 ≤ n) {rate : Double}
    (hrate : rate.isRate) (dice : Dice) :
    ∃ sim turns last, Simulation.create (.ofTournament t) n rate = .ok sim ∧
      Advances dice n turns sim last ∧ sim.approved + sim.rejected = 0 ∧
      Underway c t (deviceNames n) (heard dice turns sim) last ∧
      last.desk.events = [] ∧ last.desk.queue = ∅ ∧ (last.desk.tournament.status = .complete ∨
        ¬Fits c.format c.players.length ∧ ¬last.desk.tournament.isComplete ∧
          step dice last = .error (.refused .outOfRange)) := by
  obtain ⟨sim, hcreate, hunder, hquiet, hqueue⟩ := exists_create h n hrate
  have hlength : (deviceNames n).length = n := by simp [deviceNames]
  have hnames : deviceNames n ≠ [] := List.ne_nil_of_length_pos (by omega)
  obtain ⟨turns, last, hadv, hlast, hend⟩ := hunder.advances hquiet hqueue hnames dice
  rw [hlength] at hadv
  rw [List.nil_append] at hlast
  have hfresh : sim.approved + sim.rejected = 0 := by
    rw [hunder.ledger.approved, hunder.ledger.rejected, hquiet]
    rfl
  exact ⟨sim, turns, last, hcreate, hadv, hfresh, hlast, hend⟩

/-- A tournament from a valid configuration, of any size, goes on for so many steps and then is
played out, or has a match too many to give it an id. Every one of these steps judges a submission,
and no match is rejected twice. The run comes to that end if the steps are fewer than the limit, and
is given up otherwise. -/
theorem given_up_by_turns {c : Config} {stamp : Stamp} {draw : Draw} {t : Tournament}
    (h : Tournament.create c stamp draw = .ok t) {n : Nat} (hn : 1 ≤ n) {rate : Double}
    (hrate : rate.isRate) (dice : Dice) :
    ∃ sim turns last ending, Simulation.create (.ofTournament t) n rate = .ok sim ∧
      Advances dice n turns sim last ∧
      turns ≤ last.approved + last.rejected ∧ last.approved + last.rejected ≤ n * turns ∧
      (rejections (heard dice turns sim)).Nodup ∧
      last.rejected = (rejections (heard dice turns sim)).length ∧
      sim.run dice = (if turns < stepLimit then ending else .error .tooManySteps) ∧
      (ending = .ok last ∧ PlayedOut c (heard dice turns sim) last ∨
        ending = .error (.refused .outOfRange) ∧ ¬Fits c.format c.players.length) := by
  obtain ⟨sim, turns, last, hcreate, hadv, hfresh, hlast, hquiet, hqueue, hend⟩ :=
    exists_advances h hn hrate dice
  have hcounts := hadv.counts
  rw [hfresh, Nat.zero_add, Nat.zero_add] at hcounts
  have hledger := hlast.ledger
  rw [hquiet, List.append_nil] at hledger
  rcases hend with hc | ⟨hfits, hopen, hstep⟩
  · refine ⟨sim, turns, last, .ok last, hcreate, hadv, hcounts.1, hcounts.2, hledger.once,
      hledger.rejected, hadv.run_eq fun n => ?_, .inl ⟨rfl, hlast.playedOut hquiet hqueue hc⟩⟩
    rw [runFor, if_pos (by simp [isComplete, hc])]
  · refine ⟨sim, turns, last, .error (.refused .outOfRange), hcreate, hadv, hcounts.1, hcounts.2,
      hledger.once, hledger.rejected, hadv.run_eq fun n => ?_, .inr ⟨rfl, hfits⟩⟩
    rw [runFor, if_neg hopen, hstep]
    rfl

/-- Two devices, and a rejection now and then. -/
theorem given_up_by_turns_smallCup :
    ∃ t, Tournament.create (smallCup .singleElimination) smallStamp .seeded = .ok t ∧
      1 ≤ 2 ∧ (Double.nearest false 1 10).isRate ∧
      ∃ sim turns last ending,
        Simulation.create (.ofTournament t) 2 (Double.nearest false 1 10) = .ok sim ∧
        Advances (Dice.ofSeed 7) 2 turns sim last ∧
        sim.run (Dice.ofSeed 7) =
          (if turns < stepLimit then ending else .error .tooManySteps) ∧
        (ending = .ok last ∧
            PlayedOut (smallCup .singleElimination) (heard (Dice.ofSeed 7) turns sim) last ∨
          ending = .error (.refused .outOfRange) ∧
            ¬Fits .singleElimination (smallCup .singleElimination).players.length) := by
  obtain ⟨t, ht, -⟩ := (create_yields (c := smallCup .singleElimination) smallStamp .seeded
    (by decide)).exists_ok (by decide)
  have hrate : (Double.nearest false 1 10).isRate := by decide +kernel
  obtain ⟨sim, turns, last, ending, hcreate, hadv, -, -, -, -, hrun, hend⟩ :=
    given_up_by_turns ht (show 1 ≤ 2 by decide) hrate (Dice.ofSeed 7)
  exact ⟨t, ht, by decide, hrate, sim, turns, last, ending, hcreate, hadv, hrun, hend⟩

/-! ## Every first submission rejected -/

/-- As many submissions have been rejected as matches have been judged. -/
structure Strict (rate : Double) (sim : Simulation) : Prop where
  rate : sim.rejectRate = rate
  firsts : sim.rejected = sim.judged.length

section Strict

variable {rate : Double} {dice : Dice} (hdice : ∀ i, Dice.chance? rate (dice i) = some true)

include hdice

/-- When every chance comes true, only what has been rejected before is approved. -/
theorem Strict.judge {sim sim' : Simulation} {id : MatchId} (h : Strict rate sim)
    (hjudge : judge dice sim id = .ok sim') : Strict rate sim' := by
  unfold Simulation.judge at hjudge
  split_ifs at hjudge
  · unfold approve at hjudge
    dsimp only at hjudge
    split at hjudge
    · cases hjudge
      exact ⟨h.rate, h.firsts⟩
    · cases hjudge
  · simp only [h.rate, hdice] at hjudge
    obtain ⟨desk, -, hjudge⟩ := bind_eq_ok.1 hjudge
    cases hjudge
    exact ⟨rfl, congrArg Nat.succ h.firsts⟩

theorem Strict.turn {sim sim' : Simulation} (h : Strict rate sim)
    (hturn : turn dice sim = .ok sim') : Strict rate sim' := by
  unfold Simulation.turn at hturn
  obtain ⟨desk, -, hturn⟩ := bind_eq_ok.1 hturn
  dsimp only at hturn
  split_ifs at hturn
  · cases hturn
  obtain ⟨sim₁, hreport, hturn⟩ := bind_eq_ok.1 hturn
  have h₁ : Strict rate sim₁ := by
    rcases hr : reportAll dice { sim with desk } with f | sim₂ <;> rw [hr] at hreport <;>
      cases hreport
    obtain ⟨⟨desk', thrown⟩, -, hr⟩ := bind_eq_ok.1 hr
    cases hr
    exact ⟨h.rate, h.firsts⟩
  exact foldlM_keeps (fun _ _ _ hsim hjudge => hsim.judge hdice hjudge) h₁ hturn

theorem Strict.advances {devices turns : Nat} {sim last : Simulation} (h : Strict rate sim)
    (hadv : Advances dice devices turns sim last) : Strict rate last := by
  induction hadv with
  | stop sim => exact h
  | step _ hstep _ _ _ ih =>
    rw [step_eq, map_eq_ok] at hstep
    obtain ⟨sim', hturn, rfl⟩ := hstep
    have h' := h.turn hdice hturn
    exact ih ⟨h'.rate, h'.firsts⟩

end Strict

theorem strict_of_create {desk : Desk} {n : Nat} {rate : Double} {sim : Simulation}
    (h : Simulation.create desk n rate = .ok sim) : Strict rate sim := by
  obtain ⟨desk', -, h⟩ := bind_eq_ok.1 h
  cases h
  exact ⟨rfl, rfl⟩

/-- Where all that has been judged has been rejected, no more has been approved than rejected. -/
theorem Underway.approved_le_rejected {c : Config} {t₀ : Tournament} {names : List DeviceId}
    {past : List Desk.Event} {sim : Simulation} (h : Underway c t₀ names past sim) {rate : Double}
    (hs : Strict rate sim) : sim.approved ≤ sim.rejected := by
  have hnd : (approvals (past ++ sim.desk.events)).Nodup :=
    h.ledger.played.nodup_iff.2
      (h.staffed.balanced.ordered.nodup.sublist (List.filter_sublist.map _))
  rw [h.ledger.approved, hs.firsts]
  exact (hnd.subperm h.ledger.settled).length_le

/-- In a league every match has two players, so all of them are approved. -/
theorem Underway.approved_of_roundRobin {c : Config} {t₀ : Tournament} {names : List DeviceId}
    {past : List Desk.Event} {sim : Simulation} (h : Underway c t₀ names past sim)
    (hf : c.format = .roundRobin) {events : List Desk.Event} (hout : PlayedOut c events sim) :
    sim.approved = matchCount c.format c.players.length := by
  have hrunning := h.staffed.balanced.running
  have hformat := h.staffed.balanced.format.trans hf
  have hready : ∀ m ∈ sim.desk.tournament.arena, m.isReady := fun m hm => by
    have hleagues := leagues_roundRobin hformat
    rcases hrunning.stage_cases (by simp [hleagues]) hm with hs | ⟨-, plan, g, hgroups, -⟩
    · exact hrunning.isReady hm hs
    · rw [hformat] at hgroups
      cases hgroups
  rw [hout.approved, List.countP_eq_length.2 hready, hout.length]

/-- A league of a hundred and one with one device, and a reject rate just below one. -/
def longLeague : Settings where
  format := .roundRobin
  scoring := {}
  players := 101
  devices := 1
  seed := none
  rejectRate := ⟨0x3fefffffffffffff⟩
  out := none

/-- Although every step judges a submission and no match is rejected twice, the run is given up. -/
theorem given_up_longLeague : ∃ t sim turns last, longLeague.check = .ok () ∧
    Tournament.create (CommandLine.config longLeague) smallStamp .seeded = .ok t ∧
    Simulation.create (.ofTournament t) longLeague.devices longLeague.rejectRate = .ok sim ∧
    Advances (fun _ => 0) longLeague.devices turns sim last ∧ stepLimit ≤ turns ∧
    (rejections (heard (fun _ => 0) turns sim)).Nodup ∧
    PlayedOut (CommandLine.config longLeague) (heard (fun _ => 0) turns sim) last ∧
    sim.run (fun _ => 0) = .error .tooManySteps := by
  have hcheck : longLeague.check = .ok () := by decide +kernel
  have hplayers : (CommandLine.config longLeague).players.length = 101 :=
    CommandLine.length_entrants 101
  have hfits : Fits (CommandLine.config longLeague).format
      (CommandLine.config longLeague).players.length := by
    rw [hplayers]
    decide
  obtain ⟨t, ht, -⟩ := (create_yields smallStamp .seeded
    (Settings.check_config hcheck rfl)).exists_ok hfits
  obtain ⟨-, -, -, hrate⟩ := Settings.check_eq_ok hcheck
  obtain ⟨sim, turns, last, hcreate, hadv, hfresh, hlast, hquiet, hqueue, hend⟩ :=
    exists_advances ht (show 1 ≤ longLeague.devices by decide) hrate fun _ => 0
  have hc := hend.resolve_right fun hover => hover.1 hfits
  have hout := hlast.playedOut hquiet hqueue hc
  have hdice : Dice.chance? longLeague.rejectRate 0 = some true := by decide +kernel
  have hstrict := (strict_of_create hcreate).advances (fun _ => hdice) hadv
  have hrejected := hlast.approved_le_rejected hstrict
  have happroved := hlast.approved_of_roundRobin rfl hout
  rw [hplayers, show matchCount (CommandLine.config longLeague).format 101 = 5050 from rfl]
    at happroved
  have hcounts := hadv.counts
  have hlimit : stepLimit ≤ turns := by
    have hone : longLeague.devices = 1 := rfl
    rw [hfresh, hone] at hcounts
    unfold stepLimit
    omega
  have honce := hlast.ledger.once
  rw [hquiet, List.append_nil] at honce
  exact ⟨t, sim, turns, last, hcheck, ht, hcreate, hadv, hlimit, honce, hout,
    hadv.runFor_le hlimit⟩

end Tourney.Simulation
