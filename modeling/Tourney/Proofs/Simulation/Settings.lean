import Tourney.CommandLine
import Tourney.Proofs.Number.Value
import Tourney.Proofs.Tournament.Qualifiers
import Tourney.Proofs.Tournament.Start

/-!
# Settings that can be played

Whatever options and variables say, settings that are read at all have passed their check
(`load_eq_ok`), and the configuration made of them passes its own (`check_config`). So they open a
tournament that runs, and no finals fail behind it (`playable_of_load`).
-/

namespace Tourney

open Arena Tournament

theorem Scoring.check_of_scoringFor {v : String} {s : Scoring} (h : Settings.scoringFor v = .ok s) :
    s.check = .ok () := by
  unfold Settings.scoringFor at h
  split at h <;> cases h <;> rfl

namespace CommandLine

theorem length_entrants (n : Nat) : (entrants n).length = n := by simp [entrants]

/-- The generated names are all different, and none is blank. -/
theorem check_entrants {n least : Nat} (h : least ≤ n) :
    Roster.check (entrants n) least = .ok () := by
  refine Roster.check_eq_ok_iff.2 ⟨by rwa [length_entrants], fun p hp => ?_, ?_⟩
  · obtain ⟨i, -, rfl⟩ := List.mem_map.1 hp
    have hP : isBlankChar 'P' = false := by decide
    simp [isBlank, hP]
  · refine List.nodup_range.map fun i j hij => ?_
    have hij := congrArg String.toList hij
    simp only [String.toList_append, List.append_cancel_left_eq, String.toList_inj] at hij
    exact Nat.succ_inj.1 (Nat.repr_inj.1 hij)

end CommandLine

namespace Settings

variable {s : Settings}

theorem check_eq_ok (h : s.check = .ok ()) : s.format.minPlayers ≤ s.players ∧
    (∀ plan, s.format = .groups plan → plan.check s.players = .ok ()) ∧ 1 ≤ s.devices ∧
      s.rejectRate.isRate := by
  unfold check at h
  by_cases hn : s.players < s.format.minPlayers
  · simp [hn, bind, Except.bind] at h
  simp only [hn, if_false, bind, Except.bind] at h
  refine ⟨Nat.le_of_not_lt hn, ?_⟩
  split at h
  · rename_i plan hf
    split at h
    · cases h
    · rename_i hp
      split_ifs at h with hd hr
      refine ⟨fun plan' hf' => ?_, Nat.one_le_iff_ne_zero.2 hd, by simpa using hr⟩
      cases hf.symm.trans hf'
      exact hp
  · rename_i hf
    split_ifs at h with hd hr
    exact ⟨fun plan hf' => absurd hf' (hf plan), Nat.one_le_iff_ne_zero.2 hd, by simpa using hr⟩

theorem check_config (h : s.check = .ok ()) (hs : s.scoring.check = .ok ()) :
    (CommandLine.config s).check = .ok () := by
  obtain ⟨hn, hplan, -⟩ := check_eq_ok h
  have hname : isBlank "Simulated Cup" = false := by decide
  have hroster : Roster.check (CommandLine.entrants s.players) s.format.minPlayers = .ok () :=
    CommandLine.check_entrants hn
  have hformat : (CommandLine.config s).checkFormat = .ok () := by
    unfold Config.checkFormat
    split
    · rename_i plan hf
      rw [show (CommandLine.config s).players.length = s.players from
        CommandLine.length_entrants s.players]
      exact hplan plan hf
    · rfl
  have hscoring : (CommandLine.config s).scoring.check = .ok () := hs
  have hroom : (CommandLine.config s).checkRoomCode = .ok () := rfl
  unfold Config.check
  simp only [show isBlank (CommandLine.config s).name = false from hname, hroom, hscoring,
    show Roster.check (CommandLine.config s).players (CommandLine.config s).format.minPlayers = _
      from hroster, hformat]
  rfl

/-- Settings that are read have passed their check, and so have their scoring rules. -/
theorem load_eq_ok {lookup : String → Option String} {o : Overrides} (h : load lookup o = .ok s) :
    s.check = .ok () ∧ s.scoring.check = .ok () := by
  unfold load at h
  dsimp only at h
  obtain ⟨finalsSize, -, h⟩ := bind_eq_ok.1 h
  split at h
  all_goals
    obtain ⟨finals, -, h⟩ := bind_eq_ok.1 h
    obtain ⟨format, -, h⟩ := bind_eq_ok.1 h
    split at h
  all_goals
    obtain ⟨scoring, hscoring, h⟩ := bind_eq_ok.1 h
    obtain ⟨players, -, h⟩ := bind_eq_ok.1 h
    obtain ⟨devices, -, h⟩ := bind_eq_ok.1 h
    obtain ⟨seed, -, h⟩ := bind_eq_ok.1 h
    obtain ⟨rejectRate, -, h⟩ := bind_eq_ok.1 h
    obtain ⟨⟨⟩, hcheck, h⟩ := bind_eq_ok.1 h
    cases h
    refine ⟨hcheck, ?_⟩
  all_goals
    first
    | exact Scoring.check_of_scoringFor hscoring
    | cases hscoring; rfl

/-- Finals that can be drawn whatever has been played, and results that bring them. -/
structure FinalsCome (plan : StagePlan) (t : Tournament) : Prop where
  /-- Both tables have the qualifiers, so only ids can be missing. -/
  draws : ∃ g, t.groups = some g ∧ ∀ first,
    Yields (first.val.toNat + Groups.finalsCount plan < UInt32.size)
      (Groups.finals g.tableA g.tableB plan first) fun ms => ms.length = Groups.finalsCount plan
  /-- A result that passes its check can only fail by taking a number out of its range. -/
  refused : ∀ id m o f, t.match? id = some m → checkOutcome m o = .ok () →
    (t.record id o).answer = .error f → f = .outOfRange
  taken : Fits t.format t.players.length → ∀ id m o, t.match? id = some m →
    checkOutcome m o = .ok () → PointsFit t m o → (t.record id o).answer.isOk

/-- Settings that a simulation can be made of. -/
structure Playable (s : Settings) : Prop where
  devices : 1 ≤ s.devices
  rate : s.rejectRate.isFinite ∧ 0 ≤ s.rejectRate.value ∧ s.rejectRate.value < 1
  /-- Ids for the matches of the first stage are all it takes to open the tournament. -/
  opens : ∀ stamp draw, Yields (OpeningFits s.format s.players)
    (create (CommandLine.config s) stamp draw) (Live (CommandLine.config s))
  finals : ∀ stamp draw t plan calls, create (CommandLine.config s) stamp draw = .ok t →
    s.format = .groups plan → Returns t calls → FinalsCome plan (t.recordAll calls)

/-- Whatever is read as settings can be played. -/
theorem playable_of_load {lookup : String → Option String} {o : Overrides}
    (h : load lookup o = .ok s) : Playable s := by
  obtain ⟨hcheck, hscoring⟩ := load_eq_ok h
  obtain ⟨-, -, hdevices, hrate⟩ := check_eq_ok hcheck
  have hconfig := check_config hcheck hscoring
  constructor
  case devices => exact hdevices
  case rate => exact Double.isRate_iff.1 hrate
  case opens =>
    intro stamp draw
    have hopens := create_opens stamp draw hconfig
    rwa [show (CommandLine.config s).players.length = s.players from
      CommandLine.length_entrants s.players] at hopens
  case finals =>
    intro stamp draw t plan calls ht hf hr
    have hlive := (live_of_create ht).of_returns hr
    have hrunning := hlive.running
    have hformat := hlive.format.trans hf
    have hroster := hrunning.sound.roster
    rw [hformat] at hroster
    obtain ⟨g, hg, hgroups⟩ := hrunning.stages.of_groups hformat
    constructor
    case draws =>
      refine ⟨g, hg, fun first => ?_⟩
      refine (Groups.finals_yields hgroups.valid hgroups.perm hgroups.lengthA hgroups.tableA
        hgroups.tableB hroster first).imp id fun ms ⟨_, _, _, hms⟩ => ?_
      rw [← hms.length_eq, Groups.length_finalsTree (Groups.length_finalsSeeding hgroups.valid
        hgroups.perm hgroups.lengthA hgroups.tableA hgroups.tableB)]
    case refused =>
      intro id m o f hm ho herr
      by_contra hne
      exact (hrunning.refused_of_error hne herr).1 m hm ho
    case taken =>
      intro hfits id m o hm ho hpoints
      obtain ⟨-, rfl⟩ := mem_of_find? hm
      rw [hlive.format, hlive.players] at hfits
      have hcounted := counted_of_returns ht (.inr ⟨plan, hf⟩) hr
      have hleagues := (live_of_create ht).leagues_ne_nil (.inr ⟨plan, hf⟩)
      rcases hcounted.record_cases hleagues hm ho hfits with ⟨-, hok⟩ | ⟨hno, -⟩
      · exact hok
      · exact absurd hpoints hno

/-- Variables that ask for groups, played for sets. -/
def groupVariables (name : String) : Option String :=
  if name = "BRACKET_FORMAT" then some " Group-Round_Robin"
  else if name = "BRACKET_FINALS_SIZE" then some "6"
  else if name = "BRACKET_BEST_OF" then some " 5 "
  else if name = "BRACKET_REJECT_RATE" then some "-0.0"
  else none

theorem playable_of_load_groups :
    ∃ s, load groupVariables { players := some 7 } = .ok s ∧ Playable s := by
  have h : load groupVariables { players := some 7 } = .ok {
      format := .groups { finalsSize := 6 }
      scoring := { matchType := .sets, bestOf := .five }
      players := 7
      devices := 2
      seed := none
      rejectRate := .signed true 0
      out := none } := by rfl
  exact ⟨_, h, playable_of_load h⟩

end Settings

end Tourney
