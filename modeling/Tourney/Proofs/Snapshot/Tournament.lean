import Tourney.Proofs.Snapshot.Match
import Tourney.Proofs.Uuid
import Tourney.Snapshot.Tournament

/-!
# Snapshots lose nothing

Each part of a tournament is written faithfully, and so is the tournament (`faithful_tournament`).
So a tournament is read from its snapshot as it was, whatever its format and however far it has come
(`ofSnapshot_toSnapshot`).
-/

namespace Tourney

open Json Snapshot

/-- A tournament that can be written down: its doubles are finite and its moments such as are read
from their texts (`Timestamp.read?_text_iff`). -/
structure Tournament.Storable (t : Tournament) : Prop where
  finite : ∀ e ∈ t.swiss, ∀ s ∈ e.standings, s.buchholz.isFinite
  created : t.createdAt.Kept
  recorded : ∀ m ∈ t.arena, ∀ e ∈ m.figures.history, e.recordedAt.Kept

namespace Snapshot

theorem faithful_uuid (u : Uuid) : Faithful ofUuid uuid? u := by
  have htext := faithful_ofString (String.ofList u.text)
  refine ⟨htext.wellSpelled, ?_⟩
  rw [uuid?, ofUuid, htext.reads, Option.bind_some, Uuid.read?_text]

theorem faithful_players (players : List Player) : Faithful ofPlayers players? players :=
  Faithful.list fun p _ => faithful_ofString p

/-! ## Names -/

theorem finalsFormatNamed?_finalsFormatName (f : FinalsFormat) :
    finalsFormatNamed? (finalsFormatName f) = some f := by
  cases f <;> rfl

theorem generationNamed?_generationName (g : Generation) :
    generationNamed? (generationName g) = some g := by
  cases g <;> rfl

theorem matchTypeNamed?_matchTypeName (t : MatchType) :
    matchTypeNamed? (matchTypeName t) = some t := by
  cases t <;> rfl

theorem bestOfNamed?_bestOfName (b : BestOf) : bestOfNamed? (bestOfName b) = some b := by
  cases b <;> rfl

theorem tournamentStatusNamed?_statusNameOf (s : TournamentStatus) :
    tournamentStatusNamed? (statusNameOf s) = some s := by
  cases s <;> rfl

/-! ## Configuration -/

theorem faithful_stagePlan (p : StagePlan) : Faithful ofStagePlan stagePlan? p := by
  have hsize := (faithful_ofUInt64 p.finalsSize).required
  have hformat :=
    (faithful_choice (finalsFormatNamed?_finalsFormatName p.finalsFormat)).required
  refine Faithful.record stagePlanFields [_, _] ⟨by decide, by decide⟩
    (fun _ => rfl) rfl rfl ?_ ?_
  · simp only [List.forall_mem_cons]
    exact ⟨hsize.wellSpelled, hformat.wellSpelled, nofun⟩
  · simp only [List.map_cons, List.map_nil, hsize.reads, hformat.reads]
    rfl

/-- A plain format is a choice, and a group stage an object with its plan. -/
theorem faithful_format (f : Format) : Faithful ofFormat format? f := by
  have hplain : ∀ name, plainFormatNamed? name = some f →
      Faithful (fun _ => ofString name) (choice? plainFormatNamed?) f := fun name h =>
    @faithful_choice _ (fun _ => name) _ f h
  cases f with
  | singleElimination =>
    have h := hplain "single_elimination" rfl
    exact ⟨h.wellSpelled, h.reads⟩
  | doubleElimination =>
    have h := hplain "double_elimination" rfl
    exact ⟨h.wellSpelled, h.reads⟩
  | swiss =>
    have h := hplain "swiss" rfl
    exact ⟨h.wellSpelled, h.reads⟩
  | roundRobin =>
    have h := hplain "round_robin" rfl
    exact ⟨h.wellSpelled, h.reads⟩
  | groups plan =>
    have hplan := faithful_stagePlan plan
    have hname : isPlain groupsName := by decide
    refine ⟨.object _ ?_ ?_, ?_⟩
    · simpa using spelled_of_isPlain hname
    · simpa using hplan.wellSpelled
    · rw [ofFormat, format?, if_pos (unspell?_of_isPlain hname), hplan.reads]
      rfl

theorem faithful_scoring (s : Scoring) : Faithful ofScoring scoring? s := by
  have hgeneration := (faithful_choice (generationNamed?_generationName s.generation)).required
  have htype := (faithful_choice (matchTypeNamed?_matchTypeName s.matchType)).required
  have hbest := (faithful_choice (bestOfNamed?_bestOfName s.bestOf)).required
  refine Faithful.record scoringFields [_, _, _, _] ⟨by decide, by decide⟩
    (fun _ => rfl) rfl rfl ?_ ?_
  · simp only [List.forall_mem_cons]
    exact ⟨hgeneration.wellSpelled, htype.wellSpelled, hbest.wellSpelled,
      (field_bool _).wellSpelled, nofun⟩
  · simp only [List.map_cons, List.map_nil, hgeneration.reads, htype.reads, hbest.reads,
      (field_bool _).reads]
    rfl

/-! ## Standings and tables -/

theorem faithful_standing {s : Swiss.Standing} (h : s.buchholz.isFinite) :
    Faithful ofStanding standing? s := by
  have hplayer := (faithful_ofString s.player).required
  have hopponents := (faithful_players s.opponents).required
  have hbuchholz := (faithful_ofDouble h).required
  refine Faithful.record standingFields [_, _, _, _, _, _, _]
    ⟨by decide, by decide⟩ (fun _ => rfl) rfl rfl ?_ ?_
  · simp only [List.forall_mem_cons]
    exact ⟨hplayer.wellSpelled, (field_ofUInt32 _).wellSpelled, (field_ofUInt32 _).wellSpelled,
      (field_ofUInt32 _).wellSpelled, hopponents.wellSpelled, (field_ofUInt32 _).wellSpelled,
      hbuchholz.wellSpelled, nofun⟩
  · simp only [List.map_cons, List.map_nil, hplayer.reads, (field_ofUInt32 _).reads,
      hopponents.reads, hbuchholz.reads]
    rfl

theorem faithful_swissEvent {e : SwissEvent} (h : ∀ s ∈ e.standings, s.buchholz.isFinite) :
    Faithful ofSwissEvent swissEvent? e := by
  have hstandings := (Faithful.list fun s hs => faithful_standing (h s hs)).required
  refine Faithful.record swissFields [_, _, _] ⟨by decide, by decide⟩
    (fun _ => rfl) rfl rfl ?_ ?_
  · simp only [List.forall_mem_cons]
    exact ⟨hstandings.wellSpelled, (field_ofUInt32 _).wellSpelled, (field_ofUInt32 _).wellSpelled,
      nofun⟩
  · simp only [List.map_cons, List.map_nil, hstandings.reads, (field_ofUInt32 _).reads]
    rfl

theorem faithful_row (r : RoundRobin.Row) : Faithful ofRow row? r := by
  have hplayer := (faithful_ofString r.player).required
  refine Faithful.record rowFields [_, _, _, _, _] ⟨by decide, by decide⟩
    (fun _ => rfl) rfl rfl ?_ ?_
  · simp only [List.forall_mem_cons]
    exact ⟨hplayer.wellSpelled, (field_ofUInt32 _).wellSpelled, (field_ofUInt32 _).wellSpelled,
      (field_ofUInt32 _).wellSpelled, (field_ofUInt32 _).wellSpelled, nofun⟩
  · simp only [List.map_cons, List.map_nil, hplayer.reads, (field_ofUInt32 _).reads]
    rfl

theorem faithful_table (table : List RoundRobin.Row) : Faithful ofTable table? table :=
  Faithful.list fun r _ => faithful_row r

theorem faithful_groupStage (g : GroupStage) : Faithful ofGroupStage groupStage? g := by
  have hplayers := fun ps => (faithful_players ps).required
  have htable := fun rows => (faithful_table rows).required
  refine Faithful.record groupFields [_, _, _, _, _] ⟨by decide, by decide⟩
    (fun _ => rfl) rfl rfl ?_ ?_
  · simp only [List.forall_mem_cons]
    exact ⟨(hplayers _).wellSpelled, (hplayers _).wellSpelled, (htable _).wellSpelled,
      (htable _).wellSpelled, (field_bool _).wellSpelled, nofun⟩
  · simp only [List.map_cons, List.map_nil, (hplayers _).reads, (htable _).reads,
      (field_bool _).reads]
    rfl

/-! ## Tournaments -/

theorem faithful_tournament {t : Tournament} (h : t.Storable) :
    Faithful ofTournament tournament? t := by
  have hid := (faithful_uuid t.id).required
  have htext := fun s => (faithful_ofString s).required
  have hformat := (faithful_format t.format).required
  have hscoring := (faithful_scoring t.scoring).required
  have hplayers := (faithful_players t.players).required
  have harena := (Faithful.list fun m hm => faithful_match (h.recorded m hm)).required
  have hstatus := (faithful_choice (tournamentStatusNamed?_statusNameOf t.status)).required
  have hcreated := (faithful_timestamp h.created).required
  have hnext := (faithful_matchId t.nextMatchId).required
  have hswiss := Faithful.optional (fun e he => faithful_swissEvent (h.finite e he)) nofun
  have htable := (faithful_table t.table).required
  have hgroups := Faithful.optional (o := t.groups) (fun g _ => faithful_groupStage g) nofun
  refine Faithful.record tournamentFields
    [_, _, _, _, _, _, _, _, _, _, _, _, _, _] ⟨by decide, by decide⟩
    (fun _ => rfl) rfl rfl ?_ ?_
  · simp only [List.forall_mem_cons]
    exact ⟨hid.wellSpelled, (htext _).wellSpelled, (htext _).wellSpelled, hformat.wellSpelled,
      hscoring.wellSpelled, hplayers.wellSpelled, harena.wellSpelled, hstatus.wellSpelled,
      hcreated.wellSpelled, hnext.wellSpelled, (field_bool _).wellSpelled, hswiss.wellSpelled,
      htable.wellSpelled, hgroups.wellSpelled, nofun⟩
  · simp only [List.map_cons, List.map_nil, hid.reads, (htext _).reads, hformat.reads,
      hscoring.reads, hplayers.reads, harena.reads, hstatus.reads, hcreated.reads, hnext.reads,
      (field_bool _).reads, hswiss.reads, htable.reads, hgroups.reads]
    rfl

end Snapshot

/-- A tournament is read from its snapshot as it was. -/
theorem Tournament.ofSnapshot_toSnapshot {t : Tournament} (h : t.Storable) :
    Tournament.ofSnapshot t.toSnapshot = .ok t := by
  have hfaithful := faithful_tournament h
  rw [Tournament.ofSnapshot, Tournament.toSnapshot, read?_pretty hfaithful.wellSpelled,
    Option.bind_some, hfaithful.reads]

/-- A Swiss event with one match told and a bye, and names that have to be escaped. -/
def Tournament.clubNight : Tournament where
  id := ⟨0x6ba7b8109dad11d180b400c04fd430c8⟩
  name := "Club \"Zürich\"\n⚔"
  roomCode := "NIGHT7"
  format := .swiss
  scoring := {}
  players := ["Ann\t", "Bo\\", "Cé"]
  arena := [
    { Match.seated ⟨1⟩ 1 0 .main (some "Ann\t") (some "Bo\\") with
      figures := { score1 := 11, history := [⟨"Ann\t", 11, "serve", ⟨1700000000, 500000000⟩⟩] }
      status := .complete
      winner := some "Ann\t" },
    { Match.seated ⟨2⟩ 1 1 .main (some "Cé") none with status := .complete, winner := some "Cé" }]
  status := .inProgress
  createdAt := .ofUnix 1699999999
  nextMatchId := ⟨3⟩
  shuffle := false
  swiss := some {
    standings := [
      { player := "Ann\t", wins := 1, opponents := ["Bo\\"] },
      { player := "Bo\\", losses := 1, opponents := ["Ann\t"], buchholz := .nearest false 1 1 },
      { player := "Cé", wins := 1, byes := 1, buchholz := .nearest false 1 3 }]
    currentRound := 1
    totalRounds := 2 }
  table := []
  groups := none

theorem Tournament.ofSnapshot_toSnapshot_clubNight : Tournament.clubNight.Storable ∧
    Tournament.ofSnapshot Tournament.clubNight.toSnapshot = .ok Tournament.clubNight := by
  have hstorable : Tournament.clubNight.Storable := by
    constructor
    · simp only [Tournament.clubNight, Option.mem_some_iff, forall_eq', List.forall_mem_cons]
      exact ⟨by decide, by decide, by decide, nofun⟩
    · exact ⟨by decide, by decide, by decide⟩
    · simp only [Tournament.clubNight, Match.seated, List.forall_mem_cons, List.not_mem_nil,
        false_implies, implies_true, and_true]
      exact ⟨by decide, by decide, by decide⟩
  exact ⟨hstorable, Tournament.ofSnapshot_toSnapshot hstorable⟩

end Tourney
