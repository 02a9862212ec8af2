import Tourney.Proofs.Json.Record
import Tourney.Proofs.Timestamp
import Tourney.Snapshot.Match

/-!
# Matches read back

Each part of a match is written faithfully, and so is the match (`faithful_match`), as long as the
moments on its score sheet can be kept.
-/

namespace Tourney.Snapshot

open Json

theorem faithful_matchId (id : MatchId) : Faithful ofMatchId matchId? id := by
  refine ⟨(faithful_ofUInt32 id.val).wellSpelled, ?_⟩
  rw [matchId?, ofMatchId, uint32?_ofUInt32]
  rfl

theorem faithful_timestamp {t : Timestamp} (h : t.Kept) : Faithful ofTimestamp timestamp? t := by
  have htext := faithful_ofString (String.ofList t.text)
  refine ⟨htext.wellSpelled, ?_⟩
  rw [timestamp?, ofTimestamp, htext.reads, Option.bind_some, Timestamp.read?_text h]

/-! ## Names -/

theorem slotNamed?_slotName (s : Slot) : slotNamed? (slotName s) = some s := by
  cases s <;> rfl

theorem statusNamed?_statusName (s : MatchStatus) : statusNamed? (statusName s) = some s := by
  cases s <;> rfl

theorem stageNamed?_stageName (s : Stage) : stageNamed? (stageName s) = some s := by
  cases s <;> rfl

theorem bracketNamed?_bracketName (b : Bracket) : bracketNamed? (bracketName b) = some b := by
  cases b <;> rfl

/-! ## Records -/

theorem faithful_seatRef (r : SeatRef) : Faithful ofSeatRef seatRef? r := by
  have hid := (faithful_matchId r.id).required
  have hslot := (faithful_choice (slotNamed?_slotName r.slot)).required
  refine Faithful.record seatRefFields [_, _] ⟨by decide, by decide⟩
    (fun _ => rfl) rfl rfl ?_ ?_
  · simp only [List.forall_mem_cons]
    exact ⟨hid.wellSpelled, hslot.wellSpelled, nofun⟩
  · simp only [List.map_cons, List.map_nil, hid.reads, hslot.reads]
    rfl

theorem faithful_scoreEvent {e : ScoreEvent} (h : e.recordedAt.Kept) :
    Faithful ofScoreEvent scoreEvent? e := by
  have hplayer := (faithful_ofString e.player).required
  have hpoints := (faithful_ofUInt32 e.points).required
  have hdescription := (faithful_ofString e.description).required
  have htime := (faithful_timestamp h).required
  refine Faithful.record scoreEventFields [_, _, _, _] ⟨by decide, by decide⟩
    (fun _ => rfl) rfl rfl ?_ ?_
  · simp only [List.forall_mem_cons]
    exact ⟨hplayer.wellSpelled, hpoints.wellSpelled, hdescription.wellSpelled, htime.wellSpelled,
      nofun⟩
  · simp only [List.map_cons, List.map_nil, hplayer.reads, hpoints.reads, hdescription.reads,
      htime.reads]
    rfl

theorem faithful_history {history : List ScoreEvent} (h : ∀ e ∈ history, e.recordedAt.Kept) :
    Faithful ofHistory history? history :=
  Faithful.list fun e he => faithful_scoreEvent (h e he)

section Fields

theorem field_bool (b : Bool) : Field (required? bool?) (.bool b) b := (faithful_bool b).required

theorem field_ofUInt32 (n : UInt32) : Field (required? uint32?) (ofUInt32 n) n :=
  (faithful_ofUInt32 n).required

theorem field_ofString? (o : Option String) : Field (optional? string?) (ofOption ofString o) o :=
  Faithful.optional (fun s _ => faithful_ofString s) nofun

theorem field_ofSeatRef? (o : Option SeatRef) : Field (optional? seatRef?) (ofOption ofSeatRef o) o :=
  Faithful.optional (fun r _ => faithful_seatRef r) nofun

theorem field_ofVacancy (m : Match) :
    Field (required? vacancy?) (ofVacancy m) (m.seat1.vacant, m.seat2.vacant) := by
  refine ⟨.array _ ?_, rfl⟩
  simp only [List.forall_mem_cons]
  exact ⟨.bool _, .bool _, nofun⟩

end Fields

theorem faithful_match {m : Match} (h : ∀ e ∈ m.figures.history, e.recordedAt.Kept) :
    Faithful ofMatch match? m := by
  have hid := (faithful_matchId m.id).required
  have hbracket := Faithful.optional (o := m.bracket)
    (fun b _ => faithful_choice (bracketNamed?_bracketName b)) nofun
  have hstatus := (faithful_choice (statusNamed?_statusName m.status)).required
  have hstage := (faithful_choice (stageNamed?_stageName m.stage)).required
  have hhistory := (faithful_history h).required
  refine Faithful.record matchFields
    [_, _, _, _, _, _, _, _, _, _, _, _, _, _, _, _, _, _, _, _] ⟨by decide, by decide⟩
    (fun _ => rfl) rfl rfl ?_ ?_
  · simp only [List.forall_mem_cons]
    exact ⟨hid.wellSpelled, (field_ofUInt32 _).wellSpelled, (field_ofUInt32 _).wellSpelled,
      (field_ofString? _).wellSpelled, (field_ofString? _).wellSpelled,
      (field_ofUInt32 _).wellSpelled, (field_ofUInt32 _).wellSpelled,
      (field_ofUInt32 _).wellSpelled, (field_ofUInt32 _).wellSpelled, hstatus.wellSpelled,
      (field_ofString? _).wellSpelled, (field_ofString? _).wellSpelled, hhistory.wellSpelled,
      (field_ofSeatRef? _).wellSpelled, hstage.wellSpelled, hbracket.wellSpelled,
      (field_bool _).wellSpelled, (field_bool _).wellSpelled, (field_ofSeatRef? _).wellSpelled,
      (field_ofVacancy m).wellSpelled, nofun⟩
  · simp only [List.map_cons, List.map_nil, hid.reads, (field_ofUInt32 _).reads,
      (field_ofString? _).reads, hstatus.reads, hhistory.reads, (field_ofSeatRef? _).reads,
      hstage.reads, hbracket.reads, (field_bool _).reads, (field_ofVacancy m).reads]
    rfl

end Tourney.Snapshot
