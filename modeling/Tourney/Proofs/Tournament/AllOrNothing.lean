import Tourney.Proofs.Tournament.Start

/-!
# Starting is all or nothing

A start writes the matches of the first stage into the tournament before it advances, and the
advance can fail. Whatever the tournament was, it fails for want of numbers alone: pairing a Swiss
round needs nothing else (`onlyRange_pairNextRound`), and no finals are drawn as long as a group
match waits, which the new groups see to (`exists_waiting`). So a start that is refused has changed
nothing (`state_start_of_refused`).
-/

namespace Tourney

/-! ## What only a number can stop -/

namespace Swiss

theorem Standing.onlyRange_afterMatch (winner loser : Player) (s : Standing) :
    OnlyRange (s.afterMatch winner loser) := by
  unfold Standing.afterMatch
  split_ifs
  · exact (Counter.onlyRange_add _ _).bind fun _ => .ok _
  · exact (Counter.onlyRange_add _ _).bind fun _ => .ok _
  · exact .ok s

theorem Standing.onlyRange_creditBye (s : Standing) : OnlyRange s.creditBye :=
  (Counter.onlyRange_add _ _).bind fun _ => (Counter.onlyRange_add _ _).bind fun _ => .ok _

theorem onlyRange_recordBye (winner : Player) (ss : List Standing) :
    OnlyRange (recordBye winner ss) := by
  induction ss with
  | nil => exact .ok []
  | cons s ss ih =>
    unfold recordBye
    split_ifs
    · exact s.onlyRange_creditBye.map _
    · exact ih.map _

theorem onlyRange_record (ss : List Standing) (m : Match) : OnlyRange (record ss m) := by
  unfold record
  split
  · exact (OnlyRange.mapM (Standing.onlyRange_afterMatch _ _) ss).map _
  · exact (onlyRange_recordBye _ ss).map _
  · exact .ok ss

end Swiss

namespace Tournament

variable {t : Tournament} {f : Fault}

theorem onlyRange_append (t : Tournament) (ms : List Match) : OnlyRange (t.append ms) := by
  unfold append
  split
  · exact .ok t
  · exact (MatchId.plus?_yields _ _).onlyRange.bind fun _ => .ok _

/-- Pairing a Swiss round takes ids for its matches, and room in the standings for its bye. -/
theorem onlyRange_pairNextRound (t : Tournament) : OnlyRange t.pairNextRound := by
  unfold pairNextRound
  split
  · exact .ok _
  split_ifs
  · exact .ok _
  refine (Swiss.buildRound_yields _ _ _ _).onlyRange.bind fun ms => ?_
  refine (OnlyRange.foldlM Swiss.onlyRange_record _ _).bind fun ss => ?_
  exact (onlyRange_append _ ms).bind fun _ => .ok _

/-! ## The advance at the start -/

/-- No finals are drawn without groups. -/
theorem drawFinals_of_format (h : ∀ plan, t.format ≠ .groups plan) :
    t.drawFinals = .ok (t, []) := by
  unfold drawFinals
  split
  · exact absurd ‹_› (h _)
  · rfl

/-- No finals are drawn while a group match waits. -/
theorem drawFinals_of_waiting {m : Match} (hm : m ∈ t.arena) (hs : m.stage = .groupA)
    (ho : m.status.isResolved = false) : t.drawFinals = .ok (t, []) := by
  have hopen : t.stageResolved .groupA = false := by
    rw [stageResolved, List.all_eq_false]
    exact ⟨m, hm, by simp [hs, ho]⟩
  unfold drawFinals
  split
  · rw [if_pos (.inr (.inl (by simp [hopen])))]
  · rfl

/-- A group stage that has been drawn has a match to play. -/
theorem exists_waiting {t' : Tournament} {plan : StagePlan} {draw : Draw}
    (hf : t.format = .groups plan) (h : t.firstStage draw = .ok t') :
    ∃ m ∈ t'.arena, m.stage = .groupA ∧ m.status.isResolved = false := by
  unfold firstStage at h
  simp only [hf] at h
  obtain ⟨d, hd, h⟩ := bind_eq_ok.1 h
  obtain ⟨next, rfl⟩ := append_eq_ok h
  have hdraw := hd
  unfold Groups.drawGroups at hd
  obtain ⟨⟨⟩, hr, hd⟩ := bind_eq_ok.1 hd
  obtain ⟨⟨⟩, hp, -⟩ := bind_eq_ok.1 hd
  obtain ⟨hA, -, hfix, -⟩ := (Groups.drawGroups_yields _ _ hr hp).of_ok hdraw
  have hn := (Roster.check_eq_ok_iff.1 hr).1
  have hlen := (Groups.split_spec ((t.entryDraw draw).order t.players)).2.1
  rw [← hA, ((t.entryDraw draw).perm t.players).length_eq] at hlen
  have hpos : 0 < (RoundRobin.fieldMatches d.groupA t.nextMatchId .groupA).length := by
    rw [RoundRobin.length_fieldMatches (by omega)]
    have hpairs := Nat.mul_le_mul (show 2 ≤ d.groupA.length by omega)
      (show 1 ≤ d.groupA.length - 1 by omega)
    omega
  obtain ⟨m, hm⟩ := List.exists_mem_of_length_pos hpos
  obtain ⟨hs, -, -, hu, -⟩ := RoundRobin.mem_fieldMatches hm
  refine ⟨m, ?_, hs, by rw [hu.1]; rfl⟩
  rw [hfix]
  exact List.mem_append_right _ (List.mem_append_left _ hm)

theorem format_of_firstStage {t' : Tournament} {draw : Draw} (h : t.firstStage draw = .ok t') :
    t'.format = t.format := by
  unfold firstStage at h
  dsimp only at h
  split at h
  · obtain ⟨ms, -, h⟩ := bind_eq_ok.1 h
    obtain ⟨next, rfl⟩ := append_eq_ok h
    rfl
  · obtain ⟨ms, -, h⟩ := bind_eq_ok.1 h
    obtain ⟨next, rfl⟩ := append_eq_ok h
    rfl
  · obtain ⟨ms, -, h⟩ := bind_eq_ok.1 h
    obtain ⟨ss, -, h⟩ := bind_eq_ok.1 h
    obtain ⟨next, rfl⟩ := append_eq_ok h
    rfl
  · obtain ⟨ms, -, h⟩ := bind_eq_ok.1 h
    obtain ⟨next, rfl⟩ := append_eq_ok h
    rfl
  · obtain ⟨d, -, h⟩ := bind_eq_ok.1 h
    obtain ⟨next, rfl⟩ := append_eq_ok h
    rfl

/-- No finals come with the first stage, even if a round left from before is paired with it. -/
theorem drawFinals_at_start {t' t₁ : Tournament} {draw : Draw} {rounds : List (Stage × UInt32)}
    (h : t.firstStage draw = .ok t')
    (hp : { t' with status := .inProgress }.pairNextRound = .ok (t₁, rounds)) :
    t₁.drawFinals = .ok (t₁, []) := by
  obtain ⟨hf, hkept⟩ : t₁.format = t.format ∧ ∀ m ∈ t'.arena, m ∈ t₁.arena := by
    rw [← format_of_firstStage h]
    rcases pairNextRound_cases hp with rfl | ⟨e, ms, next, rfl⟩
    · exact ⟨rfl, fun m hm => hm⟩
    · exact ⟨rfl, fun m hm => List.mem_append_left _ hm⟩
  by_cases hg : ∃ plan, t.format = .groups plan
  · obtain ⟨plan, hg⟩ := hg
    obtain ⟨m, hm, hs, ho⟩ := exists_waiting hg h
    exact drawFinals_of_waiting (hkept m hm) hs ho
  · exact drawFinals_of_format fun plan hplan => hg ⟨plan, hf ▸ hplan⟩

/-- Once the first stage is drawn only a number can stop a start. -/
theorem onlyRange_advance {t' : Tournament} {draw : Draw} (h : t.firstStage draw = .ok t') :
    OnlyRange { t' with status := .inProgress }.advance.answer := fun f hadv => by
  rcases hp : { t' with status := .inProgress }.pairNextRound with f' | ⟨t₁, rounds⟩
  · simp only [advance, hp, Reply.refused, Except.error.injEq] at hadv
    exact hadv ▸ onlyRange_pairNextRound _ f' hp
  · simp only [advance, hp, drawFinals_at_start h hp] at hadv
    split_ifs at hadv <;> cases hadv

/-! ## Starting -/

theorem state_start_of_refused {draw : Draw} (h : (t.start draw).answer = .error f)
    (hf : f ≠ .outOfRange) : (t.start draw).state = t := by
  unfold start at h ⊢
  split_ifs at h ⊢
  · rfl
  rcases hfirst : t.firstStage draw with f' | t' <;> simp only [hfirst] at h ⊢
  · rfl
  · exact absurd (onlyRange_advance hfirst f (map_eq_error.1 h)) hf

/-- A tournament that has been started is under way or already over. -/
theorem status_advance (t : Tournament) (h : t.status ≠ .notStarted) :
    t.advance.state.status ≠ .notStarted := by
  unfold advance
  rcases hp : t.pairNextRound with f | ⟨t₁, rounds⟩
  · exact h
  have h₁ : t₁.status = t.status := by
    rcases pairNextRound_cases hp with rfl | ⟨e, ms, next, rfl⟩ <;> rfl
  rcases hd : t₁.drawFinals with f | ⟨t₂, finals⟩ <;> simp only [hd]
  · rwa [Reply.refused, h₁]
  have h₂ : t₂.status = t₁.status := by
    rcases drawFinals_cases hd with rfl | ⟨plan, g, ms, next, -, -, rfl⟩ <;> rfl
  split_ifs
  · exact TournamentStatus.noConfusion
  · rwa [Reply.done, h₂, h₁]

theorem start_started {draw : Draw} (h : (t.start draw).answer = .ok ()) (draw' : Draw) :
    (t.start draw).state.start draw' = .refused (t.start draw).state .alreadyStarted := by
  refine if_pos ?_
  unfold start at h ⊢
  split_ifs at h ⊢
  · cases h
  rcases hfirst : t.firstStage draw with f | t' <;> simp only [hfirst] at h ⊢
  · cases h
  · exact status_advance _ TournamentStatus.noConfusion

/-- Starting is all or nothing, and passing the check is enough to be started. A configuration that
fails the check opens nothing and says why; one that passes opens a tournament, if there are ids
for the matches of its first stage and for the match after them. Whatever tournament is started, a
start that is refused leaves it as it was, unless a number was out of range; and once a start has
gone through, another one is refused and leaves the tournament as it was. -/
theorem all_or_nothing :
    (∀ c stamp draw,
      (∀ f, c.check = .error f → create c stamp draw = .error f) ∧
      (c.check = .ok () → Yields (OpeningFits c.format c.players.length)
        (create c stamp draw) fun _ => True) ∧
      (OpeningFits c.format c.players.length →
        ((∃ t, create c stamp draw = .ok t) ↔ c.check = .ok ()))) ∧
    ∀ (t : Tournament) (draw : Draw),
      (∀ f, f ≠ .outOfRange → (t.start draw).answer = .error f → (t.start draw).state = t) ∧
      ((t.start draw).answer = .ok () → ∀ draw', (t.start draw).state.start draw' =
        .refused (t.start draw).state .alreadyStarted) := by
  refine ⟨fun c stamp draw => ⟨fun f hf => ?_, fun hc => ?_, fun hfits => ⟨?_, fun hc => ?_⟩⟩,
    fun t draw => ⟨fun f hf h => state_start_of_refused h hf, start_started⟩⟩
  · simp only [create, ofConfig, hf, bind, Except.bind]
  · exact (create_opens stamp draw hc).imp (fun h => h) fun _ _ => trivial
  · rintro ⟨t, ht⟩
    exact check_of_create ht
  · obtain ⟨t, ht, -⟩ := (create_opens stamp draw hc).exists_ok hfits
    exact ⟨t, ht⟩

/-- A tournament that has not begun, although it has a match and a table from before. -/
def leftover (players : List Player) : Tournament where
  id := smallStamp.id
  name := "Cup"
  roomCode := smallStamp.roomCode
  format := .groups {}
  scoring := {}
  players := players
  arena := [Match.seated firstMatchId 1 0 .groupB (some "A") (some "X")]
  status := .notStarted
  createdAt := smallStamp.createdAt
  nextMatchId := ⟨2⟩
  shuffle := false
  swiss := none
  table := [{ player := "X" }]
  groups := none

/-- A cup of four is opened; what is left over of three players is refused and stays as it was,
and with a fourth player it is started once. -/
theorem all_or_nothing_leftover :
    (∃ t, create (smallCup .swiss) smallStamp .seeded = .ok t) ∧
    ((leftover ["A", "B", "C"]).start .seeded).state = leftover ["A", "B", "C"] ∧
    (((leftover ["A", "B", "C", "D"]).start .seeded).state.start .seeded).answer =
      .error .alreadyStarted := by
  refine ⟨((all_or_nothing.1 (smallCup .swiss) smallStamp .seeded).2.2 (by decide)).2 (by decide),
    (all_or_nothing.2 (leftover ["A", "B", "C"]) .seeded).1 (.notEnoughPlayers 4 3)
      Fault.noConfusion (by decide), ?_⟩
  rw [(all_or_nothing.2 (leftover ["A", "B", "C", "D"]) .seeded).2 (by decide) .seeded]
  rfl

end Tournament

end Tourney
