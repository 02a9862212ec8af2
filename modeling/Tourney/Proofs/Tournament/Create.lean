import Tourney.Proofs.Tournament.Advance

/-!
# Creating a tournament

A configuration that passes its check opens a tournament that runs, as long as there are ids for its
matches (`create_yields`).
-/

namespace Tourney.Tournament

open Arena Elimination Seeding

/-- A tournament before its first stage. -/
structure Blank (t : Tournament) : Prop where
  arena : t.arena = []
  swiss : t.swiss = none
  groups : t.groups = none
  next : t.nextMatchId = firstMatchId
  roster : Roster.check t.players t.format.minPlayers = .ok ()
  plan : ∀ plan, t.format = .groups plan → plan.check t.players.length = .ok ()

/-- A tournament whose first stage has been drawn. -/
structure Opens (t t' : Tournament) : Prop where
  sound : Sound t'
  stages : Stages t'
  grown : t.Extends t'
  status : t'.status = t.status

section Blank

variable {t : Tournament} (h : Blank t)

include h

theorem Blank.sound : Sound t := by
  refine ⟨h.roster, ?_, ?_, ?_, ?_, ?_⟩
  · rw [h.arena]
    decide
  · rw [h.arena]
    change Coherent _ (([] : List MatchId).map .settle)
    refine .of_apart ?_ ?_ ?_ ?_ ?_ ?_ ?_ <;> simp [Ordered]
  · rw [h.arena]
    rfl
  · rw [h.arena, h.next]
    exact (MatchId.plus_zero _).symm
  · simp [h.arena]

theorem Blank.roster_two : Roster.check t.players 2 = .ok () :=
  Roster.check_mono h.roster (fun _ hp => hp) (Roster.check_eq_ok_iff.1 h.roster).2.2
    (two_le_players h.sound)

/-- The first stage of a format whose matches are all generated at the start. -/
theorem Blank.append_opening {draw : Draw} {ms fresh : List Match} (table : List RoundRobin.Row)
    (hfresh : openingMatches t.format (draw.order t.players) = some fresh) (hc : Coherent ms [])
    (hfol : List.Forall₂ Match.Settles fresh ms) (hnum : Numbered firstMatchId fresh)
    (hnew : ∀ m ∈ fresh, m.Fresh) (hp : ∀ m ∈ ms, ∀ p, m.hasPlayer p → p ∈ t.players)
    (hlast : firstMatchId.val.toNat + ms.length ≤ UInt32.size)
    (ht : t.format = .roundRobin → (table.map RoundRobin.Row.player).Perm t.players) :
    Yields (OpeningFits t.format t.players.length) ({ t with table }.append ms) (Opens t) := by
  have he := hfol.imp fun _ _ h => h.evolves
  have hperm := draw.perm t.players
  have hlen := length_openingMatches (by rw [hperm.length_eq]; exact two_le_players h.sound) hfresh
  rw [hperm.length_eq, hfol.length_eq] at hlen
  refine ((h.sound.keep t.status t.swiss table t.groups).append hc
    (by rw [show Tournament.nextMatchId _ = firstMatchId from h.next]
        exact hnum.of_outlines (map_outline_of_evolves he))
    (by rwa [show Tournament.nextMatchId _ = firstMatchId from h.next]) hp).imp
    (fun hfits => ?_) fun t' ⟨hs, heq⟩ => ⟨hs, ?_, ?_, by rw [heq]⟩
  · rw [OpeningFits, openingCount_eq hfresh, ← hlen] at hfits
    simpa only [h.arena, List.length_nil, Nat.zero_add] using hfits
  · rw [heq]
    refine .whole (draw.order t.players) fresh h.swiss h.groups hperm hfresh ?_ ht
    simp only [h.arena, List.nil_append]
    exact he
  · rw [heq]
    refine ⟨rfl, rfl, ms, by simp only [h.arena], fun m' hm' => ?_⟩
    obtain ⟨m, hm, hf⟩ := exists_left hfol hm'
    exact (hnew m hm).settles hf

theorem Blank.single (draw : Draw) (hf : t.format = .singleElimination) :
    Yields (OpeningFits t.format t.players.length)
      (Elimination.single t.players draw t.nextMatchId .main >>= t.append) (Opens t) := by
  refine ((single_yields draw t.nextMatchId .main h.roster_two).imp (fun hfits => ?_)
    fun _ h => h).bind fun ms ⟨hc, hfol, hp, hlast⟩ => ?_
  · rw [OpeningFits, hf, openingCount, matchCount] at hfits
    rw [h.next, toNat_firstMatchId]
    omega
  · rw [h.next] at hfol hlast
    exact h.append_opening t.table (by rw [hf, openingMatches, (draw.perm t.players).length_eq]) hc
      hfol numbered_tree (fun m hm => (fresh_tree hm).1) hp hlast (by simp [hf])

theorem Blank.double (draw : Draw) (hf : t.format = .doubleElimination) :
    Yields (OpeningFits t.format t.players.length)
      (Elimination.double t.players draw t.nextMatchId .main >>= t.append) (Opens t) := by
  refine ((double_yields draw t.nextMatchId .main h.roster_two).imp (fun hfits => ?_)
    fun _ h => h).bind fun ms ⟨hc, hfol, hp, hlast⟩ => ?_
  · rw [OpeningFits, hf, openingCount, matchCount] at hfits
    rw [h.next, toNat_firstMatchId]
    omega
  · rw [h.next] at hfol hlast
    exact h.append_opening t.table (by rw [hf, openingMatches, (draw.perm t.players).length_eq]) hc
      hfol (numbered_doubleTree (rounds_pos _)) (fun m hm => (fresh_doubleTree hm).1) hp hlast
      (by simp [hf])

theorem Blank.roundRobin (draw : Draw) (hf : t.format = .roundRobin) :
    Yields (OpeningFits t.format t.players.length)
      (RoundRobin.generate t.players draw t.nextMatchId .main >>= fun ms =>
        { t with table := RoundRobin.freshTable t.players }.append ms) (Opens t) := by
  have hperm := draw.perm t.players
  refine ((RoundRobin.generate_yields draw t.nextMatchId .main h.roster_two).imp (fun hfits => ?_)
    fun _ h => h).bind ?_
  · rw [OpeningFits, hf, openingCount, matchCount] at hfits
    rw [h.next, toNat_firstMatchId]
    omega
  rintro ms ⟨hms, hlast⟩
  rw [h.next] at hms hlast
  subst hms
  exact h.append_opening (RoundRobin.freshTable t.players) (by rw [hf, openingMatches])
    (RoundRobin.coherent_fieldMatches (Nat.le_of_lt hlast)) (settles_refl _)
    RoundRobin.numbered_fieldMatches
    (fun m hm => by
      obtain ⟨-, -, -, hu, hd, -⟩ := RoundRobin.mem_fieldMatches hm
      exact Match.fresh_of_pending hu.1 hd)
    (fun m hm p hp => hperm.mem_iff.1 (RoundRobin.players_fieldMatches hm hp))
    (Nat.le_of_lt hlast) (fun _ => .of_eq (RoundRobin.players_freshTable _))

omit h in
/-- A field whose first Swiss round has ids is small. -/
theorem roundCount_lt {n : Nat} (hn : (n + 1) / 2 < UInt32.size) :
    Swiss.roundCount n < UInt32.size := by
  have hlog : (max n 2 - 1).log2 < 33 :=
    (Nat.log2_lt (by omega)).2 (by
      have : UInt32.size = 2 ^ 32 := rfl
      omega)
  have : UInt32.size = 2 ^ 32 := rfl
  unfold Swiss.roundCount rounds
  omega

/-- No round has been played yet. -/
theorem Blank.swissRun {total : UInt32} (ht : total.toNat = Swiss.roundCount t.players.length) :
    SwissRun t ⟨Swiss.freshStandings t.players, 0, total⟩ := by
  refine ⟨Swiss.players_freshStandings _, ht, Nat.zero_le _, ?_, fun r => ?_, ?_⟩
  · simp [h.arena]
  · simp only [h.arena, List.not_mem_nil, false_and, exists_false, UInt32.toNat_zero, false_iff]
    omega
  · simp only [h.arena, List.countP_nil]
    exact Swiss.within_freshStandings _

theorem Blank.swissEvent (draw : Draw) (hf : t.format = .swiss) :
    Yields (OpeningFits t.format t.players.length)
      (Swiss.firstRound t.players draw t.nextMatchId .main >>= fun ms =>
        ms.foldlM Swiss.record (Swiss.freshStandings t.players) >>= fun standings =>
          { t with swiss := some ⟨standings, 1,
              UInt32.ofNat (Swiss.roundCount t.players.length)⟩ }.append ms) (Opens t) := by
  have hperm := draw.perm t.players
  have htwo := two_le_players h.sound
  have hlen := Swiss.length_neighbours (draw.order t.players)
  rw [hperm.length_eq] at hlen
  have hrounds : 1 ≤ Swiss.roundCount t.players.length := rounds_pos _
  have hfits : OpeningFits t.format t.players.length →
      (t.players.length + 1) / 2 + 1 < UInt32.size := fun hfits => by
    rwa [OpeningFits, hf, openingCount] at hfits
  rw [Swiss.firstRound, h.roster_two]
  refine ((Swiss.buildRound_yields (Swiss.neighbours (draw.order t.players)) 1 t.nextMatchId
    .main).imp (fun hc => ?_) fun _ h => h).bind fun ms hb => ?_
  · have := hfits hc
    rw [h.next, toNat_firstMatchId, hlen]
    omega
  have hmslen : ms.length = (t.players.length + 1) / 2 := hb.length_eq.trans hlen
  have hlast := hb.fits
  rw [h.next, toNat_firstMatchId, hlen] at hlast
  have htotal : (UInt32.ofNat (Swiss.roundCount t.players.length)).toNat =
      Swiss.roundCount t.players.length := by
    rw [UInt32.toNat_ofNat']
    exact Nat.mod_eq_of_lt (roundCount_lt (by omega))
  have hrun := h.swissRun htotal
  have hcle : ms.countP (·.status = .complete) ≤ ms.length := List.countP_le_length
  obtain ⟨standings, hrec, hpl, hwithin⟩ := Swiss.foldlM_record_ok ms hrun.within
    (by rw [h.arena, List.countP_nil]; omega)
  refine Yields.bind (P := fun ss => ss = standings) (.inl ⟨_, hrec, rfl⟩) ?_
  rintro standings rfl
  refine ((h.sound.keep t.status
    (some ⟨standings, 1, UInt32.ofNat (Swiss.roundCount t.players.length)⟩) t.table
    t.groups).append hb.coherent hb.numbered ?_ (hb.players fun a b hab => ?_)).imp
      (fun hfit => ?_) ?_
  · rw [show Tournament.nextMatchId _ = firstMatchId from h.next, toNat_firstMatchId]
    omega
  · obtain ⟨ha, hb⟩ := Swiss.mem_neighbours hab
    exact ⟨hperm.mem_iff.1 ha, fun p hp => hperm.mem_iff.1 (hb p hp)⟩
  · simp only [h.arena, List.length_nil, Nat.zero_add, hmslen]
    exact hfits hfit
  · rintro t' ⟨hs, heq⟩
    refine ⟨hs, ?_, ?_, by rw [heq]⟩
    · rw [heq]
      exact .swiss _ hf rfl h.groups
        (hrun.next htwo (by rw [htotal]; exact hrounds) hb hlen hpl hwithin rfl rfl)
    · rw [heq]
      exact ⟨rfl, rfl, ms, by simp only [h.arena], hb.fresh⟩

omit h in
/-- Two groups in which nobody has played. -/
def openingGroups (groupA groupB : List Player) : GroupStage where
  groupA := groupA
  groupB := groupB
  tableA := RoundRobin.freshTable groupA
  tableB := RoundRobin.freshTable groupB
  finalsGenerated := false

theorem Blank.groupStage (draw : Draw) {plan : StagePlan} (hf : t.format = .groups plan) :
    Yields (OpeningFits t.format t.players.length)
      (Groups.drawGroups t.players plan draw t.nextMatchId >>= fun d =>
        { t with groups := some (openingGroups d.groupA d.groupB) }.append d.fixtures)
      (Opens t) := by
  have hperm := draw.perm t.players
  have hroster := h.roster
  rw [hf] at hroster
  have hn : 4 ≤ t.players.length := (Roster.check_eq_ok_iff.1 hroster).1
  refine ((Groups.drawGroups_yields draw t.nextMatchId hroster (h.plan plan hf)).imp
    (fun hfits => ?_) fun _ h => h).bind ?_
  · rw [OpeningFits, hf, openingCount] at hfits
    rw [h.next, toNat_firstMatchId]
    omega
  rintro ⟨groupA, groupB, fixtures⟩ ⟨hA, hB, hfix, hlast⟩
  dsimp only at hA hB hfix hlast ⊢
  obtain ⟨happ, hlenA, hlenB⟩ := Groups.split_spec (draw.order t.players)
  rw [← hA, ← hB] at happ
  rw [← hA, hperm.length_eq] at hlenA
  rw [← hB, hperm.length_eq] at hlenB
  rw [h.next] at hfix hlast
  obtain rfl : fixtures = groupMatches (openingGroups groupA groupB) := hfix
  have hlen : (groupMatches (openingGroups groupA groupB)).length =
      (t.players.length + 1) / 2 * ((t.players.length + 1) / 2 - 1) / 2 +
        t.players.length / 2 * (t.players.length / 2 - 1) / 2 := by
    rw [groupMatches, List.length_append]
    simp only [openingGroups]
    rw [RoundRobin.length_fieldMatches (by omega), RoundRobin.length_fieldMatches (by omega),
      hlenA, hlenB]
  have hall : (groupA ++ groupB).Perm t.players := (List.Perm.of_eq happ).trans hperm
  rw [toNat_firstMatchId] at hlast
  refine ((h.sound.keep t.status t.swiss t.table (some (openingGroups groupA groupB))).append
    (coherent_groupMatches (by omega))
    (by rw [show Tournament.nextMatchId _ = firstMatchId from h.next]
        exact numbered_groupMatches)
    (by rw [show Tournament.nextMatchId _ = firstMatchId from h.next, toNat_firstMatchId]
        omega)
    (fun m hm p hp => hall.mem_iff.1 ((mem_groupMatches hm).2.2 p hp))).imp
    (fun hfits => ?_) ?_
  · simp only [h.arena, List.length_nil]
    omega
  · rintro t' ⟨hs, heq⟩
    refine ⟨hs, ?_, ?_, by rw [heq]⟩
    · rw [heq]
      refine .groups plan _ hf h.swiss rfl ⟨h.plan plan hf, hall, hlenA, ?_, ?_, [], ?_, ?_⟩
      · exact .of_eq (RoundRobin.players_freshTable _)
      · exact .of_eq (RoundRobin.players_freshTable _)
      · rw [Finals, if_neg (by simp [openingGroups])]
      · simp only [h.arena, List.nil_append, List.append_nil]
        exact evolves_refl _
    · rw [heq]
      exact ⟨rfl, rfl, groupMatches (openingGroups groupA groupB), by simp only [h.arena],
        fun m hm => (mem_groupMatches hm).1⟩

theorem Blank.firstStage (draw : Draw) :
    Yields (OpeningFits t.format t.players.length) (t.firstStage draw) (Opens t) := by
  unfold Tournament.firstStage
  dsimp only
  split
  · exact h.single (t.entryDraw draw) ‹_›
  · exact h.double (t.entryDraw draw) ‹_›
  · exact h.swissEvent (t.entryDraw draw) ‹_›
  · exact h.roundRobin (t.entryDraw draw) ‹_›
  · exact h.groupStage (t.entryDraw draw) ‹_›

end Blank

/-! ## From the configuration -/

theorem check_eq_ok {c : Config} (h : c.check = .ok ()) :
    Roster.check c.players c.format.minPlayers = .ok () ∧ c.checkFormat = .ok () := by
  unfold Config.check at h
  split_ifs at h with hb
  · cases h
  obtain ⟨_, -, h⟩ := bind_eq_ok.1 h
  obtain ⟨_, -, h⟩ := bind_eq_ok.1 h
  obtain ⟨_, -, h⟩ := bind_eq_ok.1 h
  obtain ⟨_, hr, h⟩ := bind_eq_ok.1 h
  exact ⟨hr, h⟩

theorem check_of_create {c : Config} {stamp : Stamp} {draw : Draw} {t : Tournament}
    (h : create c stamp draw = .ok t) : c.check = .ok () := by
  obtain ⟨_, h, -⟩ := bind_eq_ok.1 h
  obtain ⟨⟨⟩, hc, -⟩ := bind_eq_ok.1 h
  exact hc

/-- A tournament of a configuration, which no device takes part in. -/
structure Live (c : Config) (t : Tournament) : Prop where
  running : Running t
  format : t.format = c.format
  players : t.players = c.players
  free : ∀ m ∈ t.arena, m.Free

/-- A configuration that passes opens a tournament, whose first stage is still to be drawn. -/
theorem create_eq {c : Config} (stamp : Stamp) (draw : Draw) (hc : c.check = .ok ()) :
    ∃ t, Blank t ∧ t.status = .notStarted ∧ t.format = c.format ∧ t.players = c.players ∧
      create c stamp draw = (t.start draw).toExcept := by
  obtain ⟨hr, hplan⟩ := check_eq_ok hc
  refine ⟨_, ⟨rfl, rfl, rfl, rfl, hr, fun plan hf => ?_⟩, rfl, rfl, rfl,
    by simp only [create, ofConfig, hc, bind, Except.bind]; rfl⟩
  have hf : c.format = .groups plan := hf
  rwa [Config.checkFormat, hf] at hplan

/-- A configuration that passes, with room for the ids, opens a tournament that runs and in which
nobody has played. -/
theorem create_yields_fresh {c : Config} (stamp : Stamp) (draw : Draw) (hc : c.check = .ok ()) :
    Yields (Fits c.format c.players.length) (create c stamp draw) fun t =>
      Live c t ∧ ∀ m ∈ t.arena, m.Fresh := by
  obtain ⟨t₀, hb, hst, hf₀, hp₀, hcreate⟩ := create_eq stamp draw hc
  rw [hcreate, start, if_neg (by simp [hst]), ← hf₀, ← hp₀]
  rcases hb.firstStage draw with ⟨t₁, h₁, ho⟩ | ⟨hn, h₁⟩
  swap
  · exact .inr ⟨fun hfits => hn hfits.opening, by simp only [h₁]; rfl⟩
  simp only [h₁]
  have hext := ho.grown
  rcases advance_cases (ho.sound.keep .inProgress t₁.swiss t₁.table t₁.groups)
    (ho.stages.withStatus .inProgress) rfl with ⟨t₂, effects, h₂, hr₂, he₂⟩ | ⟨hn, h₂⟩
  swap
  · refine .inr ⟨?_, ?_⟩
    · rwa [← hext.format, ← hext.players]
    · simp only [Reply.toExcept, h₂]
      rfl
  obtain ⟨new₁, hnew₁, hfresh₁⟩ := hext.arena
  obtain ⟨new₂, hnew₂, hfresh₂⟩ := he₂.arena
  have hfresh : ∀ m ∈ t₂.arena, m.Fresh := by
    rw [hnew₂]
    refine List.forall_mem_append.2 ⟨?_, hfresh₂⟩
    change ∀ m ∈ t₁.arena, m.Fresh
    rw [hnew₁, hb.arena]
    exact hfresh₁
  exact .inl ⟨t₂, by simp only [h₂]; rfl, ⟨hr₂, he₂.format.trans (hext.format.trans hf₀),
    he₂.players.trans (hext.players.trans hp₀), fun m hm => (hfresh m hm).free⟩, hfresh⟩

theorem create_yields {c : Config} (stamp : Stamp) (draw : Draw) (hc : c.check = .ok ()) :
    Yields (Fits c.format c.players.length) (create c stamp draw) (Live c) :=
  (create_yields_fresh stamp draw hc).imp (fun h => h) fun _ h => h.1

theorem fresh_of_create {c : Config} {stamp : Stamp} {draw : Draw} {t : Tournament}
    (h : create c stamp draw = .ok t) : ∀ m ∈ t.arena, m.Fresh :=
  ((create_yields_fresh stamp draw (check_of_create h)).of_ok h).2

theorem live_of_create {c : Config} {stamp : Stamp} {draw : Draw} {t : Tournament}
    (h : create c stamp draw = .ok t) : Live c t :=
  (create_yields stamp draw (check_of_create h)).of_ok h

/-! ## A small cup -/

/-- Four players in seed order, in any format. -/
def smallCup (format : Format) : Config where
  name := "Cup"
  format := format
  players := ["A", "B", "C", "D"]

def smallStamp : Stamp := ⟨Uuid.zero, Timestamp.epoch, "AAAAAA"⟩

end Tourney.Tournament
