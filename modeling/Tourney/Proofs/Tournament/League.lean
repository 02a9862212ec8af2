import Tourney.Proofs.Tournament.Tables

/-!
# Leagues

As long as a round robin has a match to play, a result is entered in the arena and in a table, and
sets nothing else in motion (`Enters.idle`). So a run of results leaves what entering them one by
one leaves, and whatever the last of them unlocks (`Enters.last`).
-/

namespace Tourney.Tournament

open Arena RoundRobin

/-- A tournament of round robins that nobody has played in yet. -/
structure League (t : Tournament) : Prop where
  swiss : t.swiss = none
  nodup : ∀ s, (t.field s).Nodup
  fresh : ∀ s, t.tableOf s = freshTable (t.field s)
  unplayed : ∀ m ∈ t.arena, m.status.isResolved = false
  /-- Nobody goes on from a match, and nobody meets himself. -/
  fixture : ∀ m ∈ t.arena, m.stage ∈ t.leagues ∧ m.targets = [] ∧
    ∃ p1 p2, p1 ≠ p2 ∧ m.player1 = some p1 ∧ m.player2 = some p2

/-- Some match of a round robin is still to be played. -/
def Waits (t : Tournament) : Prop :=
  ∃ m ∈ t.arena, m.status.isResolved = false ∧ m.stage ∈ t.leagues

/-- The matches of some calls, won as the calls say. -/
def played (t : Tournament) (calls : List (MatchId × Outcome)) : List Match :=
  calls.filterMap fun call => (t.match? call.1).map (·.withOutcome call.2)

/-- An arena in which some matches have been won. -/
def won (calls : List (MatchId × Outcome)) (ms : List Match) : List Match :=
  calls.foldl (fun ms call => modify call.1 (·.withOutcome call.2) ms) ms

/-- The tournament with some calls entered in the arena, and with other tables. -/
def entered (t : Tournament) (calls : List (MatchId × Outcome)) (f : Stage → List Row) :
    Tournament :=
  { t.withTables f with arena := won calls t.arena }

/-- Some calls can be entered, and these are the tables then. -/
structure Enters (t : Tournament) (calls : List (MatchId × Outcome)) (f : Stage → List Row) :
    Prop where
  nodup : (calls.map Prod.fst).Nodup
  check : ∀ call ∈ calls, ∃ m, t.match? call.1 = some m ∧ checkOutcome m call.2 = .ok ()
  tables : ∀ s, play (t.field s) ((t.played calls).filter (·.stage = s)) = .ok (f s)

/-! ## Entering calls -/

section Won

variable {calls calls' : List (MatchId × Outcome)} {ms : List Match}

theorem won_append (calls : List (MatchId × Outcome)) (id : MatchId) (o : Outcome)
    (ms : List Match) :
    won (calls ++ [(id, o)]) ms = modify id (·.withOutcome o) (won calls ms) := by
  simp [won]

theorem won_perm (h : calls.Perm calls') (hnd : (calls.map Prod.fst).Nodup) :
    won calls ms = won calls' ms := by
  refine List.Perm.foldl_eq' h (fun x hx y hy ms => ?_) ms
  by_cases hxy : x = y
  · rw [hxy]
  · have hne : y.1 ≠ x.1 := fun heq => hxy (List.inj_on_of_nodup_map hnd hx hy heq.symm)
    exact modify_comm (Match.id_withOutcome y.2) (Match.id_withOutcome x.2) hne ms

theorem find?_won {id : MatchId} (h : id ∉ calls.map Prod.fst) :
    find? (won calls ms) id = find? ms id := by
  induction calls generalizing ms with
  | nil => rfl
  | cons call calls ih =>
    rw [List.map_cons, List.mem_cons, not_or] at h
    rw [won, List.foldl_cons, ← won, ih h.2,
      find?_modify_ne (Match.id_withOutcome call.2) (Ne.symm h.1)]

theorem find?_won_isSome (calls : List (MatchId × Outcome)) {id : MatchId} :
    (find? (won calls ms) id).isSome = (find? ms id).isSome := by
  induction calls generalizing ms with
  | nil => rfl
  | cons call calls ih =>
    rw [won, List.foldl_cons, ← won, ih]
    by_cases hid : call.1 = id
    · rw [← hid, find?_modify_self (Match.id_withOutcome call.2), Option.isSome_map]
    · rw [find?_modify_ne (Match.id_withOutcome call.2) hid]

/-- A match that has been won stays so. -/
theorem find?_won_complete {id : MatchId} (h : id ∈ calls.map Prod.fst) {m : Match}
    (hm : find? (won calls ms) id = some m) : m.status = .complete := by
  induction calls using List.reverseRec with
  | nil => simp at h
  | append_singleton calls call ih =>
    obtain ⟨id', o⟩ := call
    rw [won_append] at hm
    by_cases hid : id' = id
    · subst hid
      rw [find?_modify_self (Match.id_withOutcome o)] at hm
      obtain ⟨a, -, rfl⟩ := Option.map_eq_some_iff.1 hm
      rfl
    · rw [find?_modify_ne (Match.id_withOutcome o) hid] at hm
      refine ih ?_ hm
      simpa [Ne.symm hid] using h

theorem map_outline_won (calls : List (MatchId × Outcome)) (ms : List Match) :
    (won calls ms).map Match.outline = ms.map Match.outline := by
  induction calls generalizing ms with
  | nil => rfl
  | cons call calls ih =>
    rw [won, List.foldl_cons, ← won, ih,
      map_outline_modify fun m _ _ => Match.outline_withOutcome m call.2]

end Won

/-- A match is folded into the table of its stage, and the others stay. -/
theorem play_append {field : Stage → List Player} {ms : List Match} {m : Match}
    {f' : Stage → List Row} :
    (∀ s, play (field s) ((ms ++ [m]).filter (·.stage = s)) = .ok (f' s)) ↔
      ∃ f table, (∀ s, play (field s) (ms.filter (·.stage = s)) = .ok (f s)) ∧
        recordAndRank (f m.stage) m = .ok table ∧ f' = Function.update f m.stage table := by
  have hother : ∀ s, s ≠ m.stage →
      (ms ++ [m]).filter (·.stage = s) = ms.filter (·.stage = s) := fun s hs => by
    rw [List.filter_append, List.filter_cons_of_neg (by simpa using Ne.symm hs), List.filter_nil,
      List.append_nil]
  have hself : (ms ++ [m]).filter (·.stage = m.stage) = ms.filter (·.stage = m.stage) ++ [m] := by
    rw [List.filter_append, List.filter_cons_of_pos (by simp), List.filter_nil]
  have hlast : ∀ table, play (field m.stage) ((ms ++ [m]).filter (·.stage = m.stage)) = .ok table ↔
      ∃ before, play (field m.stage) (ms.filter (·.stage = m.stage)) = .ok before ∧
        recordAndRank before m = .ok table := fun table => by
    rw [hself, play, List.foldlM_append, bind_eq_ok]
    simp only [List.foldlM_cons, List.foldlM_nil, bind_pure, play]
  constructor
  · intro h
    obtain ⟨before, hbefore, hm⟩ := (hlast _).1 (h m.stage)
    refine ⟨Function.update f' m.stage before, f' m.stage, fun s => ?_, ?_, ?_⟩
    · by_cases hs : s = m.stage
      · subst hs
        rw [Function.update_self, hbefore]
      · rw [Function.update_of_ne hs, ← h s, hother s hs]
    · rw [Function.update_self, hm]
    · rw [Function.update_idem, Function.update_eq_self]
  · rintro ⟨f, table, h, hm, rfl⟩ s
    by_cases hs : s = m.stage
    · subst hs
      rw [Function.update_self]
      exact (hlast table).2 ⟨_, h m.stage, hm⟩
    · rw [Function.update_of_ne hs, hother s hs, h s]

section Enters

variable {t : Tournament} {calls calls' : List (MatchId × Outcome)} {id : MatchId} {o : Outcome}
  {m : Match} {f f' : Stage → List Row}

theorem played_append (hm : t.match? id = some m) :
    t.played (calls ++ [(id, o)]) = t.played calls ++ [m.withOutcome o] := by
  simp [played, hm]

theorem enters_append_iff (hm : t.match? id = some m) : Enters t (calls ++ [(id, o)]) f' ↔
    ∃ f table, Enters t calls f ∧ id ∉ calls.map Prod.fst ∧ checkOutcome m o = .ok () ∧
      recordAndRank (f m.stage) (m.withOutcome o) = .ok table ∧
      f' = Function.update f m.stage table := by
  constructor
  · rintro ⟨hnd, hc, ht⟩
    rw [played_append hm, play_append] at ht
    obtain ⟨f, table, hf, hr, rfl⟩ := ht
    rw [List.map_append, List.nodup_append] at hnd
    obtain ⟨hnd, -, hdis⟩ := hnd
    obtain ⟨m', hm', ho⟩ := hc (id, o) (by simp)
    obtain rfl : m = m' := Option.some.inj (hm.symm.trans hm')
    exact ⟨f, table, ⟨hnd, fun call hcall => hc call (by simp [hcall]), hf⟩,
      fun hid => hdis id hid id (by simp) rfl, ho, hr, rfl⟩
  · rintro ⟨f, table, h, hid, ho, hr, rfl⟩
    refine ⟨?_, fun call hcall => ?_, ?_⟩
    · rw [List.map_append, List.nodup_append]
      refine ⟨h.nodup, by simp, fun a ha b hb hab => hid ?_⟩
      simp only [List.map_cons, List.map_nil, List.mem_singleton] at hb
      rwa [← hb, ← hab]
    · rcases List.mem_append.1 hcall with hcall | hcall
      · exact h.check call hcall
      · obtain rfl := List.mem_singleton.1 hcall
        exact ⟨m, hm, ho⟩
    · rw [played_append hm]
      exact play_append.2 ⟨f, table, h.tables, hr, rfl⟩

variable (hl : League t)

include hl

theorem League.played (hc : ∀ call ∈ calls, ∃ m, t.match? call.1 = some m ∧
    checkOutcome m call.2 = .ok ()) (hm : m ∈ t.played calls) : ∃ p1 p2, Played m p1 p2 := by
  obtain ⟨call, hcall, hmap⟩ := List.mem_filterMap.1 hm
  obtain ⟨a, ha, rfl⟩ := Option.map_eq_some_iff.1 hmap
  obtain ⟨b, hb, ho⟩ := hc call hcall
  obtain rfl : a = b := Option.some.inj (ha.symm.trans hb)
  obtain ⟨-, -, p1, p2, hne, h1, h2⟩ := hl.fixture a (mem_of_find? ha).1
  exact ⟨p1, p2, played_withOutcome ho hne h1 h2⟩

/-- Calls that can be entered can be entered in any order. -/
theorem Enters.perm (h : Enters t calls f) (hperm : calls.Perm calls') :
    ∃ f', Enters t calls' f' := by
  have hplayed : ∀ s, ∃ table,
      play (t.field s) ((t.played calls').filter (·.stage = s)) = .ok table := fun s =>
    exists_play_of_perm (fun m hm => hl.played h.check (List.mem_filter.1 hm).1)
      ((hperm.filterMap _).filter _) (h.tables s)
  choose f' hf' using hplayed
  exact ⟨f', ((hperm.map _).nodup_iff).1 h.nodup,
    fun call hcall => h.check call (hperm.mem_iff.2 hcall), hf'⟩

end Enters

/-! ## Recording calls -/

section Waits

variable {t : Tournament}

theorem Waits.drawFinals (h : t.Waits) : t.drawFinals = .ok (t, []) := by
  unfold Tournament.drawFinals
  split
  · rename_i plan g hf hg
    obtain ⟨m, hm, ho, hs⟩ := h
    have hres : t.stageResolved m.stage = false :=
      List.all_eq_false.2 ⟨m, hm, by simp [ho]⟩
    rw [leagues_groups hf hg] at hs
    rw [if_pos]
    rcases List.mem_pair.1 hs with hs | hs <;> rw [hs] at hres <;> simp [hres]
  · rfl

/-- As long as a match is to be played, an advance does nothing. -/
theorem Waits.advance (h : t.Waits) (hs : t.swiss = none) : t.advance = .done t {} := by
  have hover : t.isOver = false := by
    obtain ⟨m, hm, ho, -⟩ := h
    have hall : t.arena.all (·.status.isResolved) = false :=
      List.all_eq_false.2 ⟨m, hm, by simp [ho]⟩
    simp [isOver, allStagesDone, hall]
  simp only [Tournament.advance, pairNextRound_league hs, h.drawFinals, hover]
  rfl

end Waits

section Record

variable {t : Tournament} {calls calls' : List (MatchId × Outcome)} {id : MatchId} {o : Outcome}
  {m : Match} {f : Stage → List Row} (hl : League t)

include hl

theorem League.entered_nil (h : Enters t [] f) : t.entered [] f = t := by
  have hf : f = t.tableOf := funext fun s => by
    have hs := h.tables s
    rw [hl.fresh s]
    exact (Except.ok.inj hs).symm
  rw [hf, entered, withTables_tableOf]
  rfl

theorem League.tally_entered (hm : m ∈ t.arena) (ms : List Match) :
    Tournament.tally { t.withTables f with arena := ms } (m.withOutcome o) =
      recordAndRank (f m.stage) (m.withOutcome o) >>= fun table =>
        .ok { t.withTables (Function.update f m.stage table) with arena := ms } := by
  have htally : (t.withTables f).tally (m.withOutcome o) = _ :=
    tally_withTables (m := m.withOutcome o) (hl.fixture m hm).1
  rw [tally_arena, htally]
  change Except.map _ (recordAndRank (f m.stage) (m.withOutcome o) >>= _) = _
  cases recordAndRank (f m.stage) (m.withOutcome o) <;> rfl

section Entered

variable (hm : t.match? id = some m) (hid : id ∉ calls.map Prod.fst)
  (ho : checkOutcome m o = .ok ())

include hm hid ho

theorem League.complete_entered : Arena.complete (t.entered calls f).arena id o =
      .done (won (calls ++ [(id, o)]) t.arena) () ∧
    Arena.find (won (calls ++ [(id, o)]) t.arena) id = .ok (m.withOutcome o) := by
  have hfind : find? (won calls t.arena) id = some m := (find?_won hid).trans hm
  rw [won_append]
  exact ⟨complete_of_targets hfind ho (hl.fixture m (mem_of_find? hm).1).2.1,
    find_withOutcome hfind⟩

/-- A call that can be entered is, and sets in motion what an advance does. -/
theorem League.record_entered {table : List Row}
    (hr : recordAndRank (f m.stage) (m.withOutcome o) = .ok table) :
    (t.entered calls f).record id o =
      (t.entered (calls ++ [(id, o)]) (Function.update f m.stage table)).advance := by
  obtain ⟨hcomplete, hwon⟩ := hl.complete_entered (f := f) hm hid ho
  have htally := hl.tally_entered (f := f) (o := o) (mem_of_find? hm).1
    (won (calls ++ [(id, o)]) t.arena)
  rw [hr] at htally
  exact record_eq_advance hcomplete hwon htally

theorem League.record_error {e : Fault}
    (hr : recordAndRank (f m.stage) (m.withOutcome o) = .error e) :
    ((t.entered calls f).record id o).answer = .error e := by
  obtain ⟨hcomplete, hwon⟩ := hl.complete_entered (f := f) hm hid ho
  have htally := hl.tally_entered (f := f) (o := o) (mem_of_find? hm).1
    (won (calls ++ [(id, o)]) t.arena)
  rw [hr] at htally
  rw [record_eq_refused hcomplete hwon htally]
  rfl

end Entered

theorem League.waits_entered (hm : t.match? id = some m) (hid : id ∉ calls.map Prod.fst)
    (ho : m.status.isResolved = false) : (t.entered calls f).Waits := by
  have hfind : find? (t.entered calls f).arena id = some m := (find?_won hid).trans hm
  refine ⟨m, (mem_of_find? hfind).1, ho, ?_⟩
  change m.stage ∈ (t.withTables f).leagues
  rw [leagues_withTables]
  exact (hl.fixture m (mem_of_find? hm).1).1

/-- Calls that leave a match to play are taken, and entered without more ado. -/
theorem Enters.idle (h : Enters t calls f) (hw : (t.entered calls f).Waits) :
    Taken t calls ∧ t.recordAll calls = t.entered calls f := by
  induction calls using List.reverseRec generalizing f with
  | nil => exact ⟨trivial, (hl.entered_nil h).symm⟩
  | append_singleton calls call ih =>
    obtain ⟨id, o⟩ := call
    obtain ⟨m, hm, -⟩ := h.check (id, o) (by simp)
    obtain ⟨f₀, table, h₀, hid, ho, hr, rfl⟩ := (enters_append_iff hm).1 h
    obtain ⟨htaken, hstate⟩ :=
      ih h₀ (hl.waits_entered hm hid (checkOutcome_eq_ok_iff.1 ho).1)
    have hrecord : (t.entered calls f₀).record id o = .done (t.entered (calls ++ [(id, o)])
        (Function.update f₀ m.stage table)) {} := by
      rw [hl.record_entered hm hid ho hr]
      exact hw.advance ((swiss_withTables t _).trans hl.swiss)
    rw [taken_append, recordAll_append, hstate, hrecord]
    exact ⟨⟨htaken, rfl⟩, rfl⟩

/-- The last call is entered, and sets in motion what an advance does. -/
theorem Enters.last (h : Enters t (calls ++ [(id, o)]) f) : ∃ f₀, Enters t calls f₀ ∧
    Taken t calls ∧ t.recordAll calls = t.entered calls f₀ ∧
      (t.recordAll calls).record id o = (t.entered (calls ++ [(id, o)]) f).advance := by
  obtain ⟨m, hm, -⟩ := h.check (id, o) (by simp)
  obtain ⟨f₀, table, h₀, hid, ho, hr, rfl⟩ := (enters_append_iff hm).1 h
  obtain ⟨htaken, hstate⟩ := h₀.idle hl (hl.waits_entered hm hid (checkOutcome_eq_ok_iff.1 ho).1)
  refine ⟨f₀, h₀, htaken, hstate, ?_⟩
  rw [hstate, hl.record_entered hm hid ho hr]

/-- Calls that have been taken can be entered. -/
theorem League.enters (hids : ∀ call ∈ calls, (t.match? call.1).isSome) (h : Taken t calls) :
    ∃ f, Enters t calls f := by
  induction calls using List.reverseRec with
  | nil => exact ⟨fun s => freshTable (t.field s), .nil, by simp, fun s => rfl⟩
  | append_singleton calls call ih =>
    obtain ⟨id, o⟩ := call
    rw [taken_append] at h
    obtain ⟨f₀, h₀⟩ := ih (fun call hcall => hids call (by simp [hcall])) h.1
    have hm : (t.match? id).isSome := hids (id, o) (by simp)
    -- the arena still begins with the matches the tournament began with
    have harena : ∃ new, (t.recordAll calls).arena = won calls t.arena ++ new := by
      rcases List.eq_nil_or_concat calls with rfl | ⟨before, ⟨id', o'⟩, rfl⟩
      · exact ⟨[], by simp [recordAll, won]⟩
      · rw [List.concat_eq_append] at h₀ ⊢
        obtain ⟨-, -, -, -, hlast⟩ := h₀.last hl
        have hswiss : (t.entered (before ++ [(id', o')]) f₀).swiss = none :=
          (swiss_withTables t f₀).trans hl.swiss
        rw [recordAll_append, hlast]
        obtain ⟨-, new, hnew, -⟩ := advance_league hswiss
        exact ⟨new, hnew⟩
    obtain ⟨new, harena⟩ := harena
    obtain ⟨effects, heffects⟩ := isOk_iff.1 h.2
    obtain ⟨m', hm', ho⟩ := match_of_record heffects
    have hwon : find? (won calls t.arena) id = some m' := by
      rw [match?, harena, find?, List.find?_append] at hm'
      rcases hold : find? (won calls t.arena) id with _ | a
      · have hsome := (find?_won_isSome calls).trans hm
        rw [hold] at hsome
        cases hsome
      · rw [show List.find? _ (won calls t.arena) = some a from hold] at hm'
        exact hm'
    have hopen := (checkOutcome_eq_ok_iff.1 ho).1
    have hid : id ∉ calls.map Prod.fst := fun hid => by
      rw [find?_won_complete hid hwon] at hopen
      cases hopen
    have hm : t.match? id = some m' := (find?_won hid).symm.trans hwon
    obtain ⟨-, hstate⟩ := h₀.idle hl (hl.waits_entered hm hid hopen)
    rcases hr : recordAndRank (f₀ m'.stage) (m'.withOutcome o) with e | table
    · rw [hstate, hl.record_error hm hid ho hr] at heffects
      cases heffects
    · exact ⟨_, (enters_append_iff hm).2 ⟨f₀, table, h₀, hid, ho, hr, rfl⟩⟩

end Record

end Tourney.Tournament
