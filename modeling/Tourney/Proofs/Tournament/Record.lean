import Tourney.Proofs.Tournament.Advance

/-!
# Recording a result

What a call can do to a running tournament (`Running.recorded`): it is refused and nothing changes,
or a number leaves its range, or the match is won and everything goes on from there.
-/

namespace Tourney.Tournament

open Arena Elimination Seeding

inductive Recorded (t : Tournament) (id : MatchId) (o : Outcome) : Prop
  | refused (f : Fault) (hf : f ≠ .outOfRange) (h : t.record id o = .refused t f)
      (hno : ∀ m, t.match? id = some m → checkOutcome m o ≠ .ok ())
  | overflows (m : Match) (hm : t.match? id = some m) (ho : checkOutcome m o = .ok ())
      (hwhy : t.format ≠ .swiss ∧ t.tally (m.withOutcome o) = .error .outOfRange ∨
        ¬Fits t.format t.players.length)
      (h : (t.record id o).answer = .error .outOfRange)
  | done (m : Match) (ms : List Match) (t' : Tournament) (effects : Effects)
      (hm : t.match? id = some m) (ho : checkOutcome m o = .ok ())
      (htally : t.tally (m.withOutcome o) ≠ .error .outOfRange)
      (hms : List.Forall₂ Match.Settles (Arena.modify id (·.withOutcome o) t.arena) ms)
      (h : t.record id o = .done t' effects) (hr : Running t')
      (he : { t with arena := ms }.Extends t')

/-- The tournament with a result in it, before anything follows from it. -/
def enter (t : Tournament) (id : MatchId) (o : Outcome) : Except Fault Tournament := do
  (Arena.complete t.arena id o).answer
  let m ← Arena.find (Arena.complete t.arena id o).state id
  tally { t with arena := (Arena.complete t.arena id o).state } m

section Step

variable {t t' : Tournament} {id : MatchId} {o : Outcome} {ms : List Match} {m : Match}

/-- A result that is entered sets in motion what an advance does. -/
theorem record_of_enter (h : t.enter id o = .ok t') : t.record id o = t'.advance := by
  obtain ⟨⟨⟩, hc, h⟩ := bind_eq_ok.1 h
  have hfold : Arena.find (Arena.complete t.arena id o).state id >>=
      tally { t with arena := (Arena.complete t.arena id o).state } = .ok t' := h
  simp only [record, hc, hfold]

theorem exists_enter {effects : Effects} (h : (t.record id o).answer = .ok effects) :
    ∃ t', t.enter id o = .ok t' := by
  rw [record] at h
  rcases hc : (Arena.complete t.arena id o).answer with f | ⟨⟩
  · simp only [hc] at h
    cases h
  rcases hfold : Arena.find (Arena.complete t.arena id o).state id >>=
      tally { t with arena := (Arena.complete t.arena id o).state } with f | t'
  · simp only [hc, hfold] at h
    cases h
  · exact ⟨t', bind_eq_ok.2 ⟨(), hc, hfold⟩⟩

variable (hc : Arena.complete t.arena id o = .done ms ()) (hm : Arena.find ms id = .ok m)

include hc hm

theorem enter_eq : t.enter id o = tally { t with arena := ms } m := by
  rw [enter, hc]
  simp only [Reply.done, hm]
  rfl

/-- A result that is entered in arena and tables sets in motion what an advance does. -/
theorem record_eq_advance (ht : tally { t with arena := ms } m = .ok t') :
    t.record id o = t'.advance :=
  record_of_enter ((enter_eq hc hm).trans ht)

theorem record_eq_refused {f : Fault} (ht : tally { t with arena := ms } m = .error f) :
    t.record id o = .refused { t with arena := ms } f := by
  have hfold : Arena.find ms id >>= tally { t with arena := ms } = .error f := by
    rw [hm]
    exact ht
  simp only [record, hc, Reply.done, hfold]

end Step

section Apart

variable {ms : List Match} {id : MatchId} {o : Outcome} {m : Match}

theorem sequel_of_targets (ht : m.targets = []) (o : Outcome) :
    sequel (m.withOutcome o) = [] := by
  rw [Match.targets, List.append_eq_nil_iff, Option.toList_eq_nil_iff,
    Option.toList_eq_nil_iff] at ht
  simp [sequel, Match.withOutcome, ht.1, ht.2]

/-- From a match that leads nowhere nobody goes on. -/
theorem complete_of_targets (hm : find? ms id = some m) (ho : checkOutcome m o = .ok ())
    (ht : m.targets = []) :
    Arena.complete ms id o = .done (Arena.modify id (·.withOutcome o) ms) () := by
  simp only [Arena.complete, hm, ho, sequel_of_targets ht o, run]

theorem find_withOutcome (hm : find? ms id = some m) :
    Arena.find (Arena.modify id (·.withOutcome o) ms) id = .ok (m.withOutcome o) := by
  rw [Arena.find, find?_modify_self (Match.id_withOutcome o), hm]
  rfl

end Apart

theorem match_of_record {t : Tournament} {id : MatchId} {o : Outcome} {effects : Effects}
    (h : (t.record id o).answer = .ok effects) :
    ∃ m, t.match? id = some m ∧ checkOutcome m o = .ok () := by
  unfold Tournament.record Arena.complete at h
  rcases hm : find? t.arena id with _ | m
  · rw [hm] at h
    cases h
  · rw [hm] at h
    rcases ho : checkOutcome m o with e | ⟨⟩
    · simp only [ho] at h
      cases h
    · exact ⟨m, hm, ho⟩

/-- A result that passes is entered, and its match stays as it has been won. -/
theorem Sound.exists_complete {t : Tournament} (h : Sound t) {m : Match} (hm : m ∈ t.arena)
    {o : Outcome} (ho : checkOutcome m o = .ok ()) :
    ∃ ms, Arena.complete t.arena m.id o = .done ms () ∧ Coherent ms [] ∧
      List.Forall₂ Match.Settles (Arena.modify m.id (·.withOutcome o) t.arena) ms ∧
      Arena.find ms m.id = .ok (m.withOutcome o) := by
  obtain ⟨ms, hcomplete, hc, hms⟩ := h.coherent.complete_settles hm ho
  have hwon : m.withOutcome o ∈ Arena.modify m.id (·.withOutcome o) t.arena :=
    (h.coherent.wired.ordered.mem_modify hm).2 (.inl rfl)
  obtain ⟨m', hm', hf⟩ := exists_right hms hwon
  obtain rfl := hf.fixed (.inl (by simp [Match.withOutcome]))
  have hfind : find? ms m.id = some (m.withOutcome o) := hc.wired.ordered.find? hm'
  exact ⟨ms, hcomplete, hc, hms, by rw [Arena.find, hfind]⟩

theorem Running.status_of_open {t : Tournament} (h : Running t) (ho : t.Open) :
    t.status = .inProgress := by
  rw [h.settled, if_neg ho.not_allStagesDone]

theorem Running.recorded {t : Tournament} (h : Running t) (id : MatchId) (o : Outcome) :
    Recorded t id o := by
  have hs := h.sound
  rcases hm : t.match? id with _ | m
  · refine .refused (.matchNotFound id) (by simp) ?_ fun m hm' => by rw [hm] at hm'; cases hm'
    have hfind : find? t.arena id = none := hm
    simp only [record, Arena.complete, hfind]
    rfl
  obtain ⟨hmem, rfl⟩ := mem_of_find? hm
  rcases ho : checkOutcome m o with f | ⟨⟩
  · refine .refused f ?_ ?_ fun m' hm' hok => ?_
    · unfold checkOutcome at ho
      split_ifs at ho <;> cases ho <;> simp
    · have hfind : find? t.arena m.id = some m := hm
      simp only [record, Arena.complete, hfind, ho]
      rfl
    · rw [hm] at hm'
      cases hm'
      rw [ho] at hok
      cases hok
  obtain ⟨ms, hcomplete, hc, hms, hfind⟩ := hs.exists_complete hmem ho
  have he := evolves_trans (evolves_modify_withOutcome hs.coherent hmem ho)
    (hms.imp fun _ _ hf => hf.evolves)
  have hopen := (checkOutcome_eq_ok_iff.1 ho).1
  have hcount : t.arena.countP (·.status = .complete) + 1 ≤ ms.countP (·.status = .complete) := by
    have hlt : m.status ≠ .complete := fun hc => by
      rw [hc] at hopen
      cases hopen
    rw [← countP_modify (p := fun m => m.status = .complete) (f := (·.withOutcome o)) hm
      (by simpa using hlt) (by simp [Match.withOutcome])]
    exact countP_complete_le (hms.imp fun _ _ hf => hf.evolves)
  have hfit : ms.length < UInt32.size := by
    have hfits := hs.fits
    rw [← he.length_eq]
    omega
  have harena := tally_arena t ms (m.withOutcome o)
  rcases h.stages.tally (m.withOutcome o) he hcount hfit with
    ⟨swiss, table, groups, htally, hstages⟩ | ⟨hformat, htally⟩
  · rw [htally] at harena
    have hrecord := record_eq_advance hcomplete hfind harena
    have hsound : Sound { t with arena := ms, swiss, table, groups } :=
      (hs.goOn hc he).keep t.status swiss table groups
    rcases advance_cases hsound hstages (h.status_of_open ⟨m, hmem, hopen⟩) with
      ⟨t', effects, hadv, hr, hext⟩ | ⟨hn, hadv⟩
    swap
    · exact .overflows m hm ho (.inr hn) (by rw [hrecord]; exact hadv)
    exact .done m ms t' effects hm ho (by simp [htally]) hms (hrecord.trans hadv) hr
      ⟨hext.format, hext.players, hext.arena⟩
  · rw [htally] at harena
    have hrecord := record_eq_refused hcomplete hfind harena
    exact .overflows m hm ho (.inl ⟨hformat, htally⟩) (by rw [hrecord]; rfl)

/-- A call that is taken has won its match, after which the arena has settled and gone on. -/
theorem Running.exists_of_done {t t' : Tournament} (h : Running t) {id : MatchId} {o : Outcome}
    {effects : Effects} (hr : t.record id o = .done t' effects) :
    ∃ m ms, t.match? id = some m ∧ checkOutcome m o = .ok () ∧
      List.Forall₂ Match.Settles (Arena.modify id (·.withOutcome o) t.arena) ms ∧ Running t' ∧
      { t with arena := ms }.Extends t' := by
  cases h.recorded id o with
  | refused f hf hrec => exact absurd (hr.symm.trans hrec) nofun
  | overflows m hm ho hwhy hrec =>
    rw [hr] at hrec
    cases hrec
  | done m ms t₁ effects₁ hm ho htally hms hrec hrun he =>
    obtain rfl : t' = t₁ := congrArg Reply.state (hr.symm.trans hrec)
    exact ⟨m, ms, hm, ho, hms, hrun, he⟩

/-- What may not be recorded changes nothing. -/
theorem Running.exists_refused {t : Tournament} (h : Running t) {id : MatchId} {o : Outcome}
    (hno : ∀ m, t.match? id = some m → checkOutcome m o ≠ .ok ()) :
    ∃ f, f ≠ .outOfRange ∧ t.record id o = .refused t f := by
  cases h.recorded id o with
  | refused f hf hr => exact ⟨f, hf, hr⟩
  | overflows m hm ho => exact absurd ho (hno m hm)
  | done m ms t' effects hm ho => exact absurd ho (hno m hm)

/-- A call that is refused changes nothing, and is refused only for cause. -/
theorem Running.refused_of_error {t : Tournament} (h : Running t) {id : MatchId} {o : Outcome}
    {f : Fault} (hf : f ≠ .outOfRange) (hr : (t.record id o).answer = .error f) :
    (∀ m, t.match? id = some m → checkOutcome m o ≠ .ok ()) ∧ (t.record id o).state = t := by
  cases h.recorded id o with
  | refused f' _ hrec hno =>
    rw [hrec]
    exact ⟨hno, rfl⟩
  | overflows m hm ho hwhy hrec =>
    rw [hrec] at hr
    exact absurd (Except.error.inj hr).symm hf
  | done m ms t' effects hm ho htally hms hrec =>
    rw [hrec] at hr
    cases hr

/-! ## The arena after a result -/

section Done

variable {t t' : Tournament} {m : Match} {o : Outcome} {ms : List Match} (h : Running t)
  (hm : m ∈ t.arena)
  (hms : List.Forall₂ Match.Settles (Arena.modify m.id (·.withOutcome o) t.arena) ms)
  (he : { t with arena := ms }.Extends t')

include h hm hms he

theorem Running.kept_of_done (ho : checkOutcome m o = .ok ()) {a : Match} (ha : a ∈ t.arena) :
    ∃ b ∈ t'.arena, b.id = a.id := by
  have houtl := map_outline_of_evolves (evolves_trans
    (evolves_modify_withOutcome h.sound.coherent hm ho) (hms.imp fun _ _ hf => hf.evolves))
  obtain ⟨b, hb, hbo⟩ := mem_map_outline houtl.symm ha
  obtain ⟨new, hnew, -⟩ := he.arena
  refine ⟨b, ?_, (Match.outline_id hbo).symm⟩
  rw [hnew]
  exact List.mem_append_left _ hb

/-- A match after the result is the one it was for, has followed another one, or is new. -/
theorem Running.cases_of_done (ho : checkOutcome m o = .ok ()) (hrun : Running t') {b : Match}
    (hb : b ∈ t'.arena) : b = m.withOutcome o ∨ (∃ a ∈ t.arena, a.id ≠ m.id ∧ a.Follows b) ∨
      b.Free ∧ ∀ a ∈ t.arena, a.id ≠ b.id := by
  obtain ⟨new, hnew, hfresh⟩ := he.arena
  have hnew : t'.arena = ms ++ new := hnew
  have hb' := hb
  rw [hnew] at hb'
  rcases List.mem_append.1 hb' with hb' | hb'
  · obtain ⟨a, ha, hf⟩ := exists_left hms hb'
    rcases (h.sound.coherent.wired.ordered.mem_modify hm).1 ha with rfl | ⟨ha, hid⟩
    · exact .inl (hf.fixed (.inl (by simp [Match.withOutcome])))
    · exact .inr (.inl ⟨a, ha, hid, hf.toFollows⟩)
  · refine .inr (.inr ⟨(hfresh b hb').free, fun a ha hid => ?_⟩)
    have houtl := map_outline_of_evolves (evolves_trans
      (evolves_modify_withOutcome h.sound.coherent hm ho) (hms.imp fun _ _ hf => hf.evolves))
    obtain ⟨c, hc, hco⟩ := mem_map_outline houtl.symm ha
    have hnodup := hrun.sound.coherent.wired.ordered.nodup
    rw [hnew, List.map_append, List.nodup_append] at hnodup
    exact hnodup.2.2 _ (List.mem_map_of_mem hc) _ (List.mem_map_of_mem hb')
      ((Match.outline_id hco).symm.trans hid)

/-- One match more has been played. -/
theorem Running.played_of_done (ho : checkOutcome m o = .ok ()) :
    (t'.arena.filter Match.isPlayed).Perm
      (m.withOutcome o :: t.arena.filter Match.isPlayed) := by
  obtain ⟨hopen, hready, -⟩ := checkOutcome_eq_ok_iff.1 ho
  obtain ⟨new, hnew, hfresh⟩ := he.arena
  have hnone : new.filter Match.isPlayed = [] :=
    List.filter_eq_nil_iff.2 fun a ha => by simp [(hfresh a ha).unplayed]
  have hunplayed : m.isPlayed = false := by
    cases hs : m.status <;> simp_all [Match.isPlayed, MatchStatus.isResolved]
  have hplayed : (m.withOutcome o).isPlayed := by
    simp only [Match.isPlayed, Bool.and_eq_true, decide_eq_true_eq]
    exact ⟨rfl, hready⟩
  rw [hnew, List.filter_append, hnone, List.append_nil, filter_isPlayed_of_settles hms]
  exact filter_modify_perm (h.sound.coherent.wired.ordered.find? hm) hunplayed hplayed

end Done

end Tourney.Tournament
