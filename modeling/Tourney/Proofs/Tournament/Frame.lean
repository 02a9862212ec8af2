import Tourney.Proofs.Arena.Vacancies
import Tourney.Proofs.Tournament.Completion

/-!
# What a result leaves alone

A result disturbs no match that is resolved or has both its players, apart from the one it is for,
and where matches go on, they do so by legal moves (`Running.keeps_record`).
-/

namespace Tourney

/-- What an operation on the target, if it has one, leaves of a match. -/
structure Match.Undisturbed (target : Option MatchId) (m m' : Match) : Prop
    extends m.Evolves m' where
  others : m.isReady → target ≠ some m.id → m' = m
  status : m'.status = m.status ∨ m.status.canBecome m'.status

theorem MatchStatus.canBecome_of_resolved {s : MatchStatus} (h : s.isResolved) (s' : MatchStatus) :
    s.canBecome s' = false := by
  cases s <;> first | rfl | cases h

namespace Match

open Arena

variable {target : Option MatchId} {m m' : Match}

theorem Undisturbed.refl (m : Match) : m.Undisturbed target m :=
  ⟨.refl m, fun _ _ => rfl, .inl rfl⟩

/-- Nobody skips a match by a legal move. -/
theorem Undisturbed.skipped (h : m.Undisturbed target m') (hs : m'.status = .skipped) :
    m.status = .skipped := by
  rcases h.status with hst | hst
  · rw [← hst, hs]
  · rw [hs] at hst
    cases hm : m.status <;> rw [hm] at hst <;> cases hst

/-- A match that settling has not skipped is undisturbed. -/
theorem Follows.undisturbed (h : m.Follows m') (hs : m'.status = .skipped → m.status = .skipped) :
    m.Undisturbed target m' := by
  refine ⟨h.evolves, fun hready _ => h.fixed (.inr hready), ?_⟩
  by_cases hp : m.status = .pending
  · refine h.status.imp_right fun hres => ?_
    rw [hp] at hs ⊢
    cases hst : m'.status <;> simp_all [MatchStatus.isResolved, MatchStatus.canBecome]
  · rw [h.fixed (.inl hp)]
    exact .inl rfl

/-- A result disturbs none but its own match. -/
theorem undisturbed_withOutcome {o : Outcome} (h : checkOutcome m o = .ok ()) :
    m.Undisturbed (some m.id) (m.withOutcome o) := by
  have ho := (checkOutcome_eq_ok_iff.1 h).1
  refine ⟨⟨rfl, fun slot _ => by cases slot <;> rfl, fun hr => ?_⟩, fun _ hne => absurd rfl hne,
    .inr ?_⟩
  · rw [ho] at hr
    cases hr
  · cases hs : m.status <;> rw [hs] at ho <;> first | rfl | cases ho

/-- A match of a desk that moves on along a legal edge is undisturbed as a target. -/
theorem undisturbed_move {s : MatchStatus} (hs : m.status.canBecome s) (d : Option DeviceId) :
    m.Undisturbed (some m.id) (m.move s d) := by
  refine ⟨⟨rfl, fun slot _ => by cases slot <;> rfl, fun hr => ?_⟩, fun _ hne => absurd rfl hne,
    .inr hs⟩
  rw [MatchStatus.canBecome_of_resolved hr] at hs
  cases hs

end Match

namespace Tournament

open Arena

/-- The matches there are stay undisturbed, and once a tournament is complete it stays as it is. -/
structure Keeps (target : Option MatchId) (t t' : Tournament) : Prop where
  arena : ∃ kept new, t'.arena = kept ++ new ∧
    List.Forall₂ (Match.Undisturbed target) t.arena kept
  complete : t.status = .complete → t'.status = .complete ∧ t'.arena = t.arena

/-- What stays of a tournament from then on: the seats that are taken, the matches that are
resolved, and in the end everything. -/
structure Lasts (t t' : Tournament) : Prop where
  arena : ∃ kept new, t'.arena = kept ++ new ∧ List.Forall₂
    (fun m m' => m.Evolves m' ∧ (m'.status = .skipped → m.status = .skipped)) t.arena kept
  complete : t.status = .complete → t'.status = .complete ∧ t'.arena = t.arena

section Keeps

variable {target : Option MatchId} {t t' t'' : Tournament}

theorem Keeps.of_eq (hs : t'.status = t.status) (h : t'.arena = t.arena) : Keeps target t t' :=
  ⟨⟨t.arena, [], by rw [h, List.append_nil], List.forall₂_same.2 fun m _ => .refl m⟩,
    fun hc => ⟨hs.trans hc, h⟩⟩

theorem Keeps.lasts (h : Keeps target t t') : Lasts t t' := by
  obtain ⟨kept, new, hnew, hkept⟩ := h.arena
  exact ⟨⟨kept, new, hnew, hkept.imp fun _ _ hm => ⟨hm.toEvolves, hm.skipped⟩⟩, h.complete⟩

theorem Lasts.refl (t : Tournament) : Lasts t t :=
  ⟨⟨t.arena, [], (List.append_nil _).symm, List.forall₂_same.2 fun m _ => ⟨.refl m, fun hs => hs⟩⟩,
    fun hc => ⟨hc, rfl⟩⟩

theorem Lasts.trans (h : Lasts t t') (h' : Lasts t' t'') : Lasts t t'' := by
  obtain ⟨kept, new, hnew, hkept⟩ := h.arena
  obtain ⟨kept', new', hnew', hkept'⟩ := h'.arena
  rw [hnew] at hkept'
  -- of what there is later, as much as there was first has come from it
  have htake := List.forall₂_take kept.length hkept'
  rw [List.take_left] at htake
  refine ⟨⟨_, kept'.drop kept.length ++ new', ?_, forall₂_trans hkept htake ?_⟩, fun hc => ?_⟩
  · rw [hnew', ← List.append_assoc, List.take_append_drop]
  · exact fun _ _ _ ha hb => ⟨ha.1.trans hb.1, fun hs => ha.2 (hb.2 hs)⟩
  · obtain ⟨hstatus, harena⟩ := h.complete hc
    exact ⟨(h'.complete hstatus).1, (h'.complete hstatus).2.trans harena⟩

/-- A match that is resolved is found again as it is. -/
theorem Lasts.match?_eq (h : Lasts t t') (hr : Ordered t'.arena) {id : MatchId} {m : Match}
    (hm : t.match? id = some m) (hs : m.status.isResolved) : t'.match? id = some m := by
  obtain ⟨hmem, rfl⟩ := mem_of_find? hm
  obtain ⟨kept, new, hnew, hkept⟩ := h.arena
  obtain ⟨m', hm', hev, -⟩ := exists_right hkept hmem
  obtain rfl := hev.fixed hs
  exact hr.find? (hnew ▸ List.mem_append_left _ hm')

end Keeps

/-- A result that counts stands with its match. -/
theorem Running.match?_of_record {t t' : Tournament} (h : Running t) {id : MatchId} {o : Outcome}
    {effects : Effects} (hr : t.record id o = .done t' effects) :
    ∃ m, t.match? id = some m ∧ m.status.isResolved = false ∧
      t'.match? id = some (m.withOutcome o) := by
  obtain ⟨m, ms, hm, ho, hms, hrun, he⟩ := h.exists_of_done hr
  obtain ⟨hmem, rfl⟩ := mem_of_find? hm
  obtain ⟨new, hnew, -⟩ := he.arena
  obtain ⟨m', hm', hf⟩ := exists_right hms
    ((h.sound.coherent.wired.ordered.mem_modify hmem (f := (·.withOutcome o))).2 (.inl rfl))
  obtain rfl := hf.fixed (.inl (by simp [Match.withOutcome]))
  have hwon : m.withOutcome o ∈ t'.arena := hnew ▸ List.mem_append_left _ hm'
  exact ⟨m, hm, (checkOutcome_eq_ok_iff.1 ho).1, hrun.sound.coherent.wired.ordered.find? hwon⟩

theorem Running.keeps_record {t : Tournament} (h : Running t) (hreg : ∀ m ∈ t.arena, m.Regular)
    {id : MatchId} {o : Outcome} (hne : (t.record id o).answer ≠ .error .outOfRange) :
    Keeps (some id) t (t.record id o).state := by
  cases h.recorded id o with
  | refused f hf hr =>
    rw [hr]
    exact .of_eq rfl rfl
  | overflows m hm ho hwhy hr => exact absurd hr hne
  | done m ms t' effects hm ho htally hms hr hrun he =>
    obtain ⟨hmem, rfl⟩ := mem_of_find? hm
    obtain ⟨new, hnew, -⟩ := he.arena
    have hnew : t'.arena = ms ++ new := hnew
    have hev := evolves_trans (evolves_modify_withOutcome h.sound.coherent hmem ho)
      (hms.imp fun _ _ hf => hf.evolves)
    have hcoherent := hrun.sound.coherent
    rw [hnew] at hcoherent
    rw [hr]
    refine ⟨⟨ms, new, hnew, ?_⟩, fun hc => ?_⟩
    · rw [h.sound.coherent.wired.ordered.modify_eq_map, List.forall₂_map_left_iff] at hms
      refine List.forall₂_iff_zip.2 ⟨hms.length_eq, fun {a b} hab => ?_⟩
      obtain ⟨ha, hb⟩ := List.of_mem_zip hab
      have hfollows := (List.forall₂_iff_zip.1 hms).2 hab
      have hevolves := (List.forall₂_iff_zip.1 hev).2 hab
      by_cases hid : a.id = m.id
      · obtain rfl := h.sound.coherent.wired.ordered.eq_of_id_eq ha hmem hid
        rw [if_pos rfl] at hfollows
        rw [hfollows.fixed (.inl (by simp [Match.withOutcome]))]
        exact Match.undisturbed_withOutcome ho
      · rw [if_neg hid] at hfollows
        exact hfollows.undisturbed
          (h.sound.coherent.skipped_of_evolves hcoherent hev hreg ha hb hevolves)
    · have hres := h.all_resolved hc m hmem
      rw [(checkOutcome_eq_ok_iff.1 ho).1] at hres
      cases hres

end Tournament

end Tourney
