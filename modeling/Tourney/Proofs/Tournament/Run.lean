import Tourney.Proofs.Tournament.Create
import Tourney.Proofs.Tournament.Record

/-!
# Runs

A tournament that is driven by results alone keeps running whatever is recorded
(`Live.recordAll`), as long as no counter overflows, which only those of a table can
(`Live.inRange`), and there are ids for every match.
-/

namespace Tourney.Tournament

open Arena

/-- The tournament after some calls, the refused ones among them. -/
def recordAll (t : Tournament) (calls : List (MatchId × Outcome)) : Tournament :=
  calls.foldl (fun t call => (t.record call.1 call.2).state) t

/-- Every call is taken. -/
def Taken (t : Tournament) : List (MatchId × Outcome) → Prop
  | [] => True
  | (id, o) :: calls => (t.record id o).answer.isOk ∧ Taken (t.record id o).state calls

instance decidableTaken : (t : Tournament) → (calls : List (MatchId × Outcome)) →
    Decidable (Taken t calls)
  | _, [] => isTrue trivial
  | t, (id, o) :: calls =>
    match h : (t.record id o).answer.isOk, decidableTaken (t.record id o).state calls with
    | true, isTrue h' => isTrue ⟨h, h'⟩
    | true, isFalse h' => isFalse fun hc => h' hc.2
    | false, _ => isFalse fun hc => Bool.false_ne_true (h.symm.trans hc.1)

/-- A result that may be recorded, but for which some counter has no room. -/
def Overflows (t : Tournament) (id : MatchId) (o : Outcome) : Prop :=
  ∃ m, t.match? id = some m ∧ checkOutcome m o = .ok () ∧
    t.tally (m.withOutcome o) = .error .outOfRange

/-- No call overflows a counter. -/
def InRange (t : Tournament) : List (MatchId × Outcome) → Prop
  | [] => True
  | (id, o) :: calls => ¬t.Overflows id o ∧ InRange (t.record id o).state calls

/-- Every call comes back. One that takes a number out of its range never does. -/
def Returns (t : Tournament) : List (MatchId × Outcome) → Prop
  | [] => True
  | (id, o) :: calls =>
    (t.record id o).answer ≠ .error .outOfRange ∧ Returns (t.record id o).state calls

section Append

variable (t : Tournament) (calls : List (MatchId × Outcome)) (id : MatchId) (o : Outcome)

theorem recordAll_append :
    t.recordAll (calls ++ [(id, o)]) = ((t.recordAll calls).record id o).state := by
  simp [recordAll]

theorem taken_append : Taken t (calls ++ [(id, o)]) ↔
    Taken t calls ∧ ((t.recordAll calls).record id o).answer.isOk := by
  induction calls generalizing t with
  | nil => simp [Taken, recordAll]
  | cons call calls ih =>
    rw [List.cons_append, Taken, Taken, ih, and_assoc]
    rfl

end Append

/-- What every call keeps that comes back, a run of such calls keeps. -/
theorem Returns.recordAll {P : Tournament → Prop} (hstep : ∀ t id o, P t →
    (t.record id o).answer ≠ .error .outOfRange → P (t.record id o).state) {t : Tournament}
    (h : P t) {calls : List (MatchId × Outcome)} (hr : Returns t calls) :
    P (t.recordAll calls) := by
  induction calls generalizing t with
  | nil => exact h
  | cons call calls ih => exact ih (hstep t call.1 call.2 h hr.1) hr.2

/-- A call that is taken comes back. -/
theorem Taken.returns {t : Tournament} {calls : List (MatchId × Outcome)} (h : Taken t calls) :
    Returns t calls := by
  induction calls generalizing t with
  | nil => trivial
  | cons call calls ih =>
    obtain ⟨effects, heffects⟩ := isOk_iff.1 h.1
    exact ⟨by simp [heffects], ih h.2⟩

section Live

variable {c : Config} {t : Tournament}

/-- A call whose numbers stay in range leaves the tournament live, taken or refused. -/
theorem Live.record_of_ne (h : Live c t) {id : MatchId} {o : Outcome}
    (hne : (t.record id o).answer ≠ .error .outOfRange) : Live c (t.record id o).state := by
  cases h.running.recorded id o with
  | refused f hf hr hno =>
    rw [hr]
    exact h
  | overflows m hm ho hwhy hr => exact absurd hr hne
  | done m ms t' effects hm ho hok hms hr hrun he =>
    rw [hr]
    refine ⟨hrun, he.format.trans h.format, he.players.trans h.players, ?_⟩
    obtain ⟨hmem, rfl⟩ := mem_of_find? hm
    intro b hb
    rcases h.running.cases_of_done hmem hms he ho hrun hb with
      rfl | ⟨a, ha, -, hf⟩ | ⟨hfree, -⟩
    · exact ⟨rfl, rfl⟩
    · exact (h.free a ha).follows hf
    · exact hfree

theorem Live.answer_ne (h : Live c t) (hfits : Fits c.format c.players.length) {id : MatchId}
    {o : Outcome} (hne : ¬t.Overflows id o) : (t.record id o).answer ≠ .error .outOfRange := by
  intro hover
  cases h.running.recorded id o with
  | refused f hf hr =>
    rw [hr] at hover
    cases hover
    exact hf rfl
  | overflows m hm ho hwhy =>
    rcases hwhy with ⟨-, htally⟩ | hn
    · exact hne ⟨m, hm, ho, htally⟩
    · rw [h.format, h.players] at hn
      exact hn hfits
  | done m ms t' effects hm ho hok hms hr =>
    rw [hr] at hover
    cases hover

theorem Live.record (h : Live c t) (hfits : Fits c.format c.players.length) {id : MatchId}
    {o : Outcome} (hne : ¬t.Overflows id o) : Live c (t.record id o).state :=
  h.record_of_ne (h.answer_ne hfits hne)

/-- With ids for every match, calls that overflow no counter come back. -/
theorem Live.returns (h : Live c t) (hfits : Fits c.format c.players.length)
    {calls : List (MatchId × Outcome)} (hr : InRange t calls) : Returns t calls := by
  induction calls generalizing t with
  | nil => trivial
  | cons call calls ih => exact ⟨h.answer_ne hfits hr.1, ih (h.record hfits hr.1) hr.2⟩

/-- Whatever comes back leaves the tournament live. -/
theorem Live.of_returns (h : Live c t) {calls : List (MatchId × Outcome)} (hr : Returns t calls) :
    Live c (t.recordAll calls) :=
  hr.recordAll (fun _ _ _ h hne => h.record_of_ne hne) h

theorem Live.taken (h : Live c t) {calls : List (MatchId × Outcome)} (hc : Taken t calls) :
    Live c (t.recordAll calls) := h.of_returns hc.returns

theorem Live.recordAll (h : Live c t) (hfits : Fits c.format c.players.length)
    {calls : List (MatchId × Outcome)} (hr : InRange t calls) : Live c (t.recordAll calls) :=
  h.of_returns (h.returns hfits hr)

/-- A format that generates its matches at the start has ids for them all. -/
theorem Running.fits (h : Running t) (hs : t.format ≠ .swiss)
    (hg : ∀ plan, t.format ≠ .groups plan) : Fits t.format t.players.length := by
  have hfits := h.sound.fits
  cases h.stages with
  | whole entrants fresh _ _ hp hf he _ =>
    have htwo := two_le_players h.sound
    rw [← he.length_eq, length_openingMatches (by rwa [hp.length_eq]) hf, hp.length_eq] at hfits
    exact hfits
  | swiss e hf => exact absurd hf hs
  | groups plan g hf => exact absurd hf (hg plan)

/-- Finals are drawn only if there are ids for every match. -/
theorem Running.fits_of_finals (h : Running t) {g : GroupStage} (hg : t.groups = some g)
    (hgen : g.finalsGenerated = true) : Fits t.format t.players.length := by
  have hfits := h.sound.fits
  have hroster := (Roster.check_eq_ok_iff.1 h.sound.roster).1
  cases h.stages with
  | whole _ _ _ hn => simp [hn] at hg
  | swiss _ _ _ hn => simp [hn] at hg
  | groups plan g' hf _ hg' hr =>
    obtain rfl : g' = g := Option.some.inj (hg'.symm.trans hg)
    rw [hf] at hroster
    rw [hr.length_of_finals hroster hgen, ← hf] at hfits
    exact hfits

/-- A knockout counts nothing. -/
theorem tally_of_knockout (hf : t.format = .singleElimination ∨ t.format = .doubleElimination)
    (m : Match) : t.tally m = .ok t := by
  unfold Tournament.tally
  rcases hf with hf | hf <;> rw [hf]

/-- Only tables overflow: a knockout counts nothing, and a Swiss event no more than its matches. -/
theorem Live.inRange (h : Live c t) (hfits : Fits c.format c.players.length)
    (hf : c.format = .singleElimination ∨ c.format = .doubleElimination ∨ c.format = .swiss)
    (calls : List (MatchId × Outcome)) : InRange t calls := by
  induction calls generalizing t with
  | nil => exact trivial
  | cons call calls ih =>
    have hne : ¬t.Overflows call.1 call.2 := by
      rintro ⟨m, hm, ho, htally⟩
      rw [← h.format] at hf
      rcases hf with hf | hf | hf
      · rw [tally_of_knockout (.inl hf)] at htally
        cases htally
      · rw [tally_of_knockout (.inr hf)] at htally
        cases htally
      · cases h.running.recorded call.1 call.2 with
        | refused f hne hr hno => exact hno m hm ho
        | overflows m' hm' ho' hwhy =>
          rcases hwhy with ⟨hformat, -⟩ | hn
          · exact hformat hf
          · rw [h.format, h.players] at hn
            exact hn hfits
        | done m' ms t' effects hm' ho' hok =>
          obtain rfl : m = m' := Option.some.inj (hm.symm.trans hm')
          exact hok htally
    exact ⟨hne, ih (h.record hfits hne)⟩

end Live

/-- At a knockout every call comes back. -/
theorem returns_of_knockout {c : Config} {stamp : Stamp} {draw : Draw} {t : Tournament}
    (h : create c stamp draw = .ok t)
    (hf : c.format = .singleElimination ∨ c.format = .doubleElimination)
    (calls : List (MatchId × Outcome)) : Returns t calls := by
  have hlive := live_of_create h
  have hformat := hlive.format
  have hfits : Fits t.format t.players.length := by
    refine hlive.running.fits ?_ ?_ <;> rcases hf with hf | hf <;> simp [hformat, hf]
  rw [hformat, hlive.players] at hfits
  exact hlive.returns hfits (hlive.inRange hfits (hf.imp_right .inl) calls)

end Tourney.Tournament
