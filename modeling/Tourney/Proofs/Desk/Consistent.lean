import Tourney.Proofs.Desk.Calls
import Tourney.Proofs.Tournament.Run

/-!
# A desk in use

A desk taken up from a new tournament is balanced, and every call that comes back keeps it so. After
any calls the devices, the matches and the queue therefore tell the same story (`consistent_after`).
At a knockout every call comes back (`Balanced.returns`).
-/

namespace Tourney.Desk

open Arena

/-- Devices, matches and queue tell the same story. -/
structure Consistent (desk : Desk) : Prop where
  devices : ∀ d id, desk.deviceMatch? d = some id ↔
    ∃ m ∈ desk.tournament.arena, m.id = id ∧ m.device = some d ∧ m.status.isHeld
  held : ∀ m ∈ desk.tournament.arena, m.status.isHeld →
    m.isReady ∧ ∃ d ∈ desk.devices, m.device = some d
  free : ∀ m ∈ desk.tournament.arena, m.status.isHeld = false → m.device = none
  apart : ∀ m ∈ desk.tournament.arena, ∀ m' ∈ desk.tournament.arena, ∀ d,
    m.device = some d → m'.device = some d → m = m'
  queue : ∀ id, id ∈ desk.queue ↔
    ∃ m ∈ desk.tournament.arena, m.id = id ∧ m.status = .awaitingApproval
  submissions : ∀ m ∈ desk.tournament.arena, ∀ s, desk.queue[m.id]? = some s →
    m.device = some s.device ∧ m.hasPlayer s.outcome.winner

section Balance

variable {format : Format} {desk : Desk} (h : Balanced format desk)

include h

theorem Balanced.consistent : Consistent desk where
  devices d id := by
    constructor
    · intro hd
      obtain ⟨m, hm, rfl⟩ := h.devices d id hd
      have hdev := ((h.tallies m hm).holds d).1 hd
      exact ⟨m, hm, rfl, hdev, by rw [← (h.tallies m hm).device, hdev]; rfl⟩
    · rintro ⟨m, hm, rfl, hdev, -⟩
      exact ((h.tallies m hm).holds d).2 hdev
  held m hm hheld := by
    have hdev := (h.tallies m hm).device
    rw [hheld, Option.isSome_iff_exists] at hdev
    obtain ⟨d, hd⟩ := hdev
    exact ⟨h.ready hm hheld, d, mem_of_holding (((h.tallies m hm).holds d).2 hd), hd⟩
  free m hm hheld := ((h.tallies m hm).free hheld).1
  apart m hm m' hm' d hd hd' := by
    have h1 := ((h.tallies m hm).holds d).2 hd
    have h2 := ((h.tallies m' hm').holds d).2 hd'
    exact h.ordered.eq_of_id_eq hm hm' (Option.some.inj (h1.symm.trans h2))
  queue id := by
    constructor
    · intro hid
      obtain ⟨m, hm, rfl⟩ := h.queue id hid
      exact ⟨m, hm, rfl, (h.tallies m hm).mem_queue_iff.1 hid⟩
    · rintro ⟨m, hm, rfl, hstatus⟩
      exact (h.tallies m hm).mem_queue_iff.2 hstatus
  submissions m hm s hs := by
    have hq := (h.tallies m hm).queued
    rw [hs] at hq
    exact hq.2

end Balance

/-! ## Knockouts -/

theorem answer_ofExcept {α : Type} {desk : Desk} {r : Except Fault (Desk × α)}
    (hr : r ≠ .error .outOfRange) : (Reply.ofExcept desk r).answer ≠ .error .outOfRange := by
  cases r with
  | error f => exact fun hc => hr (congrArg Except.error (Except.error.inj hc))
  | ok p => simp [Reply.ofExcept, Reply.done]

theorem answer_commit {desk : Desk} {r : Except Fault Desk} (hr : r ≠ .error .outOfRange) :
    (desk.commit r).answer ≠ .error .outOfRange :=
  answer_ofExcept fun hc => hr (map_eq_error.1 hc)

theorem release_ne_outOfRange (desk : Desk) (id : MatchId) :
    desk.release id ≠ .error .outOfRange := by
  unfold release
  split
  · simp
  · split_ifs <;> simp

theorem transition_ne_outOfRange (desk : Desk) (id : MatchId) (s : MatchStatus) :
    desk.transition id s ≠ .error .outOfRange := by
  unfold transition
  split
  · simp
  · split_ifs <;> simp

theorem remove_ne_outOfRange (desk : Desk) (d : DeviceId) :
    (desk.remove d).answer ≠ .error .outOfRange := by
  refine answer_ofExcept ?_
  split
  · simp
  split
  · simp
  split
  · simp
  split_ifs
  · simp
  · exact fun hc => release_ne_outOfRange desk _ (map_eq_error.1 hc)

section Knockout

variable {format : Format} {desk : Desk} (h : Balanced format desk)
  (hf : format = .singleElimination ∨ format = .doubleElimination)

include h hf

theorem Balanced.settle_ne_outOfRange (id : MatchId) (o : Outcome) (holder : Option DeviceId)
    (queue : Queue) : (desk.settle id o holder queue).answer ≠ .error .outOfRange := by
  cases h.running.recorded id o with
  | refused f hne hr =>
    simp only [Desk.settle, hr, Reply.refused]
    exact fun hc => hne (Except.error.inj hc)
  | overflows m hm ho hwhy hr =>
    rw [← h.format] at hf
    rcases hwhy with ⟨-, htally⟩ | hn
    · rw [Tournament.tally_of_knockout hf] at htally
      cases htally
    · refine absurd (h.running.fits ?_ ?_) hn <;> rcases hf with hf | hf <;> simp [hf]
  | done m ms t' effects hm ho hok hms hr =>
    simp [Desk.settle, hr, Reply.done]

/-- At a knockout every call comes back. -/
theorem Balanced.call_ne_outOfRange (c : Call) : (desk.call c).answer ≠ .error .outOfRange := by
  cases c with
  | register d =>
    refine answer_commit ?_
    split
    · split_ifs <;> simp
    · simp
  | remove d => exact fun hc => remove_ne_outOfRange desk d (map_eq_error.1 hc)
  | assign id d =>
    refine answer_commit ?_
    split
    · simp
    split
    · simp
    split
    · simp
    split_ifs
    · simp
    · split <;> simp
  | unassign id => exact answer_commit (release_ne_outOfRange desk id)
  | startMatch id => exact answer_commit (transition_ne_outOfRange desk id _)
  | submit s =>
    refine answer_commit ?_
    split
    · simp
    · split_ifs <;> simp
  | approve id =>
    refine fun hc => ?_
    have hc := map_eq_error.1 hc
    unfold Desk.approve at hc
    split at hc
    · cases hc
    · exact h.settle_ne_outOfRange hf _ _ _ _ hc
  | reject id reason =>
    refine answer_commit ?_
    split
    · simp
    · exact fun hc => transition_ne_outOfRange desk id _ (map_eq_error.1 hc)
  | record id o =>
    refine fun hc => ?_
    have hc := map_eq_error.1 hc
    unfold Desk.record at hc
    split at hc
    · cases hc
    · split_ifs at hc
      · cases hc
      · exact h.settle_ne_outOfRange hf _ _ _ _ hc
  | drain => simp [Desk.call, Reply.done]

theorem Balanced.returns (calls : List Call) : Returns desk calls := by
  induction calls generalizing desk with
  | nil => exact trivial
  | cons c calls ih => exact ⟨h.call_ne_outOfRange hf c, ih (h.call (h.call_ne_outOfRange hf c))⟩

end Knockout

/-! ## Taking up a new tournament -/

theorem takeOver_free {devices : Devices} {queue : Queue} {ms : List Match}
    (h : ∀ m ∈ ms, m.Free) : takeOver devices queue ms = (ms, devices, queue) := by
  induction ms with
  | nil => rfl
  | cons m ms ih =>
    have hm := (h m List.mem_cons_self).2
    simp only [takeOver, holder?, hm, Bool.false_eq_true, if_false,
      ih fun a ha => h a (List.mem_cons_of_mem _ ha)]

theorem ofTournament_eq {t : Tournament} (h : ∀ m ∈ t.arena, m.Free) :
    ofTournament t = ⟨t, ∅, ∅, []⟩ := by
  simp only [ofTournament, restore, takeOver_free h]
  rfl

theorem balanced_ofTournament {c : Config} {t : Tournament} (h : t.Live c) :
    Balanced c.format (ofTournament t) := by
  rw [ofTournament_eq h.free]
  refine ⟨h.running, h.format, fun m hm => ?_, fun d id hd => ?_, fun id hid => ?_⟩
  · exact tallies_free (h.free m hm) (fun d => by simp [holding]) (by simp)
  · simp [holding] at hd
  · simp at hid

theorem consistent_after {c : Config} {stamp : Stamp} {draw : Draw} {t : Tournament}
    (h : Tournament.create c stamp draw = .ok t) (calls : List Call)
    (hr : Returns (ofTournament t) calls) : Consistent ((ofTournament t).after calls) :=
  ((balanced_ofTournament (Tournament.live_of_create h)).after hr).consistent

/-- A match played on a board, which goes on to the next. -/
def boardCalls : List Call :=
  [.register "board", .assign ⟨1⟩ "board", .startMatch ⟨1⟩,
    .submit ⟨⟨1⟩, "board", ⟨"D", {}⟩, .epoch⟩, .approve ⟨1⟩, .assign ⟨2⟩ "board"]

theorem consistent_after_smallCup :
    ∃ t, Tournament.create (Tournament.smallCup .singleElimination) Tournament.smallStamp .seeded =
        .ok t ∧
      Returns (ofTournament t) boardCalls ∧ Consistent ((ofTournament t).after boardCalls) := by
  obtain ⟨t, ht, hlive⟩ := (Tournament.create_yields
    (c := Tournament.smallCup .singleElimination) Tournament.smallStamp .seeded
    (by decide)).exists_ok (by decide)
  have hr := (balanced_ofTournament hlive).returns (.inl rfl) boardCalls
  exact ⟨t, ht, hr, consistent_after ht boardCalls hr⟩

end Tourney.Desk
