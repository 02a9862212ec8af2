import Tourney.Proofs.Desk.Consistent

/-!
# Refused calls

A result changes a match before it is folded into the standings and the next stage is drawn, and
each of these steps can fail. At a balanced desk none of them does: what can be refused is refused
before anything has changed (`Balanced.call_refused`), and a queued result is never refused
(`Balanced.approve_refused`).
-/

namespace Tourney

open Arena

namespace Tournament

/-- The match is unknown or resolved, lacks a player, or does not seat the winner. -/
def Refuses (t : Tournament) (id : MatchId) (o : Outcome) : Prop :=
  t.match? id = none ∨ ∃ m, t.match? id = some m ∧
    (m.status.isResolved ∨ m.isReady = false ∨ m.hasPlayer o.winner = false)

theorem refuses_iff {t : Tournament} {id : MatchId} {o : Outcome} :
    t.Refuses id o ↔ ∀ m, t.match? id = some m → checkOutcome m o ≠ .ok () := by
  have hcheck : ∀ m : Match, checkOutcome m o ≠ .ok () ↔
      m.status.isResolved ∨ m.isReady = false ∨ m.hasPlayer o.winner = false := fun m => by
    rw [Ne, checkOutcome_eq_ok_iff]
    cases m.status.isResolved <;> cases m.isReady <;> cases m.hasPlayer o.winner <;> simp
  unfold Refuses
  cases hm : t.match? id with
  | none => simp
  | some m => simp [hcheck]

/-- The error is not that of a number out of range, which stops the program. -/
theorem Running.record_refused {t : Tournament} (h : Running t) {id : MatchId} {o : Outcome}
    {f : Fault} (hf : f ≠ .outOfRange) (hr : (t.record id o).answer = .error f) :
    t.Refuses id o ∧ (t.record id o).state = t := by
  obtain ⟨hno, hstate⟩ := h.refused_of_error hf hr
  exact ⟨refuses_iff.2 hno, hstate⟩

theorem Running.exists_fault {t : Tournament} (h : Running t) {id : MatchId} {o : Outcome}
    (hno : t.Refuses id o) : ∃ f, f ≠ .outOfRange ∧ (t.record id o).answer = .error f := by
  obtain ⟨f, hf, hrec⟩ := h.exists_refused (refuses_iff.1 hno)
  exact ⟨f, hf, by rw [hrec]; rfl⟩

end Tournament

namespace Desk

/-- A call that is refused changes nothing, and is refused only for cause. -/
structure Atomic (desk : Desk) : Prop where
  call : ∀ c f, f ≠ .outOfRange → (desk.call c).answer = .error f → (desk.call c).state = desk
  state : ∀ id o f, f ≠ .outOfRange → (desk.tournament.record id o).answer = .error f →
    (desk.tournament.record id o).state = desk.tournament
  record : ∀ id o, (∃ f, f ≠ .outOfRange ∧ (desk.tournament.record id o).answer = .error f) ↔
    desk.tournament.Refuses id o
  approve : ∀ id f, f ≠ .outOfRange → (desk.approve id).answer = .error f →
    desk.queue[id]? = none

theorem Balanced.atomic {format : Format} {desk : Desk} (h : Balanced format desk) :
    Atomic desk where
  call _ _ hf hr := h.call_refused hf hr
  state _ _ _ hf hr := (h.running.record_refused hf hr).2
  record _ _ := ⟨fun ⟨_, hf, hr⟩ => (h.running.record_refused hf hr).1, h.running.exists_fault⟩
  approve _ _ hf hr := h.approve_refused hf hr

/-- At a desk taken up from a new tournament, as long as no number leaves its range, a call that is
refused changes nothing; the tournament refuses a result exactly if its match is unknown or
resolved, lacks a player or does not seat the winner; and a waiting result is never refused. -/
theorem atomic_after {c : Config} {stamp : Stamp} {draw : Draw} {t : Tournament}
    (h : Tournament.create c stamp draw = .ok t) (calls : List Call)
    (hr : Returns (ofTournament t) calls) : Atomic ((ofTournament t).after calls) :=
  ((balanced_ofTournament (Tournament.live_of_create h)).after hr).atomic

theorem atomic_after_smallCup :
    ∃ t, Tournament.create (Tournament.smallCup .singleElimination) Tournament.smallStamp .seeded =
        .ok t ∧
      Returns (ofTournament t) boardCalls ∧ Atomic ((ofTournament t).after boardCalls) := by
  obtain ⟨t, ht, hlive⟩ := (Tournament.create_yields
    (c := Tournament.smallCup .singleElimination) Tournament.smallStamp .seeded
    (by decide)).exists_ok (by decide)
  have hr := (balanced_ofTournament hlive).returns (.inl rfl) boardCalls
  exact ⟨t, ht, hr, atomic_after ht boardCalls hr⟩

end Desk

end Tourney
