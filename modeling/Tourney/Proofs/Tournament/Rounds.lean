import Tourney.Proofs.Swiss.Boards
import Tourney.Proofs.Tournament.Books

/-!
# The rounds of a Swiss event

Whatever is recorded, a Swiss event keeps its books (`books_of_returns`). So its rounds are complete
and its byes are fair (`rounds_orderly`).
-/

namespace Tourney.Tournament

open Arena

/-! ## Runs -/

/-- A call that comes back keeps the books of a Swiss event, taken or refused. -/
theorem Live.books_record {c : Config} {t : Tournament} (h : Live c t) (hf : c.format = .swiss)
    (hb : ∃ e, Books t e) {id : MatchId} {o : Outcome}
    (hne : (t.record id o).answer ≠ .error .outOfRange) : ∃ e, Books (t.record id o).state e := by
  obtain ⟨e, he⟩ := hb
  cases h.running.recorded id o with
  | refused f hf' hr =>
    rw [hr]
    exact ⟨e, he⟩
  | overflows m hm ho hwhy hr => exact absurd hr hne
  | done m ms t' effects hm ho htally hms hr =>
    rw [hr]
    exact he.record h.running.sound (h.format.trans hf) hr

theorem books_of_returns {c : Config} {stamp : Stamp} {draw : Draw} {t : Tournament}
    (h : create c stamp draw = .ok t) (hf : c.format = .swiss)
    {calls : List (MatchId × Outcome)} (hr : Returns t calls) :
    Live c (t.recordAll calls) ∧ ∃ e, Books (t.recordAll calls) e := by
  obtain ⟨e, he, -⟩ := books_of_create h hf
  exact hr.recordAll (P := fun t => Live c t ∧ ∃ e, Books t e)
    (fun t id o ⟨hlive, hb⟩ hne => ⟨hlive.record_of_ne hne, hlive.books_record hf hb hne⟩)
    ⟨live_of_create h, e, he⟩

/-! ## What a running event looks like -/

section Running

variable {t : Tournament} {e : SwissEvent} (h : Running t) (hb : Books t e)

include h hb

theorem Books.swissRun : SwissRun t e := by
  cases h.stages with
  | whole _ _ hs => rw [hb.event] at hs; cases hs
  | swiss e' _ hs _ hr =>
    obtain rfl : e = e' := Option.some.inj (hb.event.symm.trans hs)
    exact hr
  | groups _ _ _ hs => rw [hb.event] at hs; cases hs

/-- An event that has not begun would wait for a match, and there is none. -/
theorem Books.one_le_currentRound : 1 ≤ e.currentRound.toNat := by
  by_contra hzero
  have hpos : 0 < Swiss.roundCount t.players.length := Seeding.rounds_pos _
  obtain ⟨m, hm, -⟩ := h.roundsWait e hb.event (by rw [hb.total]; omega)
  have := hb.rounds.range m hm
  omega

end Running

/-- The rounds of a Swiss event are complete, and its byes are fair. -/
structure Orderly (players : List Player) (e : SwissEvent) (ms : List Match) : Prop where
  total : e.totalRounds.toNat = Swiss.roundCount players.length
  current : 1 ≤ e.currentRound.toNat ∧ e.currentRound.toNat ≤ e.totalRounds.toNat
  rounds : ∀ r, (∃ m ∈ ms, m.round.toNat = r) ↔ 1 ≤ r ∧ r ≤ e.currentRound.toNat
  past : ∀ m ∈ ms, m.round.toNat < e.currentRound.toNat → m.status.isResolved
  /-- A match is a bye, or two different players meet. -/
  board : ∀ m ∈ ms, m.isBye ∨ m.isReady ∧ m.player1 ≠ m.player2
  rostered : ∀ m ∈ ms, ∀ p, m.hasPlayer p → p ∈ players
  once : ∀ r, 1 ≤ r → r ≤ e.currentRound.toNat → ∀ p ∈ players,
    (Swiss.roundOf r ms).countP (·.hasPlayer p) = 1
  byes : ∀ r, 1 ≤ r → r ≤ e.currentRound.toNat →
    (Swiss.roundOf r ms).countP Match.isBye = players.length % 2
  awarded : ∀ m ∈ ms, m.isBye → m.Awarded
  fair : ∀ p, ms.countP (fun m => m.isBye && m.hasPlayer p) ≤ 1

theorem Books.orderly {t : Tournament} {e : SwissEvent} (hb : Books t e) (h : Running t) :
    Orderly t.players e t.arena where
  total := hb.total
  current := ⟨hb.one_le_currentRound h, (hb.swissRun h).current⟩
  rounds _ := hb.rounds.exists_round_iff
    (List.length_pos_iff.1 (Nat.lt_of_lt_of_le Nat.two_pos (two_le_players h.sound)))
  past := hb.rounds.past
  board m hm := by
    rw [hb.rounds.isReady_eq hm]
    have hne := hb.rounds.player1_ne_player2 h.sound.rostered hm
    cases m.isBye <;> simp [hne]
  rostered := h.sound.rostered
  once _ h1 hr _ hp := hb.rounds.countP_hasPlayer h1 hr hp
  byes _ h1 hr := hb.rounds.countP_isBye h1 hr
  awarded m hm hbye := by
    obtain ⟨⟨a, h1⟩, b, h2⟩ := hb.rounds.board m hm
    exact (h.sound.coherent.atRest hm).awarded_board h1 h2 hbye
  fair p := by
    rw [← hb.rounds.sum_byes_eq fun _ hm => h.sound.coherent.atRest hm]
    exact hb.fair p

/-- Whatever is recorded, the rounds of a Swiss event are complete and its byes are fair. -/
theorem rounds_orderly {c : Config} {stamp : Stamp} {draw : Draw} {t : Tournament}
    (h : create c stamp draw = .ok t) (hf : c.format = .swiss)
    {calls : List (MatchId × Outcome)} (hr : Returns t calls) :
    ∃ e, (t.recordAll calls).swiss = some e ∧ Orderly c.players e (t.recordAll calls).arena := by
  obtain ⟨hlive, e, he⟩ := books_of_returns h hf hr
  exact ⟨e, he.event, hlive.players ▸ he.orderly hlive.running⟩

/-- An event in which somebody has to sit out. -/
def oddCup : Config := { smallCup .swiss with players := ["A", "B", "C"] }

/-- The match of the first round, and that of the second. -/
def oddCalls : List (MatchId × Outcome) := [(⟨1⟩, ⟨"B", {}⟩), (⟨3⟩, ⟨"C", {}⟩)]

theorem exists_oddCup : ∃ t, create oddCup smallStamp .seeded = .ok t ∧ Returns t oddCalls := by
  obtain ⟨t, ht, hlive⟩ := (create_yields (c := oddCup) smallStamp .seeded
    (by decide)).exists_ok (by decide)
  have hfits : Fits oddCup.format oddCup.players.length := by decide
  exact ⟨t, ht, hlive.returns hfits (hlive.inRange hfits (.inr (.inr rfl)) oddCalls)⟩

theorem rounds_orderly_oddCup : ∃ t, create oddCup smallStamp .seeded = .ok t ∧
    oddCup.format = .swiss ∧ Returns t oddCalls ∧ ∃ e, (t.recordAll oddCalls).swiss = some e ∧
      Orderly oddCup.players e (t.recordAll oddCalls).arena := by
  obtain ⟨t, ht, hr⟩ := exists_oddCup
  exact ⟨t, ht, rfl, hr, rounds_orderly ht rfl hr⟩

end Tourney.Tournament
