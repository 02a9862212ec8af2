import Tourney.Proofs.Swiss.Telling
import Tourney.Proofs.Tournament.Completion
import Tourney.Proofs.Tournament.Rounds

/-!
# The standings of a Swiss event

The standings of a Swiss event are what its complete matches make of them, whatever has been
recorded and in whatever order (`standings_told`).
-/

namespace Tourney.Tournament

open Arena

/-- The standings of an event are those of its matches, one for each player in entry order. -/
structure Told (players : List Player) (e : SwissEvent) (ms : List Match) : Prop where
  names : e.standings.map Swiss.Standing.player = players
  tells : ∀ s ∈ e.standings, s.Tells ms
  /-- Meeting is mutual. -/
  symmetric : ∀ s ∈ e.standings, ∀ u ∈ e.standings,
    s.opponents.count u.player = u.opponents.count s.player

section Books

variable {t : Tournament} {e : SwissEvent} (hb : Books t e) (h : Running t)

include hb h

theorem Books.told : Told t.players e t.arena where
  names := hb.names
  tells s hs := (hb.exact s hs).tells hb.rounds (fun _ hm => h.sound.coherent.atRest hm)
    h.sound.rostered (hb.names ▸ List.mem_map_of_mem hs)
  symmetric s hs u hu := (hb.exact s hs).count_opponents (hb.exact u hu)

/-- An event is complete after its last round. -/
theorem Books.currentRound_of_complete (hc : t.status = .complete) :
    e.currentRound.toNat = e.totalRounds.toNat := by
  by_contra hne
  have hle := (hb.swissRun h).current
  exact h.complete_iff.1 hc (h.roundsWait e hb.event (by omega))

theorem Books.wins_add_losses (hc : t.status = .complete) {s : Swiss.Standing}
    (hs : s ∈ e.standings) : s.wins.toNat + s.losses.toNat = e.totalRounds.toNat := by
  have hp : s.player ∈ t.players := hb.names ▸ List.mem_map_of_mem hs
  rw [(hb.exact s hs).wins, (hb.exact s hs).losses,
    Swiss.sum_wins_add_loses s.player (fun _ hm => h.sound.coherent.atRest hm) (h.all_resolved hc),
    hb.rounds.seatsOf_eq hp, hb.currentRound_of_complete h hc]

end Books

/-- Whatever is recorded, the standings of a Swiss event are those of its complete matches; and once
the event is complete, everybody has won or lost once in every round. -/
theorem standings_told {c : Config} {stamp : Stamp} {draw : Draw} {t : Tournament}
    (h : create c stamp draw = .ok t) (hf : c.format = .swiss)
    {calls : List (MatchId × Outcome)} (hr : Returns t calls) :
    ∃ e, (t.recordAll calls).swiss = some e ∧ Told c.players e (t.recordAll calls).arena ∧
      ((t.recordAll calls).status = .complete →
        ∀ s ∈ e.standings, s.wins.toNat + s.losses.toNat = e.totalRounds.toNat) := by
  obtain ⟨hlive, e, he⟩ := books_of_returns h hf hr
  exact ⟨e, he.event, hlive.players ▸ he.told hlive.running,
    fun hc s hs => he.wins_add_losses hlive.running hc hs⟩

theorem standings_told_oddCup : ∃ t, create oddCup smallStamp .seeded = .ok t ∧
    oddCup.format = .swiss ∧ Returns t oddCalls ∧ ∃ e, (t.recordAll oddCalls).swiss = some e ∧
      Told oddCup.players e (t.recordAll oddCalls).arena ∧
        ((t.recordAll oddCalls).status = .complete →
          ∀ s ∈ e.standings, s.wins.toNat + s.losses.toNat = e.totalRounds.toNat) := by
  obtain ⟨t, ht, hr⟩ := exists_oddCup
  exact ⟨t, ht, rfl, hr, standings_told ht rfl hr⟩

end Tourney.Tournament
