import Tourney.Proofs.Elimination.OneLoss
import Tourney.Proofs.Tournament.TwoLosses

/-!
# Single elimination in play

A single elimination that is driven by results alone is one loss and out at every moment
(`one_loss_and_out`): every entry of the draw is still in a match, has lost one, or has won the
final (`Running.exists_final`).
-/

namespace Tourney.Tournament

open Arena Elimination Seeding

/-- One loss and out. -/
structure OneLoss (players : List Player) (t : Tournament) : Prop where
  losses : ∀ p, lossesOf t.arena p ≤ 1
  underWay : t.status ≠ .complete → ∀ p ∈ players,
    (lossesOf t.arena p = 0 → openMatches t.arena p = 1) ∧
      (lossesOf t.arena p = 1 → openMatches t.arena p = 0)
  settled : t.status = .complete → ∃ champion ∈ players, t.champion = some champion ∧
    (∀ m ∈ t.arena, m.hasPlayer champion → m.status = .complete ∧ m.winner = some champion) ∧
    ∀ p ∈ players, lossesOf t.arena p = if p = champion then 0 else 1
  played : t.status = .complete → t.arena.countP Match.isPlayed + 1 = players.length

/-- The final of a single elimination, and where everybody is who has entered. -/
structure Final (t : Tournament) (f : Match) : Prop where
  mem : f ∈ t.arena
  stage : f.stage = .main
  ends : f.next = none
  last : ∀ m ∈ t.arena, m.next = none → m = f
  /-- A player is still in a match, has lost one, or has won the final. -/
  balance : ∀ p, (t.arena.map (·.stays p)).sum + lossesOf t.arena p + f.wins p =
    if p ∈ t.players then 1 else 0
  won : (∀ m ∈ t.arena, m.status.isResolved) → f.status = .complete ∧ ∃ w, f.winner = some w

section Bracket

variable {t : Tournament} (h : Running t)

include h

theorem Running.exists_final (hf : t.format = .singleElimination) : ∃ f, Final t f := by
  have hfits := h.sound.fits
  obtain ⟨entrants, hperm, he⟩ := h.stages.of_singleElimination hf
  rw [← he.length_eq, length_tree] at hfits
  rw [tree_eq_map] at he
  obtain ⟨now, harena, hplayed⟩ := (treeLayout
    (by rw [toNat_firstMatchId]; omega)).exists_played h.sound.coherent he
  have hk := rounds_pos entrants.length
  have hmem : (rounds entrants.length, 0) ∈ treePlaces (rounds entrants.length) :=
    mem_treePlaces.2 ⟨hk, le_refl _, Nat.two_pow_pos _⟩
  have hn : 2 ≤ entrants.length := hperm.length_eq ▸ two_le_players h.sound
  refine ⟨now (rounds entrants.length, 0), ?_, ?_, ?_, fun m hm hnext => ?_, fun p => ?_,
    fun hres => ?_⟩
  · exact harena ▸ List.mem_map_of_mem hmem
  · rw [hplayed.stage_eq hmem, treeMatch_stage]
  · exact (tree_next_eq_none_iff hplayed hmem).2 rfl
  · rw [harena] at hm
    obtain ⟨x, hx, rfl⟩ := List.mem_map.1 hm
    rw [(tree_next_eq_none_iff hplayed hx).1 hnext]
  · rw [harena, tree_balance hplayed hk (length_bracketSlots entrants), count_bracketSlots,
      hperm.count_eq, (Roster.check_eq_ok_iff.1 h.sound.roster).2.2.count]
  · rw [harena] at hres
    exact final_won hplayed hk (bracketSlots_even hn) hres

/-- Whoever never loses has won every match there was. -/
theorem Running.wins_of_lossesOf (hst : t.status = .complete) {p : Player}
    (hl : lossesOf t.arena p = 0) {m : Match} (hm : m ∈ t.arena) (hp : m.hasPlayer p) :
    m.status = .complete ∧ m.winner = some p := by
  have hseats := (h.sound.coherent.atRest hm).seats_eq (x := p)
  have hstays : m.stays p = 0 := if_pos (h.all_resolved hst m hm)
  have hloses : m.loses p = 0 := by
    rw [lossesOf_eq_sum, List.sum_eq_zero_iff] at hl
    exact hl _ (List.mem_map_of_mem hm)
  have hwins : m.wins p ≠ 0 := by
    have := Match.hasPlayer_iff_seats.1 hp
    omega
  unfold Match.wins at hwins
  split_ifs at hwins with hwon
  · exact hwon
  · exact absurd rfl hwins

variable {f : Match} (hfinal : Final t f)

include hfinal

omit h in
theorem Final.losses_le (p : Player) : lossesOf t.arena p ≤ 1 := by
  have hbalance := hfinal.balance p
  split_ifs at hbalance <;> omega

/-- As long as the final is to come nobody has won it. -/
theorem Final.underWay (hst : t.status ≠ .complete) {p : Player} (hp : p ∈ t.players) :
    openMatches t.arena p + lossesOf t.arena p = 1 := by
  obtain ⟨m, hm, ho⟩ := not_not.1 fun ho => hst (h.complete_iff.2 ho)
  obtain ⟨f', hf', hfo, -, hnext⟩ := h.sound.coherent.exists_end hm ho
  obtain rfl := hfinal.last f' hf' hnext
  have hwins : f'.wins p = 0 := if_neg fun hc => by
    rw [hc.1] at hfo
    cases hfo
  have hbalance := hfinal.balance p
  rw [hwins, if_pos hp] at hbalance
  rw [openMatches_eq_sum (by omega)]
  omega

/-- In the end nobody stays anywhere: the winner of the final has never lost, and everybody else
has lost once. -/
theorem Final.losses_eq (hst : t.status = .complete) {w : Player} (hc : f.status = .complete)
    (hw : f.winner = some w) {p : Player} (hp : p ∈ t.players) :
    lossesOf t.arena p = if p = w then 0 else 1 := by
  have hstays : (t.arena.map (·.stays p)).sum = 0 := by
    refine List.sum_eq_zero fun n hn => ?_
    obtain ⟨m, hm, rfl⟩ := List.mem_map.1 hn
    exact if_pos (h.all_resolved hst m hm)
  have hbalance := hfinal.balance p
  have hwins : f.wins p = if p = w then 1 else 0 := by
    simp [Match.wins, hc, hw, @eq_comm _ p]
  rw [hstays, hwins, if_pos hp] at hbalance
  split_ifs at hbalance ⊢ <;> omega

end Bracket

theorem Running.oneLoss {t : Tournament} (h : Running t) (hf : t.format = .singleElimination) :
    OneLoss t.players t := by
  obtain ⟨f, hfinal⟩ := h.exists_final hf
  have hnd := (Roster.check_eq_ok_iff.1 h.sound.roster).2.2
  have hwon : t.status = .complete → ∃ w ∈ t.players, t.champion = some w ∧
      ∀ p ∈ t.players, lossesOf t.arena p = if p = w then 0 else 1 := fun hst => by
    obtain ⟨hc, w, hw⟩ := hfinal.won (h.all_resolved hst)
    have hwinner := bracketWinner_eq hfinal.mem hfinal.ends fun m hm _ => hfinal.last m hm
    rw [hfinal.stage, hw] at hwinner
    have hplayer := (h.sound.coherent.atRest hfinal.mem).hasPlayer_winner hw
    exact ⟨w, h.sound.rostered f hfinal.mem w hplayer,
      by simp [champion, isComplete, hst, hf, hwinner], fun p hp => hfinal.losses_eq h hst hc hw hp⟩
  constructor
  case losses => exact hfinal.losses_le
  case underWay =>
    intro hst p hp
    have := hfinal.underWay h hst hp
    exact ⟨fun _ => by omega, fun _ => by omega⟩
  case settled =>
    intro hst
    obtain ⟨w, hmem, hchampion, hlosses⟩ := hwon hst
    exact ⟨w, hmem, hchampion, fun m hm hp => h.wins_of_lossesOf hst
      ((hlosses w hmem).trans (if_pos rfl)) hm hp, hlosses⟩
  case played =>
    intro hst
    obtain ⟨w, hmem, -, hlosses⟩ := hwon hst
    have hbeaten : (t.players.map fun p => lossesOf t.arena p) =
        t.players.map fun p => if p != w then 1 else 0 :=
      List.map_congr_left fun p hp => by simp [hlosses p hp]
    have hone : t.players.countP (· == w) = 1 := List.count_eq_one_of_mem hnd hmem
    rw [← sum_lossesOf (fun m hm => h.sound.coherent.atRest hm) h.sound.rostered hnd, hbeaten,
      ← countP_eq_sum, @List.length_eq_countP_add_countP _ (· == w) t.players, hone, Nat.add_comm]
    simp [bne, Bool.beq_eq_decide_eq]

/-- Whatever is recorded, a single elimination is one loss and out; once it is complete, as many
matches have been played as there are players but one, and the champion has won all of theirs. -/
theorem one_loss_and_out {c : Config} {stamp : Stamp} {draw : Draw} {t : Tournament}
    (h : create c stamp draw = .ok t) (hf : c.format = .singleElimination)
    (calls : List (MatchId × Outcome)) : OneLoss c.players (t.recordAll calls) := by
  have hlive := (live_of_create h).of_returns (returns_of_knockout h (.inl hf) calls)
  have := hlive.running.oneLoss (hlive.format.trans hf)
  rwa [hlive.players] at this

/-- Seven players, of whom the first goes on without a match. -/
def sevenCup : Config :=
  { smallCup .singleElimination with players := ["A", "B", "C", "D", "E", "F", "G"] }

/-- A cup played to its end; the final is tried before it is ready. -/
def sevenCalls : List (MatchId × Outcome) :=
  [(⟨3⟩, ⟨"G", {}⟩), (⟨7⟩, ⟨"A", {}⟩), (⟨2⟩, ⟨"D", {}⟩), (⟨4⟩, ⟨"C", {}⟩), (⟨5⟩, ⟨"D", {}⟩),
    (⟨6⟩, ⟨"G", {}⟩), (⟨7⟩, ⟨"G", {}⟩)]

theorem one_loss_and_out_sevenCup : ∃ t, create sevenCup smallStamp .seeded = .ok t ∧
    sevenCup.format = .singleElimination ∧ OneLoss sevenCup.players (t.recordAll sevenCalls) := by
  obtain ⟨t, ht, -⟩ := (create_yields (c := sevenCup) smallStamp .seeded (by decide)).exists_ok
    (by decide)
  exact ⟨t, ht, rfl, one_loss_and_out ht rfl sevenCalls⟩

end Tourney.Tournament
