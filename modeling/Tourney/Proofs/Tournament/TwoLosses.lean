import Tourney.Proofs.Tournament.Completion

/-!
# Double elimination in play

A double elimination that is driven by results alone is two losses and out at every moment
(`two_losses_and_out`), since the accounts of its matches balance for every player of the roster
(`Accounts`).
-/

namespace Tourney.Tournament

open Arena Elimination Seeding

/-- Two losses and out. -/
structure TwoLosses (players : List Player) (t : Tournament) : Prop where
  losses : ∀ p, lossesOf t.arena p ≤ 2
  underWay : t.status ≠ .complete → ∀ p ∈ players,
    (lossesOf t.arena p ≤ 1 → openMatches t.arena p = 1) ∧
      (lossesOf t.arena p = 2 → openMatches t.arena p = 0)
  settled : t.status = .complete → ∃ champion ∈ players, t.champion = some champion ∧
    lossesOf t.arena champion ≤ 1 ∧
    ∀ p ∈ players, p ≠ champion → lossesOf t.arena p = 2

theorem bracketWinner_eq {t : Tournament} {m : Match} (hm : m ∈ t.arena) (hn : m.next = none)
    (honly : ∀ m' ∈ t.arena, m'.stage = m.stage → m'.next = none → m' = m) :
    t.bracketWinner m.stage = m.winner := by
  have hfind : t.arena.find? (fun m' => m'.stage = m.stage ∧ m'.next.isNone) = some m := by
    rcases hf : t.arena.find? (fun m' => m'.stage = m.stage ∧ m'.next.isNone) with _ | m'
    · exact absurd (List.find?_eq_none.1 hf m hm) (by simp [hn])
    · have hlast := List.find?_some hf
      simp only [Option.isNone_iff_eq_none, decide_eq_true_eq] at hlast
      rw [hf, honly m' (List.mem_of_find?_eq_some hf) hlast.1 hlast.2]
  rw [bracketWinner, hfind]
  rfl

section Bracket

variable {t : Tournament} (h : Running t) (hf : t.format = .doubleElimination)

include h hf

/-- The matches of a double elimination are those of its two trees. -/
theorem Running.exists_played : ∃ (entrants : List Player) (now : Place → Match),
    entrants.Perm t.players ∧ t.arena = (doublePlaces (rounds entrants.length)).map now ∧
      Played (doublePlaces (rounds entrants.length))
        (placeMatch (bracketSlots entrants) (rounds entrants.length) firstMatchId .main) now := by
  have hfits := h.sound.fits
  obtain ⟨entrants, hp, he⟩ := h.stages.of_doubleElimination hf
  rw [← he.length_eq, length_doubleTree (rounds_pos _)] at hfits
  rw [doubleTree_eq_map] at he
  obtain ⟨now, harena, hplayed⟩ := (doubleLayout (rounds_pos _)
    (by rw [toNat_firstMatchId]; omega)).exists_played h.sound.coherent he
  exact ⟨entrants, now, hp, harena, hplayed⟩

/-- What the accounts of a double elimination balance to, where `r` is the reset that ends it. -/
structure Accounts (t : Tournament) (r : Match) : Prop where
  mem : r ∈ t.arena
  stage : r.stage = .main
  ends : r.next = none
  last : ∀ m ∈ t.arena, m.next = none → m = r
  losses : ∀ p, lossesOf t.arena p ≤ 2
  /-- A player has lost twice, sits in an open match, or has won the reset. -/
  balance : ∀ p, (t.arena.map (·.stays p)).sum + r.wins p =
    if lossesOf t.arena p = 2 then 0 else if p ∈ t.players then 1 else 0
  won : (∀ m ∈ t.arena, m.status.isResolved) →
    r.status = .complete ∧ ∃ w, r.winner = some w ∧ r.hasPlayer w

theorem Running.exists_accounts : ∃ r, Accounts t r := by
  obtain ⟨entrants, now, hperm, harena, hplayed⟩ := h.exists_played hf
  have hk := rounds_pos entrants.length
  have hnodup := (Roster.check_eq_ok_iff.1 h.sound.roster).2.2
  have hcount : ∀ p, (bracketSlots entrants).count (some p) = if p ∈ t.players then 1 else 0 := by
    intro p
    rw [count_bracketSlots, hperm.count_eq, hnodup.count]
  have haccounts : ∀ p, lossesOf t.arena p ≤ 2 ∧
      (t.arena.map (·.stays p)).sum + (now .reset).wins p =
        if lossesOf t.arena p = 2 then 0 else if p ∈ t.players then 1 else 0 := by
    intro p
    have := stays_add_wins hplayed hk (length_bracketSlots entrants) (x := p)
      (by rw [hcount]; split_ifs <;> omega)
    rw [hcount] at this
    rw [lossesOf_eq_sum, harena, List.map_map, List.map_map]
    exact this
  have hn : 2 ≤ entrants.length := by
    rw [hperm.length_eq]
    exact two_le_players h.sound
  refine ⟨now .reset, ?_, ?_, ?_, fun m hm hnext => ?_, fun p => (haccounts p).1,
    fun p => (haccounts p).2, fun hres => ?_⟩
  · rw [harena]
    exact List.mem_map_of_mem reset_mem
  · rw [hplayed.stage_eq reset_mem, placeMatch_stage]
  · rw [hplayed.next_eq reset_mem]
    rfl
  · rw [harena] at hm
    obtain ⟨y, hy, rfl⟩ := List.mem_map.1 hm
    rw [eq_reset_of_next hplayed hy hnext]
  · exact reset_won hplayed hk (bracketSlots_even hn)
      fun x hx => hres _ (by rw [harena]; exact List.mem_map_of_mem hx)

end Bracket

section Accounts

variable {t : Tournament} {r : Match} (h : Running t) (ha : Accounts t r)

include h ha

/-- As long as the reset is to come nobody has won it. -/
theorem Accounts.underWay (hst : t.status ≠ .complete) {p : Player} (hp : p ∈ t.players) :
    (lossesOf t.arena p ≤ 1 → openMatches t.arena p = 1) ∧
      (lossesOf t.arena p = 2 → openMatches t.arena p = 0) := by
  obtain ⟨m, hm, ho⟩ := not_not.1 fun ho => hst (h.complete_iff.2 ho)
  obtain ⟨r', hr, hro, -, hnext⟩ := h.sound.coherent.exists_end hm ho
  obtain rfl := ha.last r' hr hnext
  have hwins : r'.wins p = 0 := if_neg fun hc => by
    rw [hc.1] at hro
    cases hro
  have hstays := ha.balance p
  rw [hwins, Nat.add_zero, if_pos hp] at hstays
  rw [openMatches_eq_sum (by rw [hstays]; split_ifs <;> omega), hstays]
  constructor
  · intro hl
    rw [if_neg (by omega)]
  · exact fun hl => if_pos hl

/-- In the end the winner of the reset is champion, and everybody else has lost twice. -/
theorem Accounts.settled (hf : t.format = .doubleElimination) (hst : t.status = .complete) :
    ∃ champion ∈ t.players, t.champion = some champion ∧ lossesOf t.arena champion ≤ 1 ∧
      ∀ p ∈ t.players, p ≠ champion → lossesOf t.arena p = 2 := by
  have hres := h.all_resolved hst
  obtain ⟨hc, w, hw, hp⟩ := ha.won hres
  have hstays : ∀ p, (t.arena.map (·.stays p)).sum = 0 := fun p => by
    refine List.sum_eq_zero fun n hn => ?_
    obtain ⟨m, hm, rfl⟩ := List.mem_map.1 hn
    exact if_pos (hres m hm)
  have hbalance : ∀ p, (if w = p then 1 else 0) =
      if lossesOf t.arena p = 2 then 0 else if p ∈ t.players then 1 else 0 := fun p => by
    rw [← ha.balance p, hstays, Nat.zero_add]
    simp [Match.wins, hc, hw]
  have hwinner := bracketWinner_eq ha.mem ha.ends fun m hm _ => ha.last m hm
  rw [ha.stage, hw] at hwinner
  refine ⟨w, h.sound.rostered _ ha.mem w hp, by simp [champion, isComplete, hst, hf, hwinner], ?_,
    fun p hp hne => ?_⟩
  · have hsum := hbalance w
    have hle := ha.losses w
    rw [if_pos rfl] at hsum
    split_ifs at hsum
    omega
  · have hsum := hbalance p
    rw [if_neg (Ne.symm hne), if_pos hp] at hsum
    by_contra hl
    rw [if_neg hl] at hsum
    cases hsum

end Accounts

theorem Running.twoLosses {t : Tournament} (h : Running t) (hf : t.format = .doubleElimination) :
    TwoLosses t.players t := by
  obtain ⟨r, ha⟩ := h.exists_accounts hf
  exact ⟨ha.losses, fun hst p hp => ha.underWay h hst hp, ha.settled h hf⟩

theorem two_losses_and_out {c : Config} {stamp : Stamp} {draw : Draw} {t : Tournament}
    (h : create c stamp draw = .ok t) (hf : c.format = .doubleElimination)
    (calls : List (MatchId × Outcome)) : TwoLosses c.players (t.recordAll calls) := by
  have hlive := (live_of_create h).of_returns (returns_of_knockout h (.inr hf) calls)
  have := hlive.running.twoLosses (hlive.format.trans hf)
  rwa [hlive.players] at this

theorem two_losses_and_out_smallCup :
    ∃ t, create (smallCup .doubleElimination) smallStamp .seeded = .ok t ∧
      (smallCup .doubleElimination).format = .doubleElimination ∧
      TwoLosses ["A", "B", "C", "D"]
        (t.recordAll [(⟨1⟩, ⟨"D", {}⟩), (⟨2⟩, ⟨"B", {}⟩), (⟨4⟩, ⟨"C", {}⟩)]) := by
  obtain ⟨t, ht, -⟩ := (create_yields (c := smallCup .doubleElimination) smallStamp .seeded
    (by decide)).exists_ok (by decide)
  exact ⟨t, ht, rfl, two_losses_and_out ht rfl _⟩

end Tourney.Tournament
