import Tourney.Proofs.Swiss.Exact
import Tourney.Proofs.Swiss.Rounds

/-!
# Who sits out

A board with one player is won by that player at once, so the byes of all players together are the
boards with one player (`sum_byes`), and a new bye goes to a player with the fewest
(`of_bye_eq_some`).
-/

namespace Tourney

namespace Match

variable {m : Match} {p : Player}

theorem AtRest.hasPlayer_of_winner (h : m.AtRest) {w : Player} (hw : m.winner = some w) :
    m.status = .complete ∧ m.hasPlayer w := by
  unfold AtRest at h
  split at h
  · obtain ⟨⟨w', hw', hp⟩, -⟩ := h
    rw [hw', Option.some.injEq] at hw
    exact ⟨‹_›, hw ▸ hp⟩
  all_goals
    rw [h.1] at hw
    cases hw

theorem AtRest.hasPlayer_of_opponent (h : m.AtRest) {q : Player} (ho : m.opponent? p = some q) :
    m.hasPlayer p := by
  unfold opponent? at ho
  split_ifs at ho with _ hw hl
  · exact (h.hasPlayer_of_winner hw).2
  · exact hasPlayer_of_loser hl

/-- A match in which nobody has two seats is not lost by its winner. -/
theorem AtRest.fair (h : m.AtRest) (hs : ∀ p, m.hasPlayer p → m.seats p ≤ 1) : m.Fair := by
  intro w hw hl
  obtain ⟨-, hp⟩ := h.hasPlayer_of_winner hw
  have htwo := holds_winner_add_loser (x := w) hw hp
  rw [if_pos hw, if_pos hl] at htwo
  have := hs w hp
  omega

theorem AtRest.byes_le_seats (h : m.AtRest) (p : Player) : m.byes p ≤ m.seats p := by
  unfold byes
  split_ifs with hb
  · exact hasPlayer_iff_seats.1 (h.hasPlayer_of_winner hb.2.1).2
  · exact Nat.zero_le _

/-- With both seats taken there is no bye. -/
theorem AtRest.byes_of_isReady (h : m.AtRest) (hr : m.isReady) : m.byes p = 0 := by
  unfold byes
  rw [if_neg]
  rintro ⟨-, hw, hl⟩
  simp only [isReady, Bool.and_eq_true] at hr
  simp only [loser, winnerSlot, hw] at hl
  split_ifs at hl with hs1 hs2
  · simp [hl] at hr
  · simp [hl] at hr
  · have := (h.hasPlayer_of_winner hw).2
    simp [hasPlayer, hs1, hs2] at this

/-- A board at rest is a bye of its first player if he is alone, and nobody's bye otherwise. -/
theorem AtRest.byes_eq (h : m.AtRest) {a : Player} {b : Option Player}
    (h1 : m.seat1 = .settled (some a)) (h2 : m.seat2 = .settled b) (p : Player) :
    m.byes p = if b = none ∧ a = p then 1 else 0 := by
  have hp1 : m.player1 = some a := by rw [player1, h1]; rfl
  have hp2 : m.player2 = b := by rw [player2, h2]; rfl
  cases b with
  | none =>
    have hr : m.isReady = false := by simp [isReady, hp2]
    have hopen : ∀ slot, m.seat slot ≠ {} := by
      rintro (_ | _)
      · rw [seat, h1]
        exact Seat.settled_ne_open _
      · rw [seat, h2]
        exact Seat.settled_ne_open _
    have hres : m.status.isResolved := by
      by_contra hres
      rw [Arena.ready_of_seats h (by simpa using hres) hopen] at hr
      cases hr
    obtain ⟨hc, w, hw, hpw⟩ := h.exists_winner hres .first
      (by rw [seat, h1]; simp [Seat.settled])
    obtain rfl : a = w := by simpa [hasPlayer, hp1, hp2] using hpw
    simp [byes, hc, hw, loser, winnerSlot, hp1, hp2]
  | some b =>
    exact h.byes_of_isReady (by simp [isReady, hp1, hp2])

end Match

namespace Swiss

open Arena

/-- Over all players, the byes are the boards with one player. -/
theorem sum_byes {players : List Player} {ms : List Match} (hrest : ∀ m ∈ ms, m.AtRest)
    (hboard : ∀ m ∈ ms, (∃ a, m.seat1 = .settled (some a)) ∧ ∃ b, m.seat2 = .settled b)
    (hp : ∀ m ∈ ms, ∀ p, m.hasPlayer p → p ∈ players) (hnd : players.Nodup) :
    (players.map fun p => (ms.map (·.byes p)).sum).sum = ms.countP Match.alone := by
  induction ms with
  | nil => simp
  | cons m ms ih =>
    rw [List.forall_mem_cons] at hrest hboard hp
    simp only [List.map_cons, List.sum_cons, List.sum_map_add]
    rw [ih hrest.2 hboard.2 hp.2, List.countP_cons, Nat.add_comm]
    congr 1
    obtain ⟨⟨a, h1⟩, b, h2⟩ := hboard.1
    have ha : a ∈ players := hp.1 a (by simp [Match.hasPlayer, Match.player1, h1, Seat.settled])
    have hone : (players.map fun p => m.byes p) =
        players.map fun p => if (b = none ∧ a = p : Bool) then 1 else 0 :=
      List.map_congr_left fun p _ => by simp [hrest.1.byes_eq h1 h2]
    have halone : m.alone = b.isNone := by simp [Match.alone, Match.player2, h2, Seat.settled]
    rw [hone, ← countP_eq_sum, halone]
    cases b with
    | none =>
      simp only [Option.isNone_none, if_true, true_and]
      rw [← List.count_eq_one_of_mem hnd ha, List.count]
      congr 1
      funext p
      rw [Bool.beq_eq_decide_eq]
      simp only [eq_comm]
    | some b => simp

section Built

variable {pairs : List (Player × Option Player)} {round : UInt32} {first : MatchId}
  {stage : Stage} {ms : List Match} (h : Built pairs round first stage ms)
  (hnd : (seated pairs).Nodup)

include h hnd

theorem Built.seatsOf_le_one (p : Player) : seatsOf p ms ≤ 1 := by
  rw [h.seatsOf_eq]
  exact List.nodup_iff_count_le_one.1 hnd p

theorem Built.fair : ∀ m ∈ ms, m.Fair := fun m hm => (h.coherent.atRest hm).fair fun p _ => by
  have hle := seatsOf_le_of_sublist (p := p) (List.singleton_sublist.2 hm)
  rw [seatsOf, List.map_singleton, List.sum_singleton] at hle
  exact hle.trans (h.seatsOf_le_one hnd p)

/-- Nobody sits out twice in a round, and only who is alone at a board. -/
theorem Built.sum_byes_le (p : Player) :
    (ms.map (·.byes p)).sum ≤ if (p, none) ∈ pairs then 1 else 0 := by
  split_ifs with hp
  · exact (List.sum_le_sum fun m hm => (h.coherent.atRest hm).byes_le_seats p).trans
      (h.seatsOf_le_one hnd p)
  · refine Nat.le_of_eq (List.sum_eq_zero fun n hn => ?_)
    obtain ⟨m, hm, rfl⟩ := List.mem_map.1 hn
    obtain ⟨a, b, hab, h1, h2⟩ := h.exists_pair hm
    rw [(h.coherent.atRest hm).byes_eq h1 h2, if_neg]
    rintro ⟨rfl, rfl⟩
    exact hp hab

end Built

theorem foldl_min_le (ss : List Standing) (n : Nat) :
    ss.foldl (fun n s => min n s.byes.toNat) n ≤ n ∧
      ∀ s ∈ ss, ss.foldl (fun n s => min n s.byes.toNat) n ≤ s.byes.toNat := by
  induction ss generalizing n with
  | nil => simp
  | cons s ss ih =>
    obtain ⟨hn, hs⟩ := ih (min n s.byes.toNat)
    rw [List.foldl_cons, List.forall_mem_cons]
    exact ⟨by omega, by omega, hs⟩

theorem fewestByes_le {ss : List Standing} {s : Standing} (h : s ∈ ss) :
    fewestByes ss ≤ s.byes.toNat := by
  cases ss with
  | nil => simp at h
  | cons t ss =>
    obtain ⟨ht, hs⟩ := foldl_min_le ss t.byes.toNat
    rcases List.mem_cons.1 h with rfl | h
    · exact ht
    · exact hs s h

theorem byes_of_mem_byeChoices {field rest : List Standing} {s : Standing}
    (h : (some s, rest) ∈ byeChoices field) : s ∈ field ∧ s.byes.toNat = fewestByes field := by
  refine ⟨(of_mem_byeChoices h).1.mem_iff.1 (by simp), ?_⟩
  unfold byeChoices at h
  split_ifs at h with heven
  · simp at h
  · obtain ⟨⟨t, i⟩, hmem, heq⟩ := List.mem_map.1 h
    simp only [Prod.mk.injEq, Option.some.injEq] at heq
    obtain ⟨rfl, -⟩ := heq
    simpa using (List.mem_filter.1 hmem).2

/-- A bye goes to a player with the fewest. -/
theorem of_bye_eq_some {ss : List Standing} {a : Player} (h : (pairNextRound ss).bye = some a) :
    ∃ s ∈ ss, s.player = a ∧ ∀ t ∈ ss, s.byes.toNat ≤ t.byes.toNat := by
  obtain ⟨⟨bye, rest⟩, hc, pairs, -, heq⟩ := exists_dealt ss
  rw [heq, toPairing, Option.map_eq_some_iff] at h
  obtain ⟨s, rfl, rfl⟩ := h
  obtain ⟨hs, hfew⟩ := byes_of_mem_byeChoices hc
  have hranked : (ranked ss).Perm ss := List.mergeSort_perm ..
  exact ⟨s, hranked.mem_iff.1 hs, rfl, fun t ht =>
    hfew ▸ fewestByes_le (hranked.mem_iff.2 ht)⟩

end Swiss

end Tourney
