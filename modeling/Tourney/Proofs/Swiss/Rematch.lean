import Tourney.Proofs.Swiss.Matching

/-!
# Rounds without a rematch

Standings that are exact tell who has met whom (`met_iff`), and a round of pairs that have not met
adds no rematch (`NoRematch.next`).
-/

namespace Tourney

namespace Match

variable {m m' : Match} {p q : Player}

/-- Two players sit together at both matches. -/
def Rematch (m m' : Match) : Prop :=
  ∃ p q, p ≠ q ∧ m.hasPlayer p ∧ m.hasPlayer q ∧ m'.hasPlayer p ∧ m'.hasPlayer q

/-- Who sits together at a match that is over has met. -/
theorem AtRest.opponent?_eq (h : m.AtRest) (hres : m.status.isResolved) (hp : m.hasPlayer p)
    (hq : m.hasPlayer q) (hne : p ≠ q) : m.opponent? p = some q := by
  obtain ⟨slot, hslot⟩ := hasPlayer_iff.1 hp
  obtain ⟨hc, w, hw, hpw⟩ := h.exists_winner hres slot
    (fun hs => by rw [hs] at hslot; cases hslot)
  have hone : ∀ {x : Player}, m.hasPlayer x → x = w ∨ m.loser = some x := fun {x} hx => by
    have hseats := hasPlayer_iff_seats.1 hx
    rw [holds_winner_add_loser hw hpw] at hseats
    by_contra hno
    rw [not_or] at hno
    rw [if_neg (by rw [hw]; exact fun heq => hno.1 (Option.some.inj heq).symm), if_neg hno.2]
      at hseats
    omega
  rw [opponent?, if_pos hc]
  rcases hone hp with rfl | hpl
  · rw [if_pos hw]
    exact (hone hq).resolve_left (Ne.symm hne)
  · rcases hone hq with rfl | hql
    · rw [if_neg (by rw [hw]; exact fun heq => hne (Option.some.inj heq).symm), if_pos hpl, hw]
    · exact absurd (Option.some.inj (hpl.symm.trans hql)) hne

end Match

namespace Swiss

open Arena

/-- No two players sit together at two matches. -/
def NoRematch (ms : List Match) : Prop := ms.Pairwise fun m m' => ¬m.Rematch m'

variable {ms ms' : List Match} {players : List Player} {current : Nat}

theorem NoRematch.of_evolves (h : NoRematch ms) (he : List.Forall₂ Match.Evolves ms ms')
    (hb : ∀ m ∈ ms, (∃ a, m.seat1 = .settled (some a)) ∧ ∃ b, m.seat2 = .settled b) :
    NoRematch ms' := by
  have key : ∀ l : List Match, NoRematch l ↔ (l.map Match.hasPlayer).Pairwise fun f g =>
      ¬∃ p q, p ≠ q ∧ f p ∧ f q ∧ g p ∧ g q := fun l => by
    rw [List.pairwise_map]
    rfl
  have hplayers : ∀ m m' : Match, m'.seat1 = m.seat1 → m'.seat2 = m.seat2 →
      m'.hasPlayer = m.hasPlayer := fun m m' h1 h2 => by
    funext p
    simp only [Match.hasPlayer, Match.player1, Match.player2, h1, h2]
  rw [key, map_of_evolves hplayers he hb, ← key]
  exact h

/-- A single round has no rematch. -/
theorem Rounds.noRematch (h : Rounds players 1 ms)
    (hp : ∀ m ∈ ms, ∀ p, m.hasPlayer p → p ∈ players) : NoRematch ms := by
  refine List.pairwise_iff_forall_sublist.2 fun {a b} hab hmeet => ?_
  obtain ⟨p, -, -, hap, -, hbp, -⟩ := hmeet
  have ha : a ∈ ms := hab.subset (by simp)
  have hb : b ∈ ms := hab.subset (by simp)
  have hlt := List.pairwise_iff_forall_sublist.1 (h.pairwise (hp a ha p hap)) hab hap hbp
  have := h.range a ha
  have := h.range b hb
  omega

/-! ## The field -/

section Exact

variable {s : Standing} {a b : Standing}

theorem met_iff (h : a.Exact ms) : met a b ↔ ∃ m ∈ ms, m.opponent? a.player = some b.player := by
  rw [met, Standing.hasPlayed, h.opponents, List.contains_iff_mem, List.mem_filterMap]

theorem met_comm (ha : a.Exact ms) (hb : b.Exact ms) : met a b = met b a := by
  rw [Bool.eq_iff_iff, met_iff ha, met_iff hb]
  simp only [Match.opponent?_comm]

/-- A round that is over is a bye or has an opponent. -/
theorem length_opponents (p : Player) (hrest : ∀ m ∈ ms, m.AtRest) (hfair : ∀ m ∈ ms, m.Fair)
    (hdone : ∀ m ∈ ms, m.status.isResolved) :
    (ms.filterMap (·.opponent? p)).length + (ms.map (·.byes p)).sum = seatsOf p ms := by
  induction ms with
  | nil => rfl
  | cons m ms ih =>
    rw [List.forall_mem_cons] at hrest hfair hdone
    have hseats := hrest.1.seats_eq (x := p)
    have hstays : m.stays p = 0 := if_pos hdone.1
    have hwins := Match.wins_add_loses hfair.1 p
    have hold := ih hrest.2 hfair.2 hdone.2
    have hcons : ((m :: ms).filterMap (·.opponent? p)).length =
        (m.opponent? p).toList.length + (ms.filterMap (·.opponent? p)).length := by
      cases ho : m.opponent? p <;> simp [ho, Nat.add_comm]
    rw [seatsOf] at hold ⊢
    rw [hcons, List.map_cons, List.sum_cons, List.map_cons, List.sum_cons]
    omega

/-- Whom a standing has met are some of its opponents. -/
theorem countP_met_le {ss : List Standing} (hnd : (ss.map Standing.player).Nodup) (a : Standing) :
    ss.countP (met a) ≤ a.opponents.length := by
  rw [List.countP_eq_length_filter, ← List.length_map Standing.player]
  refine ((hnd.sublist (List.filter_sublist.map _)).subperm fun q hq => ?_).length_le
  obtain ⟨b, hb, rfl⟩ := List.mem_map.1 hq
  exact List.contains_iff_mem.1 (List.mem_filter.1 hb).2

end Exact

/-! ## One round more -/

/-- Who is paired afresh has not met. -/
theorem FreshlyPaired.unmet {ss : List Standing} (h : FreshlyPaired ss) {a b : Player}
    (hab : (a, b) ∈ (pairNextRound ss).pairs) :
    ∃ s ∈ ss, ∃ u ∈ ss, s.player = a ∧ u.player = b ∧ met s u = false := by
  obtain ⟨⟨bye, field⟩, hc, pairs, hperm, hfresh, heq⟩ := h
  rw [heq] at hab
  obtain ⟨⟨s, u⟩, hsu, hplayers⟩ := List.mem_map.1 hab
  cases hplayers
  have hranked : (ranked ss).Perm ss := List.mergeSort_perm ..
  have hmem : ∀ c ∈ [s, u], c ∈ ss := fun c hcs => by
    have hpaired : c ∈ paired pairs := List.mem_flatMap.2 ⟨_, hsu, hcs⟩
    exact hranked.mem_iff.1 ((of_mem_byeChoices hc).1.mem_iff.1
      (List.mem_append_right _ (hperm.mem_iff.1 hpaired)))
  exact ⟨s, hmem s (by simp), u, hmem u (by simp), rfl, rfl, hfresh _ hsu⟩

section Built

variable {pairs : List (Player × Option Player)} {round : UInt32} {first : MatchId}
  {stage : Stage} {new : List Match}

theorem Built.pairwise (h : Built pairs round first stage new) (hnd : (seated pairs).Nodup) :
    new.Pairwise fun a b => ∀ p, a.hasPlayer p → ¬b.hasPlayer p := by
  refine List.pairwise_iff_forall_sublist.2 fun {a b} hab p ha hb => ?_
  have hle := (seatsOf_le_of_sublist (p := p) hab).trans (h.seatsOf_le_one hnd p)
  rw [Match.hasPlayer_iff_seats] at ha hb
  simp only [seatsOf, List.map_cons, List.map_nil, List.sum_cons, List.sum_nil] at hle
  omega

/-- Two players at a board of a pairing are one of its pairs. -/
theorem Built.mem_pairs {pairing : Pairing} (h : Built pairing.boards round first stage new)
    {m : Match} (hm : m ∈ new) {p q : Player} (hne : p ≠ q) (hp : m.hasPlayer p)
    (hq : m.hasPlayer q) : (p, q) ∈ pairing.pairs ∨ (q, p) ∈ pairing.pairs := by
  obtain ⟨a, b, hab, h1, h2⟩ := h.exists_pair hm
  have hplayer : ∀ x, m.hasPlayer x ↔ a = x ∨ b = some x := fun x => by
    simp [Match.hasPlayer, Match.player1, Match.player2, h1, h2, Seat.settled]
  rw [hplayer] at hp hq
  have hpair : ∀ {c d : Player}, (c, some d) ∈ pairing.boards → (c, d) ∈ pairing.pairs :=
    fun hcd => by simpa [Pairing.boards] using hcd
  rcases hp with rfl | rfl <;> rcases hq with rfl | hq
  · exact absurd rfl hne
  · exact .inl (hpair (hq ▸ hab))
  · exact .inr (hpair hab)
  · exact absurd (Option.some.inj hq) hne

/-- A round of players who have not met brings no rematch. -/
theorem NoRematch.next {ss : List Standing} (h : NoRematch ms) (hrest : ∀ m ∈ ms, m.AtRest)
    (hdone : ∀ m ∈ ms, m.status.isResolved) (hexact : ∀ s ∈ ss, s.Exact ms)
    (hfresh : FreshlyPaired ss) (hb : Built (pairNextRound ss).boards round first stage new)
    (hnd : (seated (pairNextRound ss).boards).Nodup) : NoRematch (ms ++ new) := by
  refine List.pairwise_append.2 ⟨h, ?_, fun m hm m' hm' => ?_⟩
  · refine (hb.pairwise hnd).imp fun hapart => ?_
    rintro ⟨p, -, -, hp, -, hp', -⟩
    exact hapart p hp hp'
  have hnever : ∀ {p q : Player}, p ≠ q → m.hasPlayer p → m.hasPlayer q →
      (p, q) ∉ (pairNextRound ss).pairs := fun {p q} hne hp hq hpq => by
    obtain ⟨s, hs, u, -, rfl, rfl, hunmet⟩ := hfresh.unmet hpq
    have hmet : met s u :=
      (met_iff (hexact s hs)).2 ⟨m, hm, (hrest m hm).opponent?_eq (hdone m hm) hp hq hne⟩
    rw [hunmet] at hmet
    cases hmet
  rintro ⟨p, q, hne, hp, hq, hp', hq'⟩
  rcases hb.mem_pairs hm' hne hp' hq' with hpq | hqp
  · exact hnever hne hp hq hpq
  · exact hnever hne.symm hq hp hqp

end Built

end Swiss

end Tourney
