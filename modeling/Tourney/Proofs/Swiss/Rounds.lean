import Mathlib.Algebra.Order.BigOperators.Group.List
import Tourney.Proofs.Arena.Results
import Tourney.Proofs.Sums
import Tourney.Proofs.Swiss.Round

/-!
# The rounds of a Swiss event

In every round each player has one seat, and a field of odd size has one board with a single
player (`Rounds`). Results keep this (`Rounds.goOn`), and so does a round built on top of resolved
ones (`Rounds.next`). Hence a player's matches stand in the order of their rounds
(`Rounds.pairwise`).
-/

namespace Tourney

/-- The board has one player only. -/
def Match.alone (m : Match) : Bool := m.player2.isNone

namespace Swiss

open Arena Finset

/-- Who has been given a board. -/
def seated (pairs : List (Player × Option Player)) : List Player :=
  pairs.flatMap fun (a, b) => a :: b.toList

def roundOf (r : Nat) (ms : List Match) : List Match := ms.filter (·.round.toNat = r)

/-- How many seats a player has. -/
def seatsOf (p : Player) (ms : List Match) : Nat := (ms.map (·.seats p)).sum

structure Rounds (players : List Player) (current : Nat) (ms : List Match) : Prop where
  board : ∀ m ∈ ms, (∃ a, m.seat1 = .settled (some a)) ∧ ∃ b, m.seat2 = .settled b
  apart : ∀ m ∈ ms, m.targets = [] ∧ m.stage = .main
  range : ∀ m ∈ ms, 1 ≤ m.round.toNat ∧ m.round.toNat ≤ current
  sorted : ms.Pairwise fun a b => a.round.toNat ≤ b.round.toNat
  once : ∀ r, 1 ≤ r → r ≤ current → ∀ p ∈ players, seatsOf p (roundOf r ms) = 1
  byes : ∀ r, 1 ≤ r → r ≤ current → (roundOf r ms).countP Match.alone = players.length % 2
  past : ∀ m ∈ ms, m.round.toNat < current → m.status.isResolved

theorem rounds_nil (players : List Player) : Rounds players 0 [] := by
  refine ⟨by simp, by simp, by simp, .nil, fun r h h' => ?_, fun r h h' => ?_, by simp⟩ <;> omega

section Lists

variable {p : Player} {ms ms' : List Match}

theorem seatsOf_append : seatsOf p (ms ++ ms') = seatsOf p ms + seatsOf p ms' := by
  rw [seatsOf, List.map_append, List.sum_append]
  rfl

theorem roundOf_append (r : Nat) : roundOf r (ms ++ ms') = roundOf r ms ++ roundOf r ms' :=
  List.filter_append ..

theorem seatsOf_le_of_sublist (h : ms.Sublist ms') : seatsOf p ms ≤ seatsOf p ms' := by
  unfold seatsOf
  exact (h.map _).sum_le_sum fun _ _ => Nat.zero_le _

/-- A sum over the matches can be taken round by round. -/
theorem sum_rounds {k : Nat} (f : Match → Nat)
    (h : ∀ m ∈ ms, 1 ≤ m.round.toNat ∧ m.round.toNat ≤ k) :
    (ms.map f).sum = ∑ r ∈ Finset.range k, ((roundOf (r + 1) ms).map f).sum := by
  induction ms with
  | nil => simp [roundOf]
  | cons m ms ih =>
    rw [List.forall_mem_cons] at h
    have hone : ∀ r, ((roundOf (r + 1) (m :: ms)).map f).sum =
        (if m.round.toNat - 1 = r then f m else 0) + ((roundOf (r + 1) ms).map f).sum := by
      intro r
      by_cases hr : m.round.toNat - 1 = r
      · simp [roundOf, show m.round.toNat = r + 1 by omega]
      · simp [roundOf, hr, show m.round.toNat ≠ r + 1 by omega]
    rw [List.map_cons, List.sum_cons, ih h.2, sum_congr rfl fun r _ => hone r, sum_add_distrib,
      sum_ite_eq, if_pos (Finset.mem_range.2 (by omega))]

end Lists

/-! ## Results keep the rounds -/

section Going

variable {players : List Player} {current : Nat} {ms ms' : List Match}

theorem seats_of_evolves {m m' : Match} (he : m.Evolves m') (h1 : ∃ a, m.seat1 = .settled (some a))
    (h2 : ∃ b, m.seat2 = .settled b) : m'.seat1 = m.seat1 ∧ m'.seat2 = m.seat2 := by
  obtain ⟨a, h1⟩ := h1
  obtain ⟨b, h2⟩ := h2
  exact ⟨he.seats .first (by rw [Match.seat, h1]; exact Seat.settled_ne_open _),
    he.seats .second (by rw [Match.seat, h2]; exact Seat.settled_ne_open _)⟩

theorem evolves_roundOf (h : List.Forall₂ Match.Evolves ms ms') (r : Nat) :
    List.Forall₂ Match.Evolves (roundOf r ms) (roundOf r ms') :=
  List.rel_filter (fun _ _ hm => by simp [Match.outline_round hm.outline]) h

/-- What the seats of settled boards say, they go on to say. -/
theorem map_of_evolves {α : Type} {f : Match → α}
    (hf : ∀ m m' : Match, m'.seat1 = m.seat1 → m'.seat2 = m.seat2 → f m' = f m)
    (h : List.Forall₂ Match.Evolves ms ms')
    (hb : ∀ m ∈ ms, (∃ a, m.seat1 = .settled (some a)) ∧ ∃ b, m.seat2 = .settled b) :
    ms'.map f = ms.map f := by
  induction h with
  | nil => rfl
  | cons hab _ ih =>
    rw [List.forall_mem_cons] at hb
    obtain ⟨h1, h2⟩ := seats_of_evolves hab hb.1.1 hb.1.2
    rw [List.map_cons, List.map_cons, ih hb.2, hf _ _ h1 h2]

theorem seatsOf_of_evolves (h : List.Forall₂ Match.Evolves ms ms')
    (hb : ∀ m ∈ ms, (∃ a, m.seat1 = .settled (some a)) ∧ ∃ b, m.seat2 = .settled b) (p : Player) :
    seatsOf p ms' = seatsOf p ms := by
  rw [seatsOf, seatsOf, map_of_evolves (fun m m' h1 h2 => by simp [Match.seats, h1, h2]) h hb]

theorem countP_alone_of_evolves (h : List.Forall₂ Match.Evolves ms ms')
    (hb : ∀ m ∈ ms, (∃ a, m.seat1 = .settled (some a)) ∧ ∃ b, m.seat2 = .settled b) :
    ms'.countP Match.alone = ms.countP Match.alone := by
  rw [countP_eq_sum, countP_eq_sum,
    map_of_evolves (fun m m' _ h2 => by simp [Match.alone, Match.player2, h2]) h hb]

theorem Rounds.goOn (h : Rounds players current ms) (he : List.Forall₂ Match.Evolves ms ms') :
    Rounds players current ms' where
  board := by
    intro m' hm'
    obtain ⟨m, hm, hev⟩ := exists_left he hm'
    obtain ⟨h1, h2⟩ := seats_of_evolves hev (h.board m hm).1 (h.board m hm).2
    rw [h1, h2]
    exact h.board m hm
  apart := by
    intro m' hm'
    obtain ⟨m, hm, hev⟩ := exists_left he hm'
    rw [Match.outline_targets hev.outline, Match.outline_stage hev.outline]
    exact h.apart m hm
  range := by
    intro m' hm'
    obtain ⟨m, hm, hev⟩ := exists_left he hm'
    rw [Match.outline_round hev.outline]
    exact h.range m hm
  sorted := by
    have key : ∀ l : List Match, (l.Pairwise fun a b => a.round.toNat ≤ b.round.toNat) ↔
        (l.map Match.outline).Pairwise fun a b => a.round.toNat ≤ b.round.toNat := fun l => by
      rw [List.pairwise_map]
      rfl
    rw [key, map_outline_of_evolves he, ← key]
    exact h.sorted
  once := by
    intro r h1 h2 p hp
    rw [← h.once r h1 h2 p hp]
    exact seatsOf_of_evolves (evolves_roundOf he r)
      (fun m hm => h.board m (List.mem_filter.1 hm).1) p
  byes := by
    intro r h1 h2
    rw [← h.byes r h1 h2]
    exact countP_alone_of_evolves (evolves_roundOf he r)
      fun m hm => h.board m (List.mem_filter.1 hm).1
  past := by
    intro m' hm' hlt
    obtain ⟨m, hm, hev⟩ := exists_left he hm'
    rw [Match.outline_round hev.outline] at hlt
    rw [hev.fixed (h.past m hm hlt)]
    exact h.past m hm hlt

end Going

/-! ## The next round -/

section Boards

variable {pairs : List (Player × Option Player)} {round : UInt32} {first : MatchId}
  {stage : Stage} {ms : List Match}

theorem map_boards {α : Type} {f : Match → α} {g : Player × Option Player → α}
    (hf : ∀ k a b, f (.seated (first.plus k) round (UInt32.ofNat k) stage (some a) b) = g (a, b)) :
    (boards pairs round first stage).map f = pairs.map g := by
  rw [boards, List.map_map, ← List.zipIdx_map_fst 0 pairs, List.map_map, List.zipIdx_map_fst]
  exact List.map_congr_left fun x _ => hf x.2 x.1.1 x.1.2

theorem seatsOf_boards (p : Player) :
    seatsOf p (boards pairs round first stage) = (seated pairs).count p := by
  rw [seatsOf, map_boards (g := fun x => (x.1 :: x.2.toList).count p) fun k a b => ?_]
  · rw [seated, List.count_flatMap]
    rfl
  · rw [Match.seats, Match.seated, Seat.holds_settled, Seat.holds_settled, List.count_cons,
      Nat.add_comm]
    cases b <;> simp [List.count_singleton]

theorem countP_alone_boards :
    (boards pairs round first stage).countP Match.alone = pairs.countP (·.2.isNone) := by
  rw [countP_eq_sum, countP_eq_sum,
    map_boards (g := fun x => if x.2.isNone then 1 else 0) fun _ _ _ => rfl]

theorem settled_boards : ∀ m ∈ boards pairs round first stage,
    (∃ a, m.seat1 = .settled (some a)) ∧ ∃ b, m.seat2 = .settled b := by
  intro m hm
  obtain ⟨a, b, -, h1, h2, -⟩ := mem_boards hm
  exact ⟨⟨a, h1⟩, b, h2⟩

/-- Who sits at a board that has been built. -/
theorem Built.exists_pair (hb : Built pairs round first stage ms) {m : Match} (hm : m ∈ ms) :
    ∃ a b, (a, b) ∈ pairs ∧ m.seat1 = .settled (some a) ∧ m.seat2 = .settled b := by
  obtain ⟨m₀, hm₀, hf⟩ := exists_left hb.settles hm
  obtain ⟨a, b, hab, h1, h2, -⟩ := mem_boards hm₀
  obtain ⟨he1, he2⟩ := seats_of_evolves hf.evolves ⟨a, h1⟩ ⟨b, h2⟩
  exact ⟨a, b, hab, he1.trans h1, he2.trans h2⟩

theorem Built.seatsOf_eq (hb : Built pairs round first stage ms) (p : Player) :
    seatsOf p ms = (seated pairs).count p :=
  (seatsOf_of_evolves (hb.settles.imp fun _ _ hf => hf.evolves) settled_boards p).trans
    (seatsOf_boards p)

theorem roundOf_boards (r : Nat) : roundOf r (boards pairs round first stage) =
    if r = round.toNat then boards pairs round first stage else [] := by
  have hround : ∀ m ∈ boards pairs round first stage, m.round = round := fun m hm => by
    obtain ⟨_, _, -, -, -, -, hr, -⟩ := mem_boards hm
    exact hr
  split_ifs with hr
  · exact List.filter_eq_self.2 fun m hm => by simp [hround m hm, hr]
  · exact List.filter_eq_nil_iff.2 fun m hm => by simpa [hround m hm] using Ne.symm hr

/-- Once every match is resolved, a round that gives everybody a board can follow. -/
theorem Rounds.next {players : List Player} {current : Nat} {new : List Match}
    (h : Rounds players current ms) (hdone : ∀ m ∈ ms, m.status.isResolved)
    (hb : Built pairs round first .main new) (hround : round.toNat = current + 1)
    (hseated : (seated pairs).Perm players) (hnd : players.Nodup)
    (hbyes : pairs.countP (·.2.isNone) = players.length % 2) :
    Rounds players (current + 1) (ms ++ new) := by
  suffices hboards : Rounds players (current + 1) (ms ++ boards pairs round first .main) from
    hboards.goOn (List.rel_append (evolves_refl ms) (hb.settles.imp fun _ _ hf => hf.evolves))
  have hold : ∀ r, current < r → roundOf r ms = [] := fun r hr =>
    List.filter_eq_nil_iff.2 fun m hm => by
      have := (h.range m hm).2
      simp
      omega
  refine ⟨?_, ?_, ?_, ?_, fun r h1 h2 p hp => ?_, fun r h1 h2 => ?_, ?_⟩
  · exact List.forall_mem_append.2 ⟨h.board, settled_boards⟩
  · refine List.forall_mem_append.2 ⟨h.apart, fun m hm => ?_⟩
    obtain ⟨_, _, -, -, -, hs, -, ht, -⟩ := mem_boards hm
    exact ⟨ht, hs⟩
  · refine List.forall_mem_append.2 ⟨fun m hm => ?_, fun m hm => ?_⟩
    · have := h.range m hm
      omega
    · obtain ⟨_, _, -, -, -, -, hr, -⟩ := mem_boards hm
      rw [hr, hround]
      omega
  · have hr : ∀ m ∈ boards pairs round first .main, m.round.toNat = current + 1 := fun m hm => by
      obtain ⟨_, _, -, -, -, -, hr, -⟩ := mem_boards hm
      rw [hr, hround]
    refine List.pairwise_append.2 ⟨h.sorted, ?_, fun a ha b hb => ?_⟩
    · refine List.pairwise_of_forall_mem_list fun a ha b hb => ?_
      rw [hr a ha, hr b hb]
    · have := (h.range a ha).2
      rw [hr b hb]
      omega
  · rw [roundOf_append, seatsOf_append, roundOf_boards, hround]
    split_ifs with hr
    · rw [hold r (by omega), seatsOf_boards, hseated.count_eq, List.count_eq_one_of_mem hnd hp]
      rfl
    · exact h.once r h1 (by omega) p hp
  · rw [roundOf_append, List.countP_append, roundOf_boards, hround]
    split_ifs with hr
    · rw [hold r (by omega), countP_alone_boards, hbyes]
      exact Nat.zero_add _
    · exact h.byes r h1 (by omega)
  · refine List.forall_mem_append.2 ⟨fun m hm _ => hdone m hm, fun m hm hlt => ?_⟩
    obtain ⟨_, _, -, -, -, -, hr, -⟩ := mem_boards hm
    rw [hr, hround] at hlt
    omega

end Boards

theorem seated_boards (p : Pairing) : seated p.boards = p.field := by
  rw [Pairing.field, Pairing.boards, seated, List.flatMap_append, List.flatMap_map]
  congr 1
  cases p.bye <;> rfl

/-- A pairing has a bye exactly if the field is odd. -/
theorem countP_boards (p : Pairing) : p.boards.countP (·.2.isNone) = p.field.length % 2 := by
  rw [Pairing.boards, List.countP_append, Pairing.field, List.length_append, length_paired,
    List.countP_map, List.countP_map]
  cases p.bye <;> simp [Function.comp_def]

theorem bye_of_mem_boards {p : Pairing} {a : Player} (h : (a, none) ∈ p.boards) :
    p.bye = some a := by
  simpa [Pairing.boards, eq_comm] using h

theorem seated_neighbours (players : List Player) : seated (neighbours players) = players := by
  induction players using neighbours.induct with
  | case1 => rfl
  | case2 a => rfl
  | case3 a b rest ih => rw [neighbours, seated, List.flatMap_cons, ← seated, ih]; rfl

theorem countP_neighbours (players : List Player) :
    (neighbours players).countP (·.2.isNone) = players.length % 2 := by
  induction players using neighbours.induct with
  | case1 => rfl
  | case2 a => rfl
  | case3 a b rest ih =>
    rw [neighbours, List.countP_cons, ih, List.length_cons, List.length_cons]
    simp only [Option.isNone_some, Bool.false_eq_true, if_false]
    omega

/-! ## Whom a player meets when -/

section Meetings

variable {players : List Player} {current : Nat} {ms : List Match} {p : Player}
  (h : Rounds players current ms) (hp : p ∈ players)

include h

/-- Everybody has one seat for every round. -/
theorem Rounds.seatsOf_eq (hp : p ∈ players) : seatsOf p ms = current := by
  rw [seatsOf, sum_rounds _ h.range]
  refine (sum_const_nat fun r hr => h.once (r + 1) (Nat.succ_pos r) ?_ p hp).trans ?_
  · exact Finset.mem_range.1 hr
  · rw [card_range, Nat.mul_one]

theorem Rounds.countP_alone : ms.countP Match.alone = current * (players.length % 2) := by
  rw [countP_eq_sum, sum_rounds _ h.range, sum_const_nat fun r hr => by
    rw [← countP_eq_sum, h.byes (r + 1) (Nat.succ_pos r) (Finset.mem_range.1 hr)], card_range]

include hp

theorem Rounds.seats_le_one {m : Match} (hm : m ∈ ms) : m.seats p ≤ 1 := by
  have hmem : m ∈ roundOf m.round.toNat ms := List.mem_filter.2 ⟨hm, by simp⟩
  have hle := seatsOf_le_of_sublist (p := p) (List.singleton_sublist.2 hmem)
  rw [h.once _ (h.range m hm).1 (h.range m hm).2 p hp] at hle
  simpa [seatsOf] using hle

/-- A player's matches stand in the order of their rounds. -/
theorem Rounds.pairwise : ms.Pairwise fun a b =>
    a.hasPlayer p → b.hasPlayer p → a.round.toNat < b.round.toNat := by
  refine List.pairwise_iff_forall_sublist.2 fun {a b} hab ha hb => ?_
  have hle := List.pairwise_iff_forall_sublist.1 h.sorted hab
  refine Nat.lt_of_le_of_ne hle fun heq => ?_
  have ham : a ∈ ms := hab.subset (by simp)
  have hsub : [a, b].Sublist (roundOf a.round.toNat ms) := by
    have := hab.filter (·.round.toNat = a.round.toNat)
    rwa [List.filter_eq_self.2 (by simp [heq])] at this
  have htwo := seatsOf_le_of_sublist (p := p) hsub
  rw [h.once _ (h.range a ham).1 (h.range a ham).2 p hp] at htwo
  rw [Match.hasPlayer_iff_seats] at ha hb
  simp only [seatsOf, List.map_cons, List.map_nil, List.sum_cons, List.sum_nil] at htwo
  omega

omit h in
/-- After a match that is still to be played its players have no other. -/
theorem Rounds.not_hasPlayer_after {pre post : List Match} {m : Match}
    (h : Rounds players current (pre ++ m :: post)) (ho : m.status.isResolved = false)
    (hm : m.hasPlayer p) : ∀ b ∈ post, ¬b.hasPlayer p := by
  intro b hb hpb
  have hpw := (List.pairwise_append.1 (h.pairwise hp)).2.1
  have hlt := (List.pairwise_cons.1 hpw).1 b hb hm hpb
  have hrange := h.range b (by simp [hb])
  have hpast := h.past m (by simp) (by omega)
  rw [hpast] at ho
  cases ho

/-- No two matches of a round share a player. -/
theorem Rounds.eq_of_hasPlayer {a b : Match} (ha : a ∈ ms) (hb : b ∈ ms)
    (hround : a.round = b.round) (hpa : a.hasPlayer p) (hpb : b.hasPlayer p) : a = b := by
  have hpw : ms.Pairwise fun a b => ¬(a.round = b.round ∧ a.hasPlayer p ∧ b.hasPlayer p) :=
    (h.pairwise hp).imp fun hlt ⟨hr, hpa, hpb⟩ => by
      have := hlt hpa hpb
      rw [hr] at this
      exact Nat.lt_irrefl _ this
  have : Std.Symm fun a b : Match => ¬(a.round = b.round ∧ a.hasPlayer p ∧ b.hasPlayer p) :=
    ⟨fun _ _ h ⟨hr, hpa, hpb⟩ => h ⟨hr.symm, hpb, hpa⟩⟩
  by_contra hne
  exact hpw.forall ha hb hne ⟨hround, hpa, hpb⟩

/-- Matches that are still to be played are of the current round, so no two share a player. -/
theorem Rounds.eq_of_open {a b : Match} (ha : a ∈ ms) (hb : b ∈ ms)
    (hoa : a.status.isResolved = false) (hob : b.status.isResolved = false) (hpa : a.hasPlayer p)
    (hpb : b.hasPlayer p) : a = b := by
  have hround : ∀ {m : Match}, m ∈ ms → m.status.isResolved = false →
      m.round.toNat = current := fun {m} hm ho => by
    refine Nat.le_antisymm (h.range m hm).2 (Nat.le_of_not_lt fun hlt => ?_)
    rw [h.past m hm hlt] at ho
    cases ho
  have hsame := UInt32.toNat_inj.1 ((hround ha hoa).trans (hround hb hob).symm)
  exact h.eq_of_hasPlayer hp ha hb hsame hpa hpb

end Meetings

end Swiss

end Tourney
