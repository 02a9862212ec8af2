import Tourney.Proofs.Elimination.Byes
import Tourney.Proofs.Elimination.Standard

/-!
# A knockout in seed order

The matches of a single elimination stand round by round (`map_position_played`), each leads to the
one at half its position, and the first round seats the seeds as they are drawn. The top seeds have
the byes (`bye_iff_mem_take`) and wait in the second round, and nobody else is there yet
(`single_seeded`).
-/

namespace Tourney.Elimination

open Arena Seeding

theorem flatMap_range_ite {α : Type} (n a : Nat) (xs : List α) :
    (List.range n).flatMap (fun j => if j = a then xs else []) = if a < n then xs else [] := by
  induction n with
  | zero => simp
  | succ n ih =>
    rw [List.range_succ, List.flatMap_append, ih, List.flatMap_singleton]
    split_ifs <;> first | omega | simp

/-- A round has its matches at the positions from zero up. -/
theorem map_position_treePlaces {k r : Nat} (hr : 1 ≤ r) :
    ((treePlaces k).filter (·.1 = r)).map Prod.snd = List.range (2 ^ k / 2 ^ r) := by
  have hround : ∀ j, (((List.range (roundLength (2 ^ k) (j + 1))).map fun p => (j + 1, p)).filter
      (·.1 = r)).map Prod.snd = if j = r - 1 then List.range (2 ^ k / 2 ^ r) else [] := fun j => by
    rw [List.filter_map, List.map_map]
    split_ifs with hj
    · obtain rfl : r = j + 1 := by omega
      simp [Function.comp_def, roundLength]
    · simp [Function.comp_def, show ¬j + 1 = r by omega]
  rw [treePlaces, List.filter_flatMap, List.map_flatMap]
  simp only [hround]
  rw [flatMap_range_ite]
  split_ifs with hk
  · rfl
  · rw [Nat.div_eq_of_lt (Nat.pow_lt_pow_right (by omega) (by omega)), List.range_zero]

/-! ## Matches by round and position -/

section Played

variable {slots : List (Option Player)} {k : Nat} {first : MatchId} {stage : Stage}
  {now : Nat × Nat → Match} {x : Nat × Nat}
  (h : Played (treePlaces k) (fun x => treeMatch slots k first stage x.1 x.2) now)
  (hfit : 2 ^ k ≤ UInt32.size)

include h hfit

theorem round_played (hx : x ∈ treePlaces k) : (now x).round.toNat = x.1 := by
  have hle := le_of_two_pow_le hfit
  have hrk := (mem_treePlaces.1 hx).2.1
  rw [Match.outline_round (h.evolves x hx).outline, treeMatch_round, UInt32.toNat_ofNat_of_lt']
  exact Nat.lt_of_le_of_lt (hrk.trans hle) (by decide)

theorem position_played (hx : x ∈ treePlaces k) : (now x).position.toNat = x.2 := by
  have hp := (mem_treePlaces.1 hx).2.2
  have hle : 2 ^ (k - x.1) ≤ 2 ^ k := Nat.pow_le_pow_right (by omega) (by omega)
  rw [Match.outline_position (h.evolves x hx).outline, treeMatch_position,
    UInt32.toNat_ofNat_of_lt' (by omega)]

theorem map_position_played {r : Nat} (hr : 1 ≤ r) :
    (((treePlaces k).map now).filter (·.round.toNat = r)).map (·.position.toNat) =
      List.range (2 ^ k / 2 ^ r) := by
  rw [List.filter_map, List.map_map, ← map_position_treePlaces hr]
  have hfilter : (treePlaces k).filter ((fun m : Match => decide (m.round.toNat = r)) ∘ now) =
      (treePlaces k).filter (·.1 = r) :=
    List.filter_congr fun x hx => by rw [Function.comp, round_played h hfit hx]
  rw [hfilter]
  exact List.map_congr_left fun x hx => position_played h hfit (List.mem_filter.1 hx).1

omit hfit

theorem next_played {r p : Nat} (hx : (r, p) ∈ treePlaces k) (hr : r < k) :
    (r + 1, p / 2) ∈ treePlaces k ∧
      (now (r, p)).next = some ⟨(now (r + 1, p / 2)).id, .ofPosition p⟩ := by
  obtain ⟨h1, -, hp⟩ := mem_treePlaces.1 hx
  have h2 := two_pow_pred (a := k - r) (by omega)
  rw [Nat.sub_sub] at h2
  have hmem : (r + 1, p / 2) ∈ treePlaces k := mem_treePlaces.2 ⟨by omega, hr, by omega⟩
  refine ⟨hmem, ?_⟩
  rw [h.next_eq hx, treeMatch_next, if_pos hr, h.id_eq hmem, treeMatch_id]

theorem lt_of_next_ne_none {r p : Nat} (hx : (r, p) ∈ treePlaces k)
    (hnext : (now (r, p)).next ≠ none) : r < k := by
  obtain ⟨-, hrk, hp⟩ := mem_treePlaces.1 hx
  refine Nat.lt_of_le_of_ne hrk ?_
  rintro rfl
  exact hnext ((tree_next_eq_none_iff h hx).2 (by simpa using hp))

end Played

/-! ## Before the first result -/

section Opened

variable {players : List Player} {k : Nat} {first : MatchId} {stage : Stage}
  {now : Nat × Nat → Match} (hn : 2 ≤ players.length) (hk : rounds players.length = k + 1)
  (h : Opened (treePlaces (k + 1))
    (fun x => treeMatch (bracketSlots players) (k + 1) first stage x.1 x.2) now)

include hk h

/-- The first round seats the seeds as they are drawn. -/
theorem seat_opened {p : Nat} (hp : p < 2 ^ k) (slot : Slot) :
    ∃ seed : Nat, (slots (k + 1))[seed]? = some (2 * p + Slot.number slot) ∧
      (now (1, p)).seat slot = .settled players[seed]? := by
  have hlt := Ladder.double_lt (Nat.zero_lt_succ k) hp slot
  have hmem := (slots_perm (k + 1)).mem_iff.2 (List.mem_range.2 hlt)
  refine ⟨(slots (k + 1)).idxOf (2 * p + Slot.number slot), List.getElem?_idxOf hmem, ?_⟩
  rw [(treeLadder h.toPlayed (Nat.le_add_left 1 k)).opening p slot hp,
    getElem?_bracketSlots (by rwa [hk]), hk, Option.join_some]

include hn

theorem status_opened {r p : Nat} (hx : (r, p) ∈ treePlaces (k + 1)) : (now (r, p)).status =
    if r = 1 ∧ byeAt (bracketSlots players) p then .complete else .pending := by
  obtain ⟨hr, hrk, hp⟩ := mem_treePlaces.1 hx
  have hroot := bracketSlots_even hn
  rw [hk] at hroot
  exact (treeLadder h.toPlayed (Nat.le_add_left 1 k)).status_eq hroot hr hrk hp (h.untouched _ hx)

theorem isBye_opened {p : Nat} (hp : p < 2 ^ k) :
    (now (1, p)).isBye = byeAt (bracketSlots players) p := by
  have hroot := bracketSlots_even hn
  rw [hk] at hroot
  exact (treeLadder h.toPlayed (Nat.le_add_left 1 k)).isBye_eq hroot hp

/-- The player of a bye is the better seed of its match. -/
theorem hasPlayer_bye {p : Nat} (hp : p < 2 ^ k) (hb : (now (1, p)).isBye) (x : Player) :
    (now (1, p)).hasPlayer x ↔ players[(slots k).idxOf p]? = some x := by
  have hladder := treeLadder h.toPlayed (Nat.le_add_left 1 k)
  rw [isBye_opened hn hk h hp, byeAt, Option.isNone_iff_eq_none] at hb
  have hfirst := hladder.opening p .first hp
  have hsecond := hladder.opening p .second hp
  simp only [Slot.number, Nat.add_zero, (bracketSlots_pair hk hp).2.1, hb] at hfirst hsecond
  rw [Match.hasPlayer_iff, exists_slot, hfirst, hsecond]
  simp [Seat.settled]

/-- The top seeds have the byes. -/
theorem bye_iff_mem_take (x : Player) :
    (∃ p < 2 ^ k, (now (1, p)).isBye ∧ (now (1, p)).hasPlayer x) ↔
      x ∈ players.take (2 ^ (k + 1) - players.length) := by
  constructor
  · rintro ⟨p, hp, hb, hx⟩
    rw [hasPlayer_bye hn hk h hp hb] at hx
    rw [isBye_opened hn hk h hp, byeAt_iff hk hp] at hb
    exact List.mem_of_getElem? (i := (slots k).idxOf p) (by rwa [List.getElem?_take_of_lt hb])
  · intro hx
    obtain ⟨j, hj⟩ := List.mem_iff_getElem?.1 hx
    rw [List.getElem?_take] at hj
    split_ifs at hj with hlt
    have hhalf := half_lt hn
    rw [hk, Nat.add_sub_cancel] at hhalf
    have hlen : j < (slots k).length := by
      rw [length_slots]
      rw [Nat.pow_succ] at hlt
      omega
    have hp : (slots k)[j] < 2 ^ k :=
      List.mem_range.1 ((slots_perm k).mem_iff.1 (List.getElem_mem hlen))
    have hidx := (nodup_slots k).idxOf_getElem j hlen
    have hb : (now (1, (slots k)[j])).isBye := by
      rw [isBye_opened hn hk h hp, byeAt_iff hk hp, hidx]
      exact hlt
    exact ⟨_, hp, hb, (hasPlayer_bye hn hk h hp hb x).2 (by rw [hidx, hj])⟩

/-- A bye sends its player on to the second round. -/
theorem advanced_bye {p : Nat} (hp : p < 2 ^ k) (hb : (now (1, p)).isBye) :
    (2, p / 2) ∈ treePlaces (k + 1) ∧ ∃ w, (now (1, p)).winner = some w ∧
      (∀ q, (now (1, p)).hasPlayer q ↔ q = w) ∧
      (now (1, p)).next = some ⟨(now (2, p / 2)).id, .ofPosition p⟩ ∧
      (now (2, p / 2)).seat (.ofPosition p) = .settled (some w) := by
  have hx : (1, p) ∈ treePlaces (k + 1) :=
    mem_treePlaces.2 ⟨le_refl 1, Nat.le_add_left 1 k, hp⟩
  have hone : 1 < k + 1 := by
    rw [isBye_opened hn hk h hp] at hb
    have hlt := one_lt_rounds_of_byeAt hn (by rwa [hk]) hb
    rwa [hk] at hlt
  obtain ⟨hmem, hnext⟩ := next_played h.toPlayed hx hone
  obtain ⟨w, hw, hall, hseat⟩ := (treeLadder h.toPlayed (Nat.le_add_left 1 k)).advances hone hp
    (h.untouched _ hx) hb
  exact ⟨hmem, w, hw, hall, hnext, hseat⟩

/-- Past the first round a seat is open, or a bye leads to it. -/
theorem waits_opened {r p : Nat} (hx : (r, p) ∈ treePlaces (k + 1)) (hr : r ≠ 1) (slot : Slot) :
    (now (r, p)).seat slot = {} ∨ ∃ q < 2 ^ k, (now (1, q)).isBye ∧
      (now (1, q)).next = some ⟨(now (r, p)).id, slot⟩ := by
  obtain ⟨h1, hrk, hp⟩ := mem_treePlaces.1 hx
  obtain ⟨r, rfl⟩ : ∃ r', r = r' + 1 := ⟨r - 1, by omega⟩
  have hlt := Ladder.double_lt hrk hp slot
  have hy : (r, 2 * p + Slot.number slot) ∈ treePlaces (k + 1) :=
    mem_treePlaces.2 ⟨by omega, by omega, hlt⟩
  by_cases hs : (now (r, 2 * p + Slot.number slot)).status.isResolved
  · rw [status_opened hn hk h hy] at hs
    split_ifs at hs with hb
    · obtain ⟨rfl, hb⟩ := hb
      obtain ⟨-, hnext⟩ := next_played h.toPlayed hy hrk
      rw [double_div, ofPosition_double] at hnext
      exact .inr ⟨_, hlt, (isBye_opened hn hk h hlt).trans hb, hnext⟩
    · cases hs
  · rw [(treeLadder h.toPlayed (Nat.le_add_left 1 k)).climbs r p slot (by omega) hrk hp]
    exact .inl (Match.sends_of_unresolved (by simpa using hs) _)

end Opened

/-- A knockout in a bracket of so many slots, its players in seed order, before the first result. -/
structure SeededBracket (size : Nat) (players : List Player) (first : MatchId)
    (ms : List Match) : Prop where
  ids : ms.map (fun m => m.id.val.toNat) = List.range' first.val.toNat (size - 1)
  rounds : ∀ r, 1 ≤ r →
    (ms.filter (·.round.toNat = r)).map (·.position.toNat) = List.range (size / 2 ^ r)
  final : ∀ m ∈ ms, m.next = none ↔ 2 ^ m.round.toNat = size
  leads : ∀ m ∈ ms, m.next ≠ none → ∃ a ∈ ms, a.round.toNat = m.round.toNat + 1 ∧
    a.position.toNat = m.position.toNat / 2 ∧
    m.next = some ⟨a.id, .ofPosition m.position.toNat⟩
  seated : ∃ order, Seeding.order size = .ok order ∧ ∀ m ∈ ms, m.round.toNat = 1 → ∀ slot,
    ∃ seed : Nat, order[seed]? = some (2 * m.position.toNat + Slot.number slot) ∧
      m.seat slot = .settled players[seed]?
  peopled : ∀ m ∈ ms, m.round.toNat = 1 → ∃ p, m.hasPlayer p
  byes : ∀ p, (∃ m ∈ ms, m.round.toNat = 1 ∧ m.isBye ∧ m.hasPlayer p) ↔
    p ∈ players.take (size - players.length)
  status : ∀ m ∈ ms, m.status = if m.round.toNat = 1 ∧ m.isBye then .complete else .pending
  advanced : ∀ m ∈ ms, m.round.toNat = 1 → m.isBye →
    ∃ p, m.winner = some p ∧ (∀ q, m.hasPlayer q ↔ q = p) ∧ ∃ a ∈ ms, a.round.toNat = 2 ∧
      ∃ slot, m.next = some ⟨a.id, slot⟩ ∧ a.seat slot = .settled (some p)
  waits : ∀ m ∈ ms, m.round.toNat ≠ 1 → ∀ slot, m.seat slot = {} ∨
    ∃ b ∈ ms, b.round.toNat = 1 ∧ b.isBye ∧ b.next = some ⟨m.id, slot⟩

theorem seededBracket {players : List Player} {k : Nat} {first : MatchId} {stage : Stage}
    {now : Nat × Nat → Match} (hn : 2 ≤ players.length) (hk : rounds players.length = k + 1)
    (h : Opened (treePlaces (k + 1))
      (fun x => treeMatch (bracketSlots players) (k + 1) first stage x.1 x.2) now)
    (hfit : first.val.toNat + (2 ^ (k + 1) - 1) < UInt32.size) :
    SeededBracket (2 ^ (k + 1)) players first ((treePlaces (k + 1)).map now) := by
  have hsize : 2 ^ (k + 1) ≤ UInt32.size := by omega
  have hround : ∀ x ∈ treePlaces (k + 1), (now x).round.toNat = x.1 := fun x hx =>
    round_played h.toPlayed hsize hx
  have hposition : ∀ x ∈ treePlaces (k + 1), (now x).position.toNat = x.2 := fun x hx =>
    position_played h.toPlayed hsize hx
  have hone : ∀ {p}, (1, p) ∈ treePlaces (k + 1) ↔ p < 2 ^ k := by simp [mem_treePlaces]
  constructor
  case ids =>
    have hnumbered : Numbered first (tree (bracketSlots players) (k + 1) first stage) :=
      numbered_tree
    rw [tree_eq_map] at hnumbered
    have hnumbered := h.numbered hnumbered
    have hids := hnumbered.consecutive (by rw [List.length_map, length_treePlaces]; omega)
    rwa [List.length_map, length_treePlaces] at hids
  case rounds => exact fun r hr => map_position_played h.toPlayed hsize hr
  case final =>
    refine List.forall_mem_map.2 ?_
    rintro ⟨r, p⟩ hx
    have hp := (mem_treePlaces.1 hx).2.2
    rw [tree_next_eq_none_iff h.toPlayed hx, hround _ hx, Nat.pow_right_inj (by omega),
      Prod.mk.injEq]
    refine and_iff_left_of_imp ?_
    rintro rfl
    simpa using hp
  case leads =>
    refine List.forall_mem_map.2 ?_
    rintro ⟨r, p⟩ hx hnext
    obtain ⟨hmem, hlead⟩ := next_played h.toPlayed hx (lt_of_next_ne_none h.toPlayed hx hnext)
    refine ⟨_, List.mem_map_of_mem hmem, ?_, ?_, ?_⟩
    · rw [hround _ hmem, hround _ hx]
    · rw [hposition _ hmem, hposition _ hx]
    · rw [hlead, hposition _ hx]
  case seated =>
    refine ⟨slots (k + 1), order_two_pow (by omega), List.forall_mem_map.2 ?_⟩
    rintro ⟨r, p⟩ hx hr slot
    obtain rfl : r = 1 := (hround _ hx).symm.trans hr
    rw [hposition _ hx]
    exact seat_opened hk h (hone.1 hx) slot
  case peopled =>
    refine List.forall_mem_map.2 ?_
    rintro ⟨r, p⟩ hx hr
    obtain rfl : r = 1 := (hround _ hx).symm.trans hr
    obtain ⟨w, hw⟩ := bracketSlots_even hn p (by rw [hk]; exact hone.1 hx)
    refine ⟨w, Match.hasPlayer_iff.2 ⟨.first, ?_⟩⟩
    rw [(treeLadder h.toPlayed (Nat.le_add_left 1 k)).opening p .first (hone.1 hx)]
    simp [Slot.number, hw, Seat.settled]
  case byes =>
    intro w
    rw [← bye_iff_mem_take hn hk h w]
    constructor
    · rintro ⟨m, hm, hr, hb, hw⟩
      obtain ⟨⟨r, p⟩, hx, rfl⟩ := List.mem_map.1 hm
      obtain rfl : r = 1 := (hround _ hx).symm.trans hr
      exact ⟨p, hone.1 hx, hb, hw⟩
    · rintro ⟨p, hp, hb, hw⟩
      exact ⟨_, List.mem_map_of_mem (hone.2 hp), hround _ (hone.2 hp), hb, hw⟩
  case status =>
    refine List.forall_mem_map.2 ?_
    rintro ⟨r, p⟩ hx
    rw [status_opened hn hk h hx, hround _ hx]
    by_cases hr : r = 1
    · subst hr
      rw [isBye_opened hn hk h (hone.1 hx)]
    · simp [hr]
  case advanced =>
    refine List.forall_mem_map.2 ?_
    rintro ⟨r, p⟩ hx hr hb
    obtain rfl : r = 1 := (hround _ hx).symm.trans hr
    obtain ⟨hmem, w, hw, hall, hnext, hseat⟩ := advanced_bye hn hk h (hone.1 hx) hb
    exact ⟨w, hw, hall, _, List.mem_map_of_mem hmem, hround _ hmem, _, hnext, hseat⟩
  case waits =>
    refine List.forall_mem_map.2 ?_
    rintro ⟨r, p⟩ hx hr slot
    rw [hround _ hx] at hr
    refine (waits_opened hn hk h hx hr slot).imp_right ?_
    rintro ⟨q, hq, hb, hnext⟩
    exact ⟨_, List.mem_map_of_mem (hone.2 hq), hround _ (hone.2 hq), hb, hnext⟩

/-- A knockout of distinct players in seed order gives the byes to the top seeds, and its matches
lead to one another as they are drawn. -/
theorem single_seeded {players : List Player} {first : MatchId} (stage : Stage)
    (hn : 2 ≤ players.length) (hnd : players.Nodup)
    (hfit : first.val.toNat + (bracketSize players.length - 1) < UInt32.size) :
    Roster.Generates players (single players .seeded first stage)
      (SeededBracket (bracketSize players.length) players first) := by
  refine .of_check hn hnd (fun f hf => by rw [single, hf]; rfl) fun hr => ?_
  obtain ⟨ms, hms, hc, hf, -⟩ := (single_yields .seeded first stage hr).exists_ok hfit
  obtain ⟨k, hk⟩ : ∃ k, rounds players.length = k + 1 := ⟨_, rfl⟩
  rw [bracketSize, hk] at hfit ⊢
  rw [hk, tree_eq_map] at hf
  obtain ⟨now, rfl, h⟩ := (treeLayout hfit).exists_opened hc hf
  exact ⟨_, hms, seededBracket hn hk h hfit⟩

theorem single_seeded_five : 2 ≤ ["A", "B", "C", "D", "E"].length ∧
    ["A", "B", "C", "D", "E"].Nodup ∧ ∃ ms,
      single ["A", "B", "C", "D", "E"] .seeded ⟨3⟩ .main = .ok ms ∧
        SeededBracket 8 ["A", "B", "C", "D", "E"] ⟨3⟩ ms := by
  have hn : 2 ≤ ["A", "B", "C", "D", "E"].length := by decide
  have hnd : ["A", "B", "C", "D", "E"].Nodup := by decide
  exact ⟨hn, hnd, (single_seeded .main hn hnd (by decide)).ok (by decide)⟩

end Tourney.Elimination
