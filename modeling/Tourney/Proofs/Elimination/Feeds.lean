import Tourney.Proofs.Elimination.FirstRound
import Tourney.Proofs.Elimination.GrandFinal

/-!
# Who feeds whom

A double elimination that has been opened has its matches bracket by bracket and, in the losers
bracket, round by round (`map_bracket_doublePlaces`, `countP_losers_round`). Its pointers lead on to
every seat outside the first winners round once (`count_targets`), and the survivors of a minor
round meet the losers of a winners round (`double_feeds`).
-/

namespace Tourney

/-- The match is of a round of a bracket. -/
def Match.inRound (b : Bracket) (r : Nat) (m : Match) : Bool :=
  m.bracket = some b && m.round.toNat = r

namespace Elimination

open Arena Seeding Finset

namespace Place

def inRound (k : Nat) (b : Bracket) (r : Nat) (x : Place) : Bool := x.bracket = b && x.round k = r

theorem inRound_iff {k r : Nat} {b : Bracket} {x : Place} :
    x.inRound k b r ↔ x.bracket = b ∧ x.round k = r := by
  simp [inRound]

end Place

open Place

/-! ## Brackets and rounds -/

section Places

variable {k : Nat}

theorem map_bracket_doublePlaces (hk : 1 ≤ k) : (doublePlaces k).map Place.bracket =
    List.replicate (2 ^ k - 1) .winners ++ List.replicate (2 ^ k - 2) .losers ++
      List.replicate 2 .grandFinal := by
  have hlosers : ((List.range (k - 1)).flatMap (pairPlaces k)).length = 2 ^ k - 2 := by
    have hlen := length_doublePlaces hk
    have h2 := two_pow_pred hk
    rw [doublePlaces, List.length_append, List.length_append, List.length_map,
      length_treePlaces] at hlen
    simp only [List.length_cons, List.length_nil] at hlen
    omega
  rw [doublePlaces, List.map_append, List.map_append]
  congr 2
  · rw [List.eq_replicate_iff, List.length_map, List.length_map, length_treePlaces]
    exact ⟨rfl, List.forall_mem_map.2 (List.forall_mem_map.2 fun _ _ => rfl)⟩
  · rw [List.eq_replicate_iff, List.length_map, hlosers]
    refine ⟨rfl, List.forall_mem_map.2 fun x hx => ?_⟩
    obtain ⟨j, -, hx⟩ := List.mem_flatMap.1 hx
    rcases List.mem_append.1 hx with hx | hx <;> obtain ⟨p, -, rfl⟩ := List.mem_map.1 hx <;> rfl

/-- A losers round has as many matches as the other round of its pair. -/
theorem countP_losers_round {r : Nat} (hr : 1 ≤ r) :
    (doublePlaces k).countP (Place.inRound k .losers r) = 2 ^ k / 2 ^ ((r + 1) / 2 + 1) := by
  have hpair : ∀ j q, (if Place.inRound k .losers r (.minor (j + 1) q) then 1 else 0) +
      (if Place.inRound k .losers r (.major (j + 1) q) then 1 else 0) =
        if (r + 1) / 2 - 1 = j then 1 else 0 := fun j q => by
    simp only [inRound_iff, Place.bracket, Place.round, true_and]
    split_ifs <;> omega
  have hround : ∀ j, ∑ q ∈ range (2 ^ (k - (j + 1) - 1)),
      ((if Place.inRound k .losers r (.minor (j + 1) q) then 1 else 0) +
        if Place.inRound k .losers r (.major (j + 1) q) then 1 else 0) =
          if (r + 1) / 2 - 1 = j then 2 ^ (k - (j + 1) - 1) else 0 := fun j => by
    rw [sum_const_nat fun q _ => hpair j q, card_range]
    split_ifs <;> simp
  have hothers : (∀ a q, Place.inRound k .losers r (.winners a q) = false) ∧
      Place.inRound k .losers r .grandFinal = false ∧ Place.inRound k .losers r .reset = false :=
    ⟨fun _ _ => rfl, rfl, rfl⟩
  rw [countP_eq_sum, sum_doublePlaces]
  simp only [hround, hothers, Bool.false_eq_true, if_false, sum_const_zero, Nat.add_zero,
    Nat.zero_add, sum_ite_eq, mem_range]
  split_ifs with hi
  · have hlen := pairLength_eq (k := k) (i := (r + 1) / 2) (by omega)
    rw [pairLength] at hlen
    rw [hlen, Nat.sub_add_cancel (by omega)]
  · exact (Nat.div_eq_of_lt (Nat.pow_lt_pow_right (by omega) (by omega))).symm

theorem inRound_winners_one {x : Place} :
    x.inRound k .winners 1 ↔ ∃ p, x = .winners 1 p := by
  rw [inRound_iff]
  cases x <;> simp [Place.bracket, Place.round]

theorem inRound_losers_even {x : Place} {i : Nat} (hx : x ∈ doublePlaces k)
    (h : x.inRound k .losers (2 * i)) : ∃ p, x = .major i p := by
  obtain ⟨hb, hr⟩ := inRound_iff.1 h
  cases x with
  | minor j p =>
    have := (minor_mem.1 hx).1
    simp only [Place.round] at hr
    omega
  | major j p =>
    simp only [Place.round] at hr
    exact ⟨p, by rw [show j = i by omega]⟩
  | winners r p => cases hb
  | grandFinal => cases hb
  | reset => cases hb

end Places

/-! ## The wiring of an opened bracket -/

section Played

variable {slots : List (Option Player)} {k : Nat} {first : MatchId} {stage : Stage}
  {now : Place → Match} {x : Place}
  (h : Played (doublePlaces k) (placeMatch slots k first stage) now)

include h

theorem bracket_eq (hx : x ∈ doublePlaces k) : (now x).bracket = some x.bracket := by
  rw [Match.outline_bracket (h.evolves x hx).outline, placeMatch_bracket]

theorem inRound_eq (hfit : 2 ^ k ≤ UInt32.size) (hx : x ∈ doublePlaces k) (b : Bracket) (r : Nat) :
    (now x).inRound b r = x.inRound k b r := by
  rw [Match.inRound, bracket_eq h hx, Match.outline_round (h.evolves x hx).outline,
    placeMatch_round, UInt32.toNat_ofNat_of_lt' (round_lt_size hfit hx), Place.inRound]
  simp

theorem mem_targets (hx : x ∈ doublePlaces k) {l : Place × Slot} (hl : l ∈ feeds k x)
    (hmem : l.1 ∈ doublePlaces k) : ⟨(now l.1).id, l.2⟩ ∈ (now x).targets := by
  rw [Match.outline_targets (h.evolves x hx).outline, placeMatch_targets, h.id_eq hmem]
  exact List.mem_map_of_mem hl

theorem numbered_played (hk : 1 ≤ k) : Numbered first ((doublePlaces k).map now) := by
  have hnumbered : Numbered first (doubleTree slots k first stage) := numbered_doubleTree hk
  rw [doubleTree_eq_map] at hnumbered
  exact h.numbered hnumbered

theorem map_bracket_played (hk : 1 ≤ k) : ((doublePlaces k).map now).map (·.bracket) =
    List.replicate (2 ^ k - 1) (some .winners) ++ List.replicate (2 ^ k - 2) (some .losers) ++
      List.replicate 2 (some .grandFinal) := by
  have hmap : ((doublePlaces k).map now).map (·.bracket) =
      ((doublePlaces k).map Place.bracket).map some := by
    rw [List.map_map, List.map_map]
    exact List.map_congr_left fun x hx => bracket_eq h hx
  rw [hmap, map_bracket_doublePlaces hk]
  simp only [List.map_append, List.map_replicate]

theorem countP_inRound (hfit : 2 ^ k ≤ UInt32.size) {r : Nat} (hr : 1 ≤ r) :
    ((doublePlaces k).map now).countP (Match.inRound .losers r) =
      2 ^ k / 2 ^ ((r + 1) / 2 + 1) := by
  rw [List.countP_map, ← countP_losers_round hr]
  exact List.countP_congr fun x hx => by rw [Function.comp, inRound_eq h hfit hx]

/-- A seat outside the first winners round is the end of one pointer, and no other is. -/
theorem count_targets (hk : 1 ≤ k) (hfit : first.val.toNat + (2 * 2 ^ k - 1) ≤ UInt32.size)
    (hx : x ∈ doublePlaces k) (s : Slot) :
    (((doublePlaces k).map now).flatMap Match.targets).count ⟨(now x).id, s⟩ =
      if (now x).inRound .winners 1 then 0 else 1 := by
  have hlayout : Layout _ (placeMatch slots k first stage) _ _ := doubleLayout hk hfit
  rw [inRound_eq h (by omega) hx]
  by_cases hroot : ∃ p, x = .winners 1 p
  · rw [if_pos (inRound_winners_one.2 hroot), List.count_eq_zero]
    intro hmem
    obtain ⟨m, hm, ht⟩ := List.mem_flatMap.1 hmem
    obtain ⟨y, hy, rfl⟩ := List.mem_map.1 hm
    rw [Match.outline_targets (h.evolves y hy).outline, placeMatch_targets, List.mem_map] at ht
    obtain ⟨l, hl, heq⟩ := ht
    have hlx := hlayout.inj (leads_of_feeds hk hy hl).1 hx
      ((congrArg SeatRef.id heq).trans (h.id_eq hx))
    -- what is fed starts open, and a seat of the first winners round is settled
    have hopen := hlayout.opens y hy l hl
    obtain ⟨p, rfl⟩ := hroot
    rw [hlx, placeMatch_seat_one] at hopen
    exact Seat.settled_ne_open _ hopen
  · rw [if_neg (mt inRound_winners_one.1 hroot)]
    obtain ⟨hmem, hfed⟩ := fed_of_source hk hx s (not_exists.1 hroot)
    exact List.count_eq_one_of_mem h.coherent.wired.apart
      (List.mem_flatMap.2 ⟨_, List.mem_map_of_mem hmem, mem_targets h hmem hfed hx⟩)

theorem loserNext_isSome_iff (hx : x ∈ doublePlaces k) :
    (now x).loserNext.isSome ↔ (now x).bracket = some .winners ∨ (now x).isGrandFinal := by
  rw [isGrandFinal_iff h hx, bracket_eq h hx, Match.outline_loserNext (h.evolves x hx).outline,
    placeMatch_loserNext]
  cases x <;> simp [feeds, Place.bracket]

/-- In an even losers round the survivors of the round before meet the losers of a winners round. -/
theorem feeds_of_even (hfit : 2 ^ k ≤ UInt32.size) (hx : x ∈ doublePlaces k) {i : Nat}
    (hi : (now x).inRound .losers (2 * i)) :
    (∃ y ∈ doublePlaces k, (now y).inRound .losers (2 * i - 1) ∧
      (now y).next = some ⟨(now x).id, .first⟩) ∧
    ∃ y ∈ doublePlaces k, (now y).inRound .winners (i + 1) ∧
      (now y).loserNext = some ⟨(now x).id, .second⟩ := by
  rw [inRound_eq h hfit hx] at hi
  obtain ⟨p, rfl⟩ := inRound_losers_even hx hi
  obtain ⟨h1, hik, hp⟩ := major_mem.1 hx
  have hminor : Place.minor i p ∈ doublePlaces k := minor_mem.2 ⟨h1, hik, hp⟩
  have hwinners : Place.winners (i + 1) p ∈ doublePlaces k :=
    winners_mem.2 ⟨by omega, by omega, by rwa [← Nat.sub_sub]⟩
  refine ⟨⟨_, hminor, ?_, ?_⟩, _, hwinners, ?_, ?_⟩
  · rw [inRound_eq h hfit hminor]
    exact inRound_iff.2 ⟨rfl, rfl⟩
  · rw [h.next_eq hminor, placeMatch_next, h.id_eq hx]
    rfl
  · rw [inRound_eq h hfit hwinners]
    exact inRound_iff.2 ⟨rfl, rfl⟩
  · rw [Match.outline_loserNext (h.evolves _ hwinners).outline, placeMatch_loserNext, h.id_eq hx]
    simp [feeds, drop, seatRef, show k ≠ 1 by omega, show i ≠ 0 by omega]

end Played

/-- The matches of a double elimination in a bracket of so many slots, and what they feed. -/
structure PerfectFeed (size : Nat) (first : MatchId) (ms : List Match) : Prop where
  brackets : ms.map (·.bracket) = List.replicate (size - 1) (some .winners) ++
    List.replicate (size - 2) (some .losers) ++ List.replicate 2 (some .grandFinal)
  ids : ms.map (fun m => m.id.val.toNat) = List.range' first.val.toNat ms.length
  forward : ∀ m ∈ ms, ∀ r ∈ m.targets, m.id.val < r.id.val ∧ ∃ m' ∈ ms, m'.id = r.id
  fed : ∀ m ∈ ms, ∀ slot, (ms.flatMap Match.targets).count ⟨m.id, slot⟩ =
    if m.inRound .winners 1 then 0 else 1
  grandFinal : ms.countP (·.isGrandFinal) = 1
  reset : ms.countP (·.isGrandFinalReset) = 1
  next : ∀ m ∈ ms, m.next = none ↔ m.isGrandFinalReset
  loserNext : ∀ m ∈ ms, m.loserNext.isSome ↔ m.bracket = some .winners ∨ m.isGrandFinal
  rounds : ∀ i, 1 ≤ i → ms.countP (Match.inRound .losers (2 * i - 1)) = size / 2 ^ (i + 1) ∧
    ms.countP (Match.inRound .losers (2 * i)) = size / 2 ^ (i + 1)
  survivors : ∀ i, ∀ m ∈ ms, m.inRound .losers (2 * i) →
    ∃ a ∈ ms, a.inRound .losers (2 * i - 1) ∧ a.next = some ⟨m.id, .first⟩
  dropped : ∀ i, ∀ m ∈ ms, m.inRound .losers (2 * i) →
    ∃ a ∈ ms, a.inRound .winners (i + 1) ∧ a.loserNext = some ⟨m.id, .second⟩

theorem perfectFeed {slots : List (Option Player)} {k : Nat} {first : MatchId}
    {stage : Stage} {now : Place → Match}
    (h : Played (doublePlaces k) (placeMatch slots k first stage) now) (hk : 1 ≤ k)
    (hfit : first.val.toNat + (2 * 2 ^ k - 1) ≤ UInt32.size) :
    PerfectFeed (2 ^ k) first ((doublePlaces k).map now) := by
  have hsize : 2 ^ k ≤ UInt32.size := by
    have := Nat.two_pow_pos k
    omega
  have hlayout : Layout _ (placeMatch slots k first stage) _ _ := doubleLayout hk hfit
  -- what is so at one place is so of one match
  have hone : ∀ {f : Match → Bool} {x : Place}, x ∈ doublePlaces k →
      (∀ y ∈ doublePlaces k, f (now y) ↔ y = x) → ((doublePlaces k).map now).countP f = 1 := by
    intro f x hx hf
    rw [List.countP_map, ← List.count_eq_one_of_mem hlayout.nodup hx, List.count]
    exact List.countP_congr fun y hy => by simpa using hf y hy
  constructor
  case brackets => exact map_bracket_played h hk
  case ids =>
    exact (numbered_played h hk).consecutive (by rwa [List.length_map, length_doublePlaces hk])
  case forward =>
    intro m hm r hr
    obtain ⟨hlt, m', hm', hid, -⟩ := h.coherent.wired.leads m hm r hr
    exact ⟨hlt, m', hm', hid⟩
  case fed => exact List.forall_mem_map.2 fun x hx => count_targets h hk hfit hx
  case grandFinal => exact hone grandFinal_mem fun y hy => isGrandFinal_iff h hy
  case reset => exact hone reset_mem fun y hy => isGrandFinalReset_iff h hy
  case next =>
    exact List.forall_mem_map.2 fun x hx =>
      (next_eq_none_iff h hx).trans (isGrandFinalReset_iff h hx).symm
  case loserNext => exact List.forall_mem_map.2 fun x hx => loserNext_isSome_iff h hx
  case rounds =>
    intro i hi
    rw [countP_inRound h hsize (by omega), countP_inRound h hsize (by omega),
      show (2 * i - 1 + 1) / 2 = i by omega, show (2 * i + 1) / 2 = i by omega]
    exact ⟨rfl, rfl⟩
  case survivors =>
    refine fun i => List.forall_mem_map.2 fun x hx hi => ?_
    obtain ⟨⟨y, hy, hround, hnext⟩, -⟩ := feeds_of_even h hsize hx hi
    exact ⟨_, List.mem_map_of_mem hy, hround, hnext⟩
  case dropped =>
    refine fun i => List.forall_mem_map.2 fun x hx hi => ?_
    obtain ⟨-, y, hy, hround, hnext⟩ := feeds_of_even h hsize hx hi
    exact ⟨_, List.mem_map_of_mem hy, hround, hnext⟩

/-- The matches of a double elimination of distinct players feed one another perfectly, whatever the
draw. -/
theorem double_feeds {players : List Player} (draw : Draw) {first : MatchId} (stage : Stage)
    (hn : 2 ≤ players.length) (hnd : players.Nodup)
    (hfit : first.val.toNat + (2 * bracketSize players.length - 1) ≤ UInt32.size) :
    Roster.Generates players (double players draw first stage)
      (PerfectFeed (bracketSize players.length) first) := by
  refine .of_check hn hnd (fun f hf => by rw [double, hf]; rfl) fun hr => ?_
  obtain ⟨ms, hms, hc, hf, -⟩ := (double_yields draw first stage hr).exists_ok hfit
  have hk := rounds_pos players.length
  rw [doubleTree_eq_map] at hf
  obtain ⟨now, rfl, h⟩ :=
    (doubleLayout hk hfit).exists_played hc (hf.imp fun _ _ h => h.evolves)
  exact ⟨_, hms, perfectFeed h hk hfit⟩

theorem double_feeds_five : 2 ≤ ["A", "B", "C", "D", "E"].length ∧
    ["A", "B", "C", "D", "E"].Nodup ∧
    ∃ ms, double ["A", "B", "C", "D", "E"] .seeded ⟨3⟩ .main = .ok ms ∧ PerfectFeed 8 ⟨3⟩ ms := by
  have hn : 2 ≤ ["A", "B", "C", "D", "E"].length := by decide
  have hnd : ["A", "B", "C", "D", "E"].Nodup := by decide
  exact ⟨hn, hnd, (double_feeds .seeded .main hn hnd (by decide)).ok (by decide)⟩

end Elimination

end Tourney
