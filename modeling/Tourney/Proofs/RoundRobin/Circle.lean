import Tourney.Proofs.RoundRobin.Meetings

/-!
# Round robins are complete

The players sit around a table, and a pair of a round are two who face each other
(`roundPairs_eq_zip`). From one round to the next everyone but the first moves on a chair
(`seating_succ`), so round `t` sees the table after `t` moves (`seating_eq_iterate`). Every round
has as many pairs as it can, nobody is in two of them, and over all rounds every two players are
paired once (`circle`). The matches of a roster let everyone meet everyone without being called
twice in a round (`round_robin`).
-/

namespace Tourney.RoundRobin

open Arena

variable {n t : Nat}

/-! ## The table -/

theorem sitter_zero {i : Nat} (hi : i < chairs n) : sitter n 0 i = i := by
  unfold sitter
  split_ifs
  · omega
  · rw [Nat.sub_zero, Nat.add_mod_right, Nat.mod_eq_of_lt (by omega)]
    omega

/-- From one round to the next everyone but the first moves on a chair, and from the last chair to
the one beside the first. -/
theorem sitter_succ (ht : t + 1 < chairs n) {i : Nat} (hpos : 0 < i) :
    sitter n (t + 1) (if i + 1 = chairs n then 1 else i + 1) = sitter n t i := by
  split_ifs with hlast
  · rw [sitter, sitter, if_neg (by omega), if_neg (by omega),
      show i - 1 + (chairs n - 1 - t) = 1 - 1 + (chairs n - 1 - (t + 1)) + (chairs n - 1) by omega,
      Nat.add_mod_right]
  · rw [sitter, sitter, if_neg (by omega), if_neg (by omega),
      show i + 1 - 1 + (chairs n - 1 - (t + 1)) = i - 1 + (chairs n - 1 - t) by omega]

/-- The table moves on: the first player stays, the others move by a chair, and the last of them
comes to sit beside the first. -/
def moveOn {α : Type} : List α → List α
  | [] => []
  | first :: others => first :: (others.getLast?.toList ++ others.dropLast)

/-- The players in the order of their chairs. -/
def seating (n t : Nat) : List Nat := (List.range (chairs n)).map (sitter n t)

theorem seating_zero : seating n 0 = List.range (chairs n) := by
  rw [seating]
  conv_rhs => rw [← List.map_id (List.range (chairs n))]
  exact List.map_congr_left fun i hi => sitter_zero (List.mem_range.1 hi)

theorem seating_succ (ht : t + 1 < chairs n) : seating n (t + 1) = moveOn (seating n t) := by
  obtain ⟨m, hm⟩ : ∃ m, chairs n = m + 1 + 1 := ⟨chairs n - 2, by omega⟩
  have hbeside : sitter n (t + 1) 1 = sitter n t (m + 1) := by
    have h := sitter_succ ht (i := m + 1) (Nat.succ_pos m)
    rwa [if_pos hm.symm] at h
  have hmoved : ∀ i ∈ List.range m, sitter n (t + 1) (i + 1 + 1) = sitter n t (i + 1) := by
    intro i hi
    have h := sitter_succ ht (i := i + 1) (Nat.succ_pos i)
    rwa [if_neg (by have := List.mem_range.1 hi; omega)] at h
  have hbefore : seating n t = 0 ::
      ((List.range m).map (fun i => sitter n t (i + 1)) ++ [sitter n t (m + 1)]) := by
    rw [seating, hm, List.range_succ_eq_map, List.map_cons, List.map_map, List.range_succ,
      List.map_append]
    rfl
  have hafter : seating n (t + 1) = 0 :: sitter n (t + 1) 1 ::
      (List.range m).map fun i => sitter n (t + 1) (i + 1 + 1) := by
    simp [seating, hm, List.range_succ_eq_map, Function.comp_def, sitter]
  rw [hbefore, hafter, moveOn, List.getLast?_concat, List.dropLast_concat, hbeside,
    List.map_congr_left hmoved]
  rfl

theorem seating_eq_iterate (ht : t < chairs n) :
    seating n t = moveOn^[t] (List.range (chairs n)) := by
  induction t with
  | zero => exact seating_zero
  | succ t ih => rw [seating_succ ht, ih (by omega), Function.iterate_succ_apply']

theorem roundPairs_eq_zip : roundPairs n t =
    (((seating n t).zip (seating n t).reverse).take (chairs n / 2)).filter
      fun (a, b) => a < n && b < n := by
  rw [roundPairs]
  congr 1
  refine List.ext_getElem ?_ fun i _ _ => ?_
  · simp only [seating, List.length_map, List.length_range, List.length_take, List.length_zip,
      List.length_reverse]
    omega
  · simp [seating]

/-! ## The pairs -/

/-- The players of the pairs of a round. -/
def paired (round : List (Nat × Nat)) : List Nat := round.flatMap fun x => [x.1, x.2]

/-- Nobody is in two pairs of a round. -/
theorem nodup_paired (hn : 2 ≤ n) (t : Nat) : (paired (roundPairs n t)).Nodup := by
  have hc := chairs_even n
  rw [paired, List.nodup_flatMap]
  constructor
  · intro x hx
    obtain ⟨-, -, i, hi, rfl⟩ := mem_roundPairs hx
    refine List.nodup_cons.2 ⟨fun hmem => ?_, List.nodup_singleton _⟩
    have := sitter_inj hn (by omega) (by omega) (List.mem_singleton.1 hmem)
    omega
  · refine List.Pairwise.filter _ (List.pairwise_map.2 ?_)
    refine List.nodup_range.imp_of_mem fun {i j} hi hj hne => ?_
    rw [List.mem_range] at hi hj
    -- a chair of one pair is not a chair of another
    have hchairs : ∀ c ∈ [i, chairs n - 1 - i], ∀ d ∈ [j, chairs n - 1 - j],
        sitter n t c ≠ sitter n t d := fun c hc' d hd heq => by
      simp only [List.mem_cons, List.not_mem_nil, or_false] at hc' hd
      have := sitter_inj hn (by omega) (by omega) heq
      omega
    intro a ha hb
    obtain ⟨c, hc', rfl⟩ := List.mem_map.1 (show a ∈ [i, chairs n - 1 - i].map (sitter n t) from ha)
    obtain ⟨d, hd, heq⟩ := List.mem_map.1
      (show sitter n t c ∈ [j, chairs n - 1 - j].map (sitter n t) from hb)
    exact hchairs c hc' d hd heq.symm

/-- The rounds of a field in which everyone is paired with everyone. -/
structure Circle (n : Nat) (rounds : List (List (Nat × Nat))) : Prop where
  length : rounds.length = if n % 2 = 0 then n - 1 else n
  pairs : ∀ round ∈ rounds, round.length = if n % 2 = 0 then n / 2 else (n - 1) / 2
  players : ∀ round ∈ rounds, (paired round).Nodup ∧ ∀ i ∈ paired round, i < n
  meet : ∀ a < n, ∀ b < n, a ≠ b →
    rounds.flatten.countP (fun x => s(x.1, x.2) = s(a, b)) = 1

theorem circle (hn : 2 ≤ n) : Circle n (pairings n) := by
  have hround : ∀ round ∈ pairings n, ∃ t, roundPairs n t = round := fun round hr => by
    rw [pairings_eq hn, List.mem_map] at hr
    obtain ⟨t, -, ht⟩ := hr
    exact ⟨t, ht⟩
  refine ⟨?_, fun round hr => ?_, fun round hr => ?_, fun a ha b hb hne => ?_⟩
  · rw [pairings_eq hn, List.length_map, List.length_range, chairs]
    split_ifs <;> omega
  · obtain ⟨t, rfl⟩ := hround round hr
    rw [length_roundPairs hn]
    split_ifs <;> omega
  · obtain ⟨t, rfl⟩ := hround round hr
    refine ⟨nodup_paired hn t, fun i hi => ?_⟩
    obtain ⟨x, hx, hi⟩ := List.mem_flatMap.1 hi
    obtain ⟨h1, h2, -⟩ := mem_roundPairs hx
    simp only [List.mem_cons, List.not_mem_nil, or_false] at hi
    rcases hi with rfl | rfl <;> assumption
  · rw [← List.count_eq_one_of_mem (nodup_meetings hn) (mem_meetings ha hb hne), meetings_eq,
      List.count, List.countP_map]
    exact List.countP_congr fun x _ => by simp

/-! ## The matches -/

section Fixtures

variable {x : (Nat × Nat) × Nat × Nat}

/-- Fixtures of a round have no player in common. -/
theorem pairwise_fixtures (hn : 2 ≤ n) : (fixtures n).Pairwise fun x y =>
    x.2.1 = y.2.1 → List.Disjoint [x.1.1, x.1.2] [y.1.1, y.1.2] := by
  rw [fixtures, List.pairwise_flatMap]
  refine ⟨fun r hr => ?_, (pairwise_zipIdx _).imp fun {r r'} hlt x hx y hy heq => ?_⟩
  · obtain ⟨round, t⟩ := r
    have hnd := ((circle hn).players round (List.fst_mem_of_mem_zipIdx hr)).1
    have hapart := (List.nodup_flatMap.1 hnd).2
    rw [← List.zipIdx_map_fst 0 round, List.pairwise_map] at hapart
    rw [List.pairwise_map]
    refine List.Pairwise.imp ?_ hapart
    exact fun {_ _} h _ => h
  · obtain ⟨_, -, rfl⟩ := List.mem_map.1 hx
    obtain ⟨_, -, rfl⟩ := List.mem_map.1 hy
    simp only at heq
    omega

theorem round_mem_fixtures (hx : x ∈ fixtures n) :
    1 ≤ x.2.1 ∧ x.2.1 ≤ (pairings n).length := by
  obtain ⟨⟨round, t⟩, hr, hx⟩ := List.mem_flatMap.1 hx
  obtain ⟨_, -, rfl⟩ := List.mem_map.1 hx
  obtain ⟨ht, -⟩ := List.getElem?_eq_some_iff.1 (List.mk_mem_zipIdx_iff_getElem?.1 hr)
  exact ⟨Nat.le_add_left .., ht⟩

/-- There are no more rounds than matches. -/
theorem length_pairings_le (hn : 2 ≤ n) : (pairings n).length ≤ n * (n - 1) / 2 := by
  rw [(circle hn).length, Nat.le_div_iff_mul_le (by decide)]
  split_ifs with h
  · rw [Nat.mul_comm]
    exact Nat.mul_le_mul_right _ hn
  · exact Nat.mul_le_mul_left _ (by omega)

theorem toNat_round (hn : 2 ≤ n) (hfit : n * (n - 1) / 2 < UInt32.size) (hx : x ∈ fixtures n) :
    (UInt32.ofNat x.2.1).toNat = x.2.1 := by
  have hle := (round_mem_fixtures hx).2.trans (length_pairings_le hn)
  exact UInt32.toNat_ofNat_of_lt' (by omega)

end Fixtures

/-- The matches of a field in which everyone meets everyone. -/
structure AllMeet (players : List Player) (first : MatchId) (stage : Stage)
    (ms : List Match) : Prop where
  length : ms.length = players.length * (players.length - 1) / 2
  ids : ms.map (fun m => m.id.val.toNat) = List.range' first.val.toNat ms.length
  pending : ∀ m ∈ ms, m.status = .pending ∧ m.isReady ∧ m.stage = stage
  rounds : ∀ m ∈ ms, 1 ≤ m.round.toNat ∧ m.round.toNat ≤ (pairings players.length).length
  seats : ∀ m ∈ ms, ∃ p ∈ players, ∃ q ∈ players,
    p ≠ q ∧ m.player1 = some p ∧ m.player2 = some q
  meet : ∀ p ∈ players, ∀ q ∈ players, p ≠ q →
    ms.countP (fun m => m.hasPlayer p && m.hasPlayer q) = 1
  /-- Nobody is in two matches of a round. -/
  apart : ms.Pairwise fun a b => a.round = b.round → ∀ p, a.hasPlayer p → b.hasPlayer p = false

section Field

variable {entrants : List Player} {first : MatchId} {stage : Stage}

/-- Nobody is in two matches of a round. -/
theorem apart_fieldMatches (hn : 2 ≤ entrants.length) (hnd : entrants.Nodup)
    (hfit : entrants.length * (entrants.length - 1) / 2 < UInt32.size) :
    (fieldMatches entrants first stage).Pairwise fun a b =>
      a.round = b.round → ∀ p, a.hasPlayer p → b.hasPlayer p = false := by
  have happart := pairwise_fixtures hn
  rw [← List.zipIdx_map_fst 0 (fixtures entrants.length), List.pairwise_map] at happart
  refine List.pairwise_map.2 (happart.imp_of_mem fun {x y} hx hy hxy hround p hp => ?_)
  have hx := List.fst_mem_of_mem_zipIdx hx
  have hy := List.fst_mem_of_mem_zipIdx hy
  have heq : x.1.2.1 = y.1.2.1 := by
    rw [← toNat_round hn hfit hx, ← toNat_round hn hfit hy]
    exact congrArg UInt32.toNat hround
  -- a player in both would stand at one place of the field, which is in both fixtures
  have hplace : ∀ i ∈ [x.1.1.1, x.1.1.2], ∀ j ∈ [y.1.1.1, y.1.1.2],
      entrants[i]? = some p → entrants[j]? ≠ some p := fun i hi j hj hip hjp => by
    obtain ⟨hlt, hi'⟩ := List.getElem?_eq_some_iff.1 hip
    obtain ⟨hlt', hj'⟩ := List.getElem?_eq_some_iff.1 hjp
    obtain rfl := hnd.getElem_inj_iff.1 (hi'.trans hj'.symm)
    exact hxy heq hi hj
  by_contra hq
  rw [Bool.not_eq_false] at hq
  rcases Match.hasPlayer_seated.1 hp with hp | hp <;>
    rcases Match.hasPlayer_seated.1 hq with hq | hq <;>
      exact hplace _ (by simp) _ (by simp) hp hq

theorem allMeet_fieldMatches (hn : 2 ≤ entrants.length) (hnd : entrants.Nodup)
    (hfit : first.val.toNat + (fieldMatches entrants first stage).length < UInt32.size) :
    AllMeet entrants first stage (fieldMatches entrants first stage) := by
  have hlen : (fieldMatches entrants first stage).length =
      entrants.length * (entrants.length - 1) / 2 := length_fieldMatches hn
  have hsize : entrants.length * (entrants.length - 1) / 2 < UInt32.size := by omega
  have hseats : ∀ m ∈ fieldMatches entrants first stage, ∃ p ∈ entrants, ∃ q ∈ entrants,
      p ≠ q ∧ m.player1 = some p ∧ m.player2 = some q := fun m hm => by
    obtain ⟨p, q, hne, hp, hq⟩ := seats_fieldMatches hnd hm
    have hp : m.player1 = some p := congrArg Seat.player hp
    have hq : m.player2 = some q := congrArg Seat.player hq
    exact ⟨p, players_fieldMatches hm (by simp [Match.hasPlayer, hp]), q,
      players_fieldMatches hm (by simp [Match.hasPlayer, hq]), hne, hp, hq⟩
  refine ⟨hlen, numbered_fieldMatches.consecutive hfit.le, fun m hm => ?_, fun m hm => ?_, hseats,
    fun p hp q hq => countP_meet hnd hp hq, apart_fieldMatches hn hnd hsize⟩
  · obtain ⟨hstage, -, -, hu, -⟩ := mem_fieldMatches hm
    obtain ⟨p, -, q, -, -, hp, hq⟩ := hseats m hm
    exact ⟨hu.1, by simp [Match.isReady, hp, hq], hstage⟩
  · obtain ⟨x, hx, rfl⟩ := List.mem_map.1 hm
    have hx := List.fst_mem_of_mem_zipIdx hx
    change 1 ≤ (UInt32.ofNat x.1.2.1).toNat ∧ (UInt32.ofNat x.1.2.1).toNat ≤ _
    rw [toNat_round hn hsize hx]
    exact round_mem_fixtures hx

theorem AllMeet.perm {players : List Player} {ms : List Match} (h : AllMeet entrants first stage ms)
    (hp : entrants.Perm players) : AllMeet players first stage ms := by
  refine ⟨hp.length_eq ▸ h.length, h.ids, h.pending, hp.length_eq ▸ h.rounds, fun m hm => ?_,
    fun p hp' q hq' => h.meet p (hp.mem_iff.2 hp') q (hp.mem_iff.2 hq'), h.apart⟩
  obtain ⟨p, hp', q, hq', h⟩ := h.seats m hm
  exact ⟨p, hp.mem_iff.1 hp', q, hp.mem_iff.1 hq', h⟩

end Field

/-- The circle method is a round robin for any number of players, and the matches of a roster of as
many follow it, whatever the draw. -/
theorem round_robin (hn : 2 ≤ n) : Circle n (pairings n) ∧
    ∀ (players : List Player) (draw : Draw) (first : MatchId) (stage : Stage),
      players.length = n → players.Nodup →
      first.val.toNat + n * (n - 1) / 2 < UInt32.size →
      Roster.Generates players (generate players draw first stage)
        (AllMeet players first stage) := by
  refine ⟨circle hn, fun players draw first stage hlen hnd hfit => ?_⟩
  subst hlen
  refine .of_check hn hnd (fun f hf => by rw [generate, hf]; rfl) fun hr => ?_
  obtain ⟨ms, hms, rfl, hroom⟩ := (generate_yields draw first stage hr).exists_ok hfit
  have hperm := draw.perm players
  exact ⟨_, hms, (allMeet_fieldMatches (hperm.length_eq ▸ hn) (hperm.nodup_iff.2 hnd)
    hroom).perm hperm⟩

theorem round_robin_five : 2 ≤ 5 ∧ Circle 5 (pairings 5) ∧
    ∃ ms, generate ["A", "B", "C", "D", "E"] .seeded ⟨7⟩ .main = .ok ms ∧
      AllMeet ["A", "B", "C", "D", "E"] ⟨7⟩ .main ms := by
  obtain ⟨hcircle, hmatches⟩ := round_robin (n := 5) (by decide)
  exact ⟨by decide, hcircle,
    (hmatches _ _ _ _ rfl (by decide) (by decide)).ok (by decide)⟩

end Tourney.RoundRobin
