import Tourney.Proofs.Elimination.Byes
import Tourney.Proofs.Elimination.Feeds

/-!
# The byes of a double elimination

How far byes are resolved before anybody has played. A bye of the first winners round is won and
leaves a losers seat vacant, two such seats empty a match of the first losers round, and there it
ends: in a match behind these, somebody is still to come (`status_eq_fate`). So the byes and the
empty matches can be counted (`double_byes`).
-/

namespace Tourney

theorem MatchStatus.isResolved_iff {s : MatchStatus} :
    s.isResolved ↔ s = .complete ∨ s = .skipped := by
  cases s <;> simp [isResolved]

namespace Elimination

open Arena Finset Place Seeding

/-- How the match at a place stands before anybody has played. -/
def fate (slots : List (Option Player)) : Place → MatchStatus
  | .winners r p => if r = 1 ∧ byeAt slots p then .complete else .pending
  | .minor i q =>
    if i = 1 ∧ byeAt slots (2 * q) ∧ byeAt slots (2 * q + 1) then .skipped else .pending
  | .major _ _ => .pending
  | .grandFinal => .pending
  | .reset => .pending

section Fate

variable {slots : List (Option Player)} {x : Place}

theorem fate_eq_complete_iff :
    fate slots x = .complete ↔ ∃ p, x = .winners 1 p ∧ byeAt slots p := by
  cases x with
  | winners r p => simp [fate]
  | minor i q =>
    simp only [fate]
    split_ifs <;> simp
  | major i q => simp [fate]
  | grandFinal => simp [fate]
  | reset => simp [fate]

theorem fate_eq_skipped_iff : fate slots x = .skipped ↔
    ∃ q, x = .minor 1 q ∧ byeAt slots (2 * q) ∧ byeAt slots (2 * q + 1) := by
  cases x with
  | winners r p =>
    simp only [fate]
    split_ifs <;> simp
  | minor i q => simp [fate]
  | major i q => simp [fate]
  | grandFinal => simp [fate]
  | reset => simp [fate]

theorem countP_fate_complete {k : Nat} :
    (doublePlaces (k + 1)).countP (fun x => fate slots x = .complete) =
      (List.range (2 ^ k)).countP (byeAt slots) := by
  rw [countP_eq_sum, sum_doublePlaces, sum_range_succ', ← sum_range_ite]
  simp [fate_eq_complete_iff]

theorem countP_fate_skipped {k : Nat} :
    (doublePlaces (k + 1 + 1)).countP (fun x => fate slots x = .skipped) =
      (List.range (2 ^ k)).countP fun q => byeAt slots (2 * q) && byeAt slots (2 * q + 1) := by
  rw [countP_eq_sum, sum_doublePlaces, Nat.add_sub_cancel, sum_range_succ' _ k, ← sum_range_ite]
  simp [fate_eq_skipped_iff]

theorem countP_fate_empty {entrants : List Player} {k : Nat} (hn : 2 ≤ entrants.length)
    (hk : rounds entrants.length = k + 1) :
    (doublePlaces (k + 1)).countP (fun x => fate (bracketSlots entrants) x = .skipped) =
      3 * 2 ^ (k + 1) / 4 - entrants.length := by
  cases k with
  | zero =>
    have hnobody : (doublePlaces (0 + 1)).countP
        (fun x => fate (bracketSlots entrants) x = .skipped) = 0 := by
      refine List.countP_eq_zero.2 fun x hx hs => ?_
      obtain ⟨q, rfl, -⟩ := fate_eq_skipped_iff.1 (of_decide_eq_true hs)
      have := minor_mem.1 hx
      omega
    rw [hnobody]
    omega
  | succ k =>
    rw [countP_fate_skipped, countP_byeAt_pair hn hk]
    omega

end Fate

/-! ## Place by place -/

section Opened

variable {slots : List (Option Player)} {k : Nat} {first : MatchId} {stage : Stage}
  {now : Place → Match} {x : Place} {s : Slot} (hk : 1 ≤ k)
  (h : Opened (doublePlaces k) (placeMatch slots k first stage) now)

include hk h

/-- A seat waits for the match that feeds it. -/
theorem seat_of_source (hx : x ∈ doublePlaces k) (hroot : ∀ p, x ≠ .winners 1 p)
    (ho : (now (source k (x, s))).status.isResolved = false) : (now x).seat s = {} := by
  obtain ⟨hmem, hfed⟩ := fed_of_source hk hx s hroot
  obtain ⟨o, hl⟩ := Match.exists_mem_outputs (mem_targets h.toPlayed hmem hfed hx)
  rw [h.coherent.seat_eq (List.mem_map_of_mem hmem) (List.mem_map_of_mem hx) hl rfl]
  exact Match.outputs_of_unresolved ho hl

theorem pending_of_source (hx : x ∈ doublePlaces k) (hroot : ∀ p, x ≠ .winners 1 p) (s : Slot)
    (hp : (now (source k (x, s))).status = .pending) : (now x).status = .pending :=
  ((h.atRest hx).unsettled (seat_of_source hk h hx hroot (s := s) (by rw [hp]; rfl))).1

/-- Two byes meet in an empty match, and nobody comes out of it. -/
theorem passed_minor {q : Nat} (hx : Place.minor 1 q ∈ doublePlaces k)
    (hs : (now (.minor 1 q)).status = .skipped) :
    Place.major 1 q ∈ doublePlaces k ∧
      (now (.minor 1 q)).next = some ⟨(now (.major 1 q)).id, .first⟩ ∧
      (now (.major 1 q)).seat .first = .settled none := by
  have hmem := (leads_minor hx).1
  refine ⟨hmem, ?_, ?_⟩
  · rw [h.next_eq hx, placeMatch_next, h.id_eq hmem]
    rfl
  · rw [seat_of_next h.toPlayed hk hx (l := (.major 1 q, .first)) rfl, Match.sends, hs]

variable (hroot : ∀ p < 2 ^ (k - 1), ∃ x, slots[2 * p]? = some (some x))

include hroot

theorem status_winners {r p : Nat} (hx : Place.winners r p ∈ doublePlaces k) :
    (now (.winners r p)).status = fate slots (.winners r p) := by
  obtain ⟨hr, hrk, hp⟩ := winners_mem.1 hx
  exact (ladder h.toPlayed hk).status_eq hroot hr hrk hp (h.untouched _ hx)

theorem status_major {i q : Nat} (hx : Place.major i q ∈ doublePlaces k) :
    (now (.major i q)).status = .pending := by
  have hmem := (fed_of_source hk hx .second nofun).1
  refine pending_of_source hk h hx nofun .second ?_
  have hi := (major_mem.1 hx).1
  exact (status_winners hk h hroot hmem).trans (if_neg fun hc => by omega)

/-- In the first losers round the byes of the winners leave seats vacant. -/
theorem seat_minor_one {q : Nat} (hx : Place.minor 1 q ∈ doublePlaces k) (s : Slot) :
    (now (.minor 1 q)).seat s =
      if byeAt slots (2 * q + Slot.number s) then .settled none else {} := by
  have hone := (minor_mem.1 hx).2.1
  have hmem : Place.winners 1 (2 * q + Slot.number s) ∈ doublePlaces k :=
    (fed_of_source hk hx s nofun).1
  have hdrop := seat_of_drop h.toPlayed hk hmem (l := (.minor 1 q, s)) (by
    simp [feeds, drop, show k ≠ 1 by omega, double_div, ofPosition_double])
  rw [hdrop, (h.untouched _ hmem).sends_dropped, status_winners hk h hroot hmem]
  by_cases hb : byeAt slots (2 * q + Slot.number s) <;> simp [fate, hb, MatchStatus.isResolved]

theorem status_minor {i q : Nat} (hx : Place.minor i q ∈ doublePlaces k) :
    (now (.minor i q)).status = fate slots (.minor i q) := by
  by_cases hi : i = 1
  · subst hi
    have hfirst : (now (.minor 1 q)).seat .first = if byeAt slots (2 * q) then .settled none
      else {} := seat_minor_one hk h hroot hx .first
    have hsecond : (now (.minor 1 q)).seat .second = if byeAt slots (2 * q + 1) then .settled none
      else {} := seat_minor_one hk h hroot hx .second
    simp only [fate, true_and]
    split_ifs with hb
    · rw [if_pos hb.1] at hfirst
      rw [if_pos hb.2] at hsecond
      exact (h.untouched _ hx).skipped_iff.2 (forall_slot.2 ⟨hfirst, hsecond⟩)
    · rcases not_and_or.1 hb with hb | hb
      · rw [if_neg hb] at hfirst
        exact ((h.atRest hx).unsettled hfirst).1
      · rw [if_neg hb] at hsecond
        exact ((h.atRest hx).unsettled hsecond).1
  · have hsource : source k (.minor i q, .first) = .major (i - 1) (2 * q) := if_neg hi
    have hmem := (fed_of_source hk hx .first nofun).1
    rw [hsource] at hmem
    rw [show fate slots (.minor i q) = .pending from if_neg fun hc => hi hc.1]
    refine pending_of_source hk h hx nofun .first ?_
    rw [hsource]
    exact status_major hk h hroot hmem

variable (hone : ∀ p < 2 ^ (k - 1), byeAt slots p → 1 < k)

include hone

theorem status_eq_fate (hx : x ∈ doublePlaces k) : (now x).status = fate slots x := by
  have hgrand : (now .grandFinal).status = .pending := by
    have hmem := (fed_of_source (k := k) hk grandFinal_mem .first nofun).1
    refine pending_of_source hk h grandFinal_mem nofun .first ?_
    refine (status_winners hk h hroot hmem).trans (if_neg fun ⟨hlast, hb⟩ => ?_)
    have := hone 0 (Nat.two_pow_pos _) hb
    omega
  cases x with
  | winners r p => exact status_winners hk h hroot hx
  | minor i q => exact status_minor hk h hroot hx
  | major i q => exact status_major hk h hroot hx
  | grandFinal => exact hgrand
  | reset => exact pending_of_source hk h hx nofun .first hgrand

theorem countP_status (f : MatchStatus → Bool) : ((doublePlaces k).map now).countP (f ·.status) =
    (doublePlaces k).countP fun x => f (fate slots x) := by
  rw [List.countP_map]
  exact List.countP_congr fun x hx => by
    rw [Function.comp, status_eq_fate hk h hroot hone hx]

/-- A match is empty exactly if byes would have sent it both of its losers. -/
theorem skipped_iff_byes (hx : x ∈ doublePlaces k) : (now x).status = .skipped ↔
    ∀ slot, ∃ y ∈ doublePlaces k, (now y).status = .complete ∧
      (now y).loserNext = some ⟨(now x).id, slot⟩ := by
  refine ⟨fun hs slot => ?_, fun hbyes => (h.untouched x hx).skipped_iff.2 fun slot => ?_⟩
  · rw [status_eq_fate hk h hroot hone hx] at hs
    obtain ⟨q, rfl, hfirst, hsecond⟩ := fate_eq_skipped_iff.1 hs
    have hb : byeAt slots (2 * q + Slot.number slot) := by
      cases slot
      · exact hfirst
      · exact hsecond
    have hmem : Place.winners 1 (2 * q + Slot.number slot) ∈ doublePlaces k :=
      (fed_of_source hk hx slot nofun).1
    refine ⟨_, hmem, ?_, ?_⟩
    · rw [status_eq_fate hk h hroot hone hmem]
      exact fate_eq_complete_iff.2 ⟨_, rfl, hb⟩
    · have hlosers := (minor_mem.1 hx).2.1
      rw [Match.outline_loserNext (h.evolves _ hmem).outline, placeMatch_loserNext, h.id_eq hx]
      simp [feeds, drop, seatRef, show k ≠ 1 by omega, double_div, ofPosition_double]
  · obtain ⟨y, hy, hc, hnext⟩ := hbyes slot
    have hl : (⟨(now x).id, slot⟩, (now y).sends (now y).dropped) ∈ (now y).outputs := by
      simp [Match.outputs, hnext]
    rw [h.coherent.seat_eq (List.mem_map_of_mem hy) (List.mem_map_of_mem hx) hl rfl,
      (h.untouched y hy).sends_dropped, hc]
    rfl

/-- Of the seats of the losers bracket those are vacant whose match upstream needs no play. -/
theorem vacant_iff (hx : x ∈ doublePlaces k) (hl : x.bracket = .losers) (s : Slot) :
    ((now x).seat s).vacant ↔ (now (source k (x, s))).status.isResolved := by
  have hne : ∀ p, x ≠ .winners 1 p := by
    rintro p rfl
    cases hl
  obtain ⟨hmem, hfed⟩ := fed_of_source hk hx s hne
  by_cases ho : (now (source k (x, s))).status.isResolved
  · refine iff_of_true ?_ ho
    generalize source k (x, s) = y at hmem hfed ho
    have hstatus := status_eq_fate hk h hroot hone hmem
    have hfate := ho
    rw [hstatus, MatchStatus.isResolved_iff, fate_eq_complete_iff] at hfate
    rcases hfate with ⟨p, rfl, -⟩ | hskipped
    · -- the winner of a bye stays with the winners
      have hdrop : (x, s) = drop k 1 p := by
        refine (List.mem_cons.1 hfed).elim (fun hnext => ?_) List.mem_singleton.1
        split_ifs at hnext <;> cases hnext <;> cases hl
      rw [seat_of_drop h.toPlayed hk hmem (l := (x, s)) (by rw [hdrop]; rfl),
        (h.untouched _ hmem).sends_dropped, if_pos ho]
      rfl
    · obtain ⟨q, rfl, -⟩ := fate_eq_skipped_iff.1 hskipped
      obtain ⟨rfl, rfl⟩ := Prod.mk.inj (List.mem_singleton.1 hfed)
      rw [seat_of_next h.toPlayed hk hmem (l := (.major 1 q, .first)) rfl, Match.sends,
        hstatus.trans hskipped]
      rfl
  · refine iff_of_false ?_ ho
    rw [seat_of_source hk h hx hne (by simpa using ho)]
    exact Bool.false_ne_true

/-- A bye sends its player on to the second winners round. -/
theorem advanced_winners {p : Nat} (hx : Place.winners 1 p ∈ doublePlaces k)
    (hc : (now (.winners 1 p)).status = .complete) :
    ∃ w, (now (.winners 1 p)).winner = some w ∧ (∀ q, (now (.winners 1 p)).hasPlayer q ↔ q = w) ∧
      Place.winners 2 (p / 2) ∈ doublePlaces k ∧
      (now (.winners 1 p)).next = some ⟨(now (.winners 2 (p / 2))).id, .ofPosition p⟩ ∧
      (now (.winners 2 (p / 2))).seat (.ofPosition p) = .settled (some w) := by
  have hp := (winners_mem.1 hx).2.2
  have hb := (h.untouched _ hx).complete_iff.1 hc
  have hlt := hone p hp (by rw [← (ladder h.toPlayed hk).isBye_eq hroot hp, hb])
  obtain ⟨w, hw, hall, hseat⟩ := (ladder h.toPlayed hk).advances hlt hp (h.untouched _ hx) hb
  have hfeeds : (feeds k (.winners 1 p)).head? = some (.winners 2 (p / 2), .ofPosition p) := by
    simp [feeds, hlt]
  have hmem : Place.winners 2 (p / 2) ∈ doublePlaces k :=
    (leads_of_feeds hk hx (List.mem_of_mem_head? hfeeds)).1
  refine ⟨w, hw, hall, hmem, ?_, hseat⟩
  rw [h.next_eq hx, placeMatch_next, hfeeds, h.id_eq hmem]
  rfl

end Opened

/-- The byes of `n` players in a double elimination of so many slots, before the first result. -/
structure ByesResolved (size n : Nat) (ms : List Match) : Prop where
  byes : ms.countP (·.status = .complete) = size - n
  complete : ∀ m ∈ ms, m.status = .complete ↔ m.inRound .winners 1 ∧ m.isBye
  advanced : ∀ m ∈ ms, m.status = .complete → ∃ p, m.winner = some p ∧
    (∀ q, m.hasPlayer q ↔ q = p) ∧ ∃ a ∈ ms, a.inRound .winners 2 ∧
      ∃ slot, m.next = some ⟨a.id, slot⟩ ∧ a.seat slot = .settled (some p)
  skips : ms.countP (·.status = .skipped) = 3 * size / 4 - n
  inLosers : ∀ m ∈ ms, m.status = .skipped → m.inRound .losers 1
  skipped : ∀ m ∈ ms, m.status = .skipped ↔
    ∀ slot, ∃ b ∈ ms, b.status = .complete ∧ b.loserNext = some ⟨m.id, slot⟩
  passed : ∀ m ∈ ms, m.status = .skipped →
    ∃ a ∈ ms, ∃ slot, m.next = some ⟨a.id, slot⟩ ∧ a.seat slot = .settled none
  pending : ∀ m ∈ ms, m.status ≠ .complete → m.status ≠ .skipped → m.status = .pending
  vacant : ∀ m ∈ ms, m.bracket = some .losers → ∀ slot, (m.seat slot).vacant ↔
    ∃ a ∈ ms, (a.status = .complete ∨ a.status = .skipped) ∧ ⟨m.id, slot⟩ ∈ a.targets

theorem byesResolved {entrants : List Player} {k : Nat} {first : MatchId} {stage : Stage}
    {now : Place → Match} (hn : 2 ≤ entrants.length) (hk : rounds entrants.length = k + 1)
    (h : Opened (doublePlaces (k + 1))
      (placeMatch (bracketSlots entrants) (k + 1) first stage) now)
    (hfit : 2 ^ (k + 1) ≤ UInt32.size) :
    ByesResolved (2 ^ (k + 1)) entrants.length ((doublePlaces (k + 1)).map now) := by
  have hpos : 1 ≤ k + 1 := Nat.le_add_left 1 k
  have hroot := bracketSlots_even hn
  have hone : ∀ p < 2 ^ (rounds entrants.length - 1), byeAt (bracketSlots entrants) p →
      1 < rounds entrants.length := fun p hp => one_lt_rounds_of_byeAt hn hp
  rw [hk] at hroot hone
  have hstatus : ∀ x ∈ doublePlaces (k + 1), (now x).status = fate (bracketSlots entrants) x :=
    fun x hx => status_eq_fate hpos h hroot hone hx
  have hround := fun x hx => inRound_eq h.toPlayed hfit (x := x) hx
  constructor
  case byes =>
    rw [countP_status hpos h hroot hone fun s => s = .complete, countP_fate_complete,
      countP_byeAt hn hk]
  case complete =>
    refine List.forall_mem_map.2 fun x hx => ?_
    rw [(h.untouched x hx).complete_iff, and_iff_right_of_imp]
    intro hb
    have hc := (hstatus x hx).symm.trans ((h.untouched x hx).complete_iff.2 hb)
    obtain ⟨p, rfl, -⟩ := fate_eq_complete_iff.1 hc
    rw [hround _ hx]
    rfl
  case advanced =>
    refine List.forall_mem_map.2 fun x hx hc => ?_
    obtain ⟨p, rfl, -⟩ := fate_eq_complete_iff.1 ((hstatus x hx).symm.trans hc)
    obtain ⟨w, hw, hall, hmem, hnext, hseat⟩ := advanced_winners hpos h hroot hone hx hc
    refine ⟨w, hw, hall, _, List.mem_map_of_mem hmem, ?_, _, hnext, hseat⟩
    rw [hround _ hmem]
    rfl
  case skips =>
    rw [countP_status hpos h hroot hone fun s => s = .skipped, countP_fate_empty hn hk]
  case inLosers =>
    refine List.forall_mem_map.2 fun x hx hs => ?_
    obtain ⟨q, rfl, -⟩ := fate_eq_skipped_iff.1 ((hstatus x hx).symm.trans hs)
    rw [hround _ hx]
    rfl
  case skipped =>
    refine List.forall_mem_map.2 fun x hx => ?_
    simpa using skipped_iff_byes hpos h hroot hone hx
  case passed =>
    refine List.forall_mem_map.2 fun x hx hs => ?_
    obtain ⟨q, rfl, -⟩ := fate_eq_skipped_iff.1 ((hstatus x hx).symm.trans hs)
    obtain ⟨hmem, hnext, hseat⟩ := passed_minor hpos h hx hs
    exact ⟨_, List.mem_map_of_mem hmem, _, hnext, hseat⟩
  case pending =>
    refine List.forall_mem_map.2 fun x hx hc hs => ?_
    rcases (h.untouched x hx).cases with ⟨-, -, hc', -⟩ | ⟨-, -, hs'⟩ | ⟨-, -, hp⟩
    · exact absurd hc' hc
    · exact absurd hs' hs
    · exact hp
  case vacant =>
    refine List.forall_mem_map.2 fun x hx hl slot => ?_
    rw [bracket_eq h.toPlayed hx, Option.some.injEq] at hl
    obtain ⟨hmem, hfed⟩ := fed_of_source hpos hx slot fun p hp => by
      rw [hp] at hl
      cases hl
    have htarget := mem_targets h.toPlayed hmem hfed hx
    rw [vacant_iff hpos h hroot hone hx hl, MatchStatus.isResolved_iff]
    constructor
    · exact fun hs => ⟨_, List.mem_map_of_mem hmem, hs, htarget⟩
    · rintro ⟨a, ha, hs, ht⟩
      rwa [h.coherent.wired.eq_of_target (List.mem_map_of_mem hmem) ha htarget ht]

/-- Generating a double elimination of distinct players resolves the byes, whatever the draw, and
leaves every other match to be played. -/
theorem double_byes {players : List Player} (draw : Draw) {first : MatchId} (stage : Stage)
    (hn : 2 ≤ players.length) (hnd : players.Nodup)
    (hfit : first.val.toNat + (2 * bracketSize players.length - 1) ≤ UInt32.size) :
    Roster.Generates players (double players draw first stage)
      (ByesResolved (bracketSize players.length) players.length) := by
  refine .of_check hn hnd (fun f hf => by rw [double, hf]; rfl) fun hr => ?_
  obtain ⟨ms, hms, hc, hf, -⟩ := (double_yields draw first stage hr).exists_ok hfit
  have hlen : (draw.order players).length = players.length := (draw.perm players).length_eq
  obtain ⟨k, hk⟩ : ∃ k, rounds players.length = k + 1 := ⟨_, rfl⟩
  rw [bracketSize, hk] at hfit ⊢
  rw [hk, doubleTree_eq_map] at hf
  have hpos := Nat.two_pow_pos (k + 1)
  obtain ⟨now, rfl, h⟩ := (doubleLayout (Nat.le_add_left 1 k) hfit).exists_opened hc hf
  rw [← hlen] at hn hk ⊢
  exact ⟨_, hms, byesResolved hn hk h (by omega)⟩

theorem double_byes_five : 2 ≤ ["A", "B", "C", "D", "E"].length ∧
    ["A", "B", "C", "D", "E"].Nodup ∧
    ∃ ms, double ["A", "B", "C", "D", "E"] .seeded ⟨3⟩ .main = .ok ms ∧ ByesResolved 8 5 ms := by
  have hn : 2 ≤ ["A", "B", "C", "D", "E"].length := by decide
  have hnd : ["A", "B", "C", "D", "E"].Nodup := by decide
  exact ⟨hn, hnd, (double_byes .seeded .main hn hnd (by decide)).ok (by decide)⟩

end Elimination

end Tourney
