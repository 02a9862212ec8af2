import Tourney.Proofs.Arena.Flow
import Tourney.Proofs.Swiss.Standing

/-!
# Standings that tell what has been played

A standing is exact for an arena if its counters are the wins, losses and byes of the complete
matches and its opponents stand in the order of those matches (`Standing.Exact`). Folding in a
match adds just what the match says (`record_gains`), so the standings stay exact when matches are
appended (`Exact.append`) and when a match is won that comes last for its players (`Exact.won`).
-/

namespace Tourney

namespace Match

/-- Won without an opponent. -/
def byes (p : Player) (m : Match) : Nat :=
  if m.status = .complete ∧ m.winner = some p ∧ m.loser = none then 1 else 0

/-- Whom a player has met in a complete match. -/
def opponent? (p : Player) (m : Match) : Option Player :=
  if m.status = .complete then
    if m.winner = some p then m.loser else if m.loser = some p then m.winner else none
  else none

/-- Nobody has beaten himself. -/
def Fair (m : Match) : Prop := ∀ w, m.winner = some w → m.loser ≠ some w

theorem winner_isSome_of_loser {m : Match} {l : Player} (h : m.loser = some l) :
    ∃ w, m.winner = some w := by
  unfold loser winnerSlot at h
  cases hw : m.winner with
  | none => simp [hw] at h
  | some w => exact ⟨w, rfl⟩

/-- Meeting is mutual. -/
theorem opponent?_comm {m : Match} {p q : Player} :
    m.opponent? p = some q ↔ m.opponent? q = some p := by
  have key : ∀ p q, m.opponent? p = some q → m.opponent? q = some p := by
    intro p q h
    unfold opponent? at h ⊢
    split_ifs at h with hc hw hl
    · rw [if_pos hc]
      by_cases hq : m.winner = some q
      · rw [if_pos hq, h, ← hw, hq]
      · rw [if_neg hq, if_pos h, hw]
    · rw [if_pos hc, if_pos h, hl]
  exact ⟨key p q, key q p⟩

theorem opponent?_of_unresolved {m : Match} (h : m.status.isResolved = false) (p : Player) :
    m.opponent? p = none := by
  unfold opponent?
  rw [if_neg]
  rintro hc
  rw [hc] at h
  cases h

/-- A win or a loss is a bye or has an opponent. -/
theorem wins_add_loses {m : Match} (hf : m.Fair) (p : Player) :
    m.wins p + m.loses p = m.byes p + (m.opponent? p).toList.length := by
  unfold wins loses byes opponent?
  by_cases hc : m.status = .complete
  · by_cases hw : m.winner = some p
    · have hl := hf p hw
      cases hlo : m.loser <;> simp_all
    · by_cases hl : m.loser = some p
      · obtain ⟨w, hw'⟩ := winner_isSome_of_loser hl
        simp [hc, hl, hw', show w ≠ p from fun h => hw (h ▸ hw')]
      · simp [hw, hl]
  · simp [hc]

end Match

namespace Swiss

open Arena

namespace Standing

structure Exact (ms : List Match) (s : Standing) : Prop where
  wins : s.wins.toNat = (ms.map (·.wins s.player)).sum
  losses : s.losses.toNat = (ms.map (·.loses s.player)).sum
  byes : s.byes.toNat = (ms.map (·.byes s.player)).sum
  draws : s.draws = 0
  opponents : s.opponents = ms.filterMap (·.opponent? s.player)

/-- What a match adds to a standing. -/
structure Gains (m : Match) (s s' : Standing) : Prop where
  player : s'.player = s.player
  wins : s'.wins.toNat = s.wins.toNat + m.wins s.player
  losses : s'.losses.toNat = s.losses.toNat + m.loses s.player
  byes : s'.byes.toNat = s.byes.toNat + m.byes s.player
  draws : s'.draws = s.draws
  opponents : s'.opponents = s.opponents ++ (m.opponent? s.player).toList

theorem Gains.refl {m : Match} {s : Standing}
    (h : m.status = .complete → m.winner ≠ some s.player ∧ m.loser ≠ some s.player) :
    s.Gains m s := by
  by_cases hc : m.status = .complete
  · obtain ⟨hw, hl⟩ := h hc
    refine ⟨rfl, ?_, ?_, ?_, rfl, ?_⟩ <;>
      simp [Match.wins, Match.loses, Match.byes, Match.opponent?, hw, hl]
  · refine ⟨rfl, ?_, ?_, ?_, rfl, ?_⟩ <;>
      simp [Match.wins, Match.loses, Match.byes, Match.opponent?, hc]

theorem increment_eq_ok {a b : UInt32} (h : Counter.increment a = .ok b) :
    b.toNat = a.toNat + 1 := Counter.add_eq_ok.1 h

variable {m : Match} {s s' : Standing} {w l : Player}

theorem afterMatch_gains (hc : m.status = .complete) (hw : m.winner = some w)
    (hl : m.loser = some l) (hf : m.Fair) (h : s.afterMatch w l = .ok s') : s.Gains m s' := by
  have hne : l ≠ w := fun heq => hf w hw (heq ▸ hl)
  unfold afterMatch at h
  split_ifs at h with h1 h2
  · obtain ⟨wins, hwins, h⟩ := bind_eq_ok.1 h
    cases h
    refine ⟨rfl, ?_, ?_, ?_, rfl, ?_⟩
    · simp [Match.wins, hc, hw, h1, increment_eq_ok hwins]
    · simp [Match.loses, hl, h1, hne]
    · simp [Match.byes, hl]
    · simp [Match.opponent?, hc, hw, hl, h1]
  · obtain ⟨losses, hlosses, h⟩ := bind_eq_ok.1 h
    cases h
    refine ⟨rfl, ?_, ?_, ?_, rfl, ?_⟩
    · simp [Match.wins, hw, h2, hne.symm]
    · simp [Match.loses, hc, hl, h2, increment_eq_ok hlosses]
    · simp [Match.byes, hl]
    · simp [Match.opponent?, hc, hw, hl, h2, hne.symm]
  · cases h
    refine .refl fun _ => ?_
    rw [hw, hl]
    exact ⟨fun heq => h1 (Option.some.inj heq).symm, fun heq => h2 (Option.some.inj heq).symm⟩

theorem creditBye_gains (hc : m.status = .complete) (hw : m.winner = some s.player)
    (hl : m.loser = none) (h : s.creditBye = .ok s') : s.Gains m s' := by
  obtain ⟨wins, hwins, h⟩ := bind_eq_ok.1 h
  obtain ⟨byes, hbyes, h⟩ := bind_eq_ok.1 h
  cases h
  refine ⟨rfl, ?_, ?_, ?_, rfl, ?_⟩
  · simp [Match.wins, hc, hw, increment_eq_ok hwins]
  · simp [Match.loses, hl]
  · simp [Match.byes, hc, hw, hl, increment_eq_ok hbyes]
  · simp [Match.opponent?, hc, hw, hl]

end Standing

variable {m : Match} {ss ss' : List Standing}

theorem refresh_gains (h : List.Forall₂ (Standing.Gains m) ss ss') :
    List.Forall₂ (Standing.Gains m) ss (refresh ss') := by
  rw [refresh, List.forall₂_map_right_iff]
  exact h.imp fun _ _ hs => ⟨hs.player, hs.wins, hs.losses, hs.byes, hs.draws, hs.opponents⟩

theorem recordBye_gains {w : Player} (hc : m.status = .complete) (hw : m.winner = some w)
    (hl : m.loser = none) (hnd : (ss.map Standing.player).Nodup)
    (h : recordBye w ss = .ok ss') : List.Forall₂ (Standing.Gains m) ss ss' := by
  have hother : ∀ s : Standing, s.player ≠ w → s.Gains m s := fun s hs => .refl fun _ =>
    ⟨by rw [hw]; exact fun heq => hs (Option.some.inj heq).symm, by simp [hl]⟩
  induction ss generalizing ss' with
  | nil =>
    cases h
    exact .nil
  | cons s ss ih =>
    rw [List.map_cons, List.nodup_cons] at hnd
    unfold recordBye at h
    split_ifs at h with hs
    · obtain ⟨s', hs', rfl⟩ := map_eq_ok.1 h
      refine .cons (Standing.creditBye_gains hc (hs ▸ hw) hl hs') ?_
      exact List.forall₂_same.2 fun t ht => hother t fun heq =>
        hnd.1 (hs ▸ heq ▸ List.mem_map_of_mem ht)
    · obtain ⟨ss'', hss, rfl⟩ := map_eq_ok.1 h
      exact .cons (hother s hs) (ih hnd.2 hss)

/-- Folding in a match adds what the match says, and nothing else. -/
theorem record_gains (hf : m.Fair) (hnd : (ss.map Standing.player).Nodup)
    (h : record ss m = .ok ss') : List.Forall₂ (Standing.Gains m) ss ss' := by
  unfold record at h
  split at h
  · rename_i w l hc hw hl
    obtain ⟨ss₁, hss, rfl⟩ := map_eq_ok.1 h
    exact refresh_gains ((mapM_eq_ok.1 hss).imp fun _ _ hs =>
      Standing.afterMatch_gains hc hw hl hf hs)
  · rename_i w hc hw hl
    obtain ⟨ss₁, hss, rfl⟩ := map_eq_ok.1 h
    exact refresh_gains (recordBye_gains hc hw hl hnd hss)
  · rename_i hno1 hno2
    cases h
    refine List.forall₂_same.2 fun s _ => .refl fun hc => ?_
    -- a complete match that is not folded in has no winner
    have hw : m.winner = none := by
      rcases hw : m.winner with _ | w
      · rfl
      · rcases hl : m.loser with _ | l
        · exact absurd hl (hno2 w hc hw)
        · exact absurd hl (hno1 w l hc hw)
    refine ⟨by simp [hw], fun hl => ?_⟩
    obtain ⟨w, hw'⟩ := Match.winner_isSome_of_loser hl
    rw [hw] at hw'
    cases hw'

namespace Standing

variable {ms pre post : List Match} {s s' : Standing}

theorem Exact.append (h : s.Exact ms) (hg : s.Gains m s') : s'.Exact (ms ++ [m]) := by
  have hsum : ∀ f : Match → Nat, ((ms ++ [m]).map f).sum = (ms.map f).sum + f m := fun f => by
    simp
  refine ⟨?_, ?_, ?_, hg.draws.trans h.draws, ?_⟩ <;> rw [hg.player]
  · rw [hsum, hg.wins, h.wins]
  · rw [hsum, hg.losses, h.losses]
  · rw [hsum, hg.byes, h.byes]
  · rw [hg.opponents, h.opponents, List.filterMap_append]
    cases ho : m.opponent? s.player <;> simp [ho]

/-- A match that was not won yet counts for nothing. -/
theorem Exact.won {m' : Match} (h : s.Exact (pre ++ m :: post)) (hg : s.Gains m' s')
    (ho : m.status.isResolved = false)
    (hlast : m'.opponent? s.player ≠ none → ∀ b ∈ post, b.opponent? s.player = none) :
    s'.Exact (pre ++ m' :: post) := by
  have hc : m.status ≠ .complete := fun hc => by
    rw [hc] at ho
    cases ho
  have hsum : ∀ f : Match → Nat, f m = 0 →
      ((pre ++ m' :: post).map f).sum = ((pre ++ m :: post).map f).sum + f m' := fun f hf => by
    simp [hf]
    omega
  refine ⟨?_, ?_, ?_, hg.draws.trans h.draws, ?_⟩ <;> rw [hg.player]
  · rw [hsum _ (by simp [Match.wins, hc]), hg.wins, h.wins]
  · rw [hsum _ (by simp [Match.loses, hc]), hg.losses, h.losses]
  · rw [hsum _ (by simp [Match.byes, hc]), hg.byes, h.byes]
  · rw [hg.opponents, h.opponents, List.filterMap_append, List.filterMap_append,
      List.filterMap_cons_none (Match.opponent?_of_unresolved ho _)]
    rcases hm' : m'.opponent? s.player with _ | q
    · simp [hm']
    · rw [List.filterMap_cons_some hm', List.filterMap_eq_nil_iff.2 (hlast (by simp [hm']))]
      simp

end Standing

theorem players_of_gains (h : List.Forall₂ (Standing.Gains m) ss ss') :
    ss'.map Standing.player = ss.map Standing.player := by
  induction h with
  | nil => rfl
  | cons hs _ ih => rw [List.map_cons, List.map_cons, hs.player, ih]

/-- Exact standings stay exact when matches are appended and folded in. -/
theorem exact_foldlM {ms new : List Match} (hf : ∀ m ∈ new, m.Fair)
    (hnd : (ss.map Standing.player).Nodup) (h : new.foldlM record ss = .ok ss')
    (hs : ∀ s ∈ ss, s.Exact ms) :
    ss'.map Standing.player = ss.map Standing.player ∧ ∀ s ∈ ss', s.Exact (ms ++ new) := by
  induction new generalizing ms ss with
  | nil =>
    cases h
    exact ⟨rfl, by simpa using hs⟩
  | cons m new ih =>
    rw [List.forall_mem_cons] at hf
    rw [List.foldlM_cons] at h
    obtain ⟨ss₁, hrec, h⟩ := bind_eq_ok.1 h
    have hgains := record_gains hf.1 hnd hrec
    have hplayers := players_of_gains hgains
    have hexact : ∀ s' ∈ ss₁, s'.Exact (ms ++ [m]) := fun s' hs' => by
      obtain ⟨s, hmem, hg⟩ := exists_left hgains hs'
      exact (hs s hmem).append hg
    obtain ⟨hp, he⟩ := ih hf.2 (hplayers ▸ hnd) h hexact
    exact ⟨hp.trans hplayers, by simpa using he⟩

theorem sum_filter_complete {f : Match → Nat} (hf : ∀ m : Match, m.status ≠ .complete → f m = 0)
    (ms : List Match) : ((ms.filter (·.status = .complete)).map f).sum = (ms.map f).sum := by
  induction ms with
  | nil => rfl
  | cons m ms ih =>
    by_cases hc : m.status = .complete
    · rw [List.filter_cons_of_pos (by simpa using hc), List.map_cons, List.sum_cons, ih,
        List.map_cons, List.sum_cons]
    · rw [List.filter_cons_of_neg (by simpa using hc), ih, List.map_cons, List.sum_cons, hf m hc,
        Nat.zero_add]

/-- Only complete matches count. -/
theorem Standing.Exact.of_filter {ms new : List Match} {s : Standing}
    (h : s.Exact (ms ++ new.filter (·.status = .complete))) : s.Exact (ms ++ new) := by
  have hsum : ∀ f : Match → Nat, (∀ m : Match, m.status ≠ .complete → f m = 0) →
      ((ms ++ new.filter (·.status = .complete)).map f).sum = ((ms ++ new).map f).sum :=
    fun f hf => by
      rw [List.map_append, List.sum_append, sum_filter_complete hf, List.map_append,
        List.sum_append]
  refine ⟨?_, ?_, ?_, h.draws, ?_⟩
  · rw [h.wins, hsum _ fun m hm => by simp [Match.wins, hm]]
  · rw [h.losses, hsum _ fun m hm => by simp [Match.loses, hm]]
  · rw [h.byes, hsum _ fun m hm => by simp [Match.byes, hm]]
  · rw [h.opponents, List.filterMap_append, List.filterMap_append, List.filterMap_filter]
    congr 2
    funext m
    by_cases hc : m.status = .complete <;> simp [Match.opponent?, hc]

theorem exact_freshStandings (players : List Player) :
    ∀ s ∈ freshStandings players, s.Exact [] := by
  intro s hs
  obtain ⟨p, -, rfl⟩ := List.mem_map.1 hs
  exact ⟨rfl, rfl, rfl, rfl, rfl⟩

end Swiss

end Tourney
