import Mathlib.Algebra.Order.BigOperators.Group.List
import Tourney.Proofs.RoundRobin.Totals

/-!
# Orders of play

The same matches in two orders give the same rows, but not always the same table. They do for every
order exactly if no two rows tie that have counted something (`play_perm_iff`): rows that tie keep
the order they had before the last match, and some last match has put either of them behind.
-/

namespace Tourney.RoundRobin

variable {players : List Player} {ms ms' : List Match} {table table' : List Row} {m : Match}
  {p q : Player}

theorem Tallied.eq_of_player (h : Tallied players ms table) (h' : Tallied players ms' table')
    (hperm : ms.Perm ms') {r r' : Row} (hr : r ∈ table) (hr' : r' ∈ table')
    (hp : r.player = r'.player) : r = r' := by
  refine Row.ext_counts hp ?_
  rw [h.counts r hr, h'.counts r' hr', hp, total_perm hperm]

theorem Tallied.subset (h : Tallied players ms table) (h' : Tallied players ms' table')
    (hperm : ms.Perm ms') : table ⊆ table' := by
  intro r hr
  obtain ⟨r', hr', hp⟩ := h'.exists_row (h.players.mem_iff.1 (List.mem_map_of_mem hr))
  exact h.eq_of_player h' hperm hr hr' hp.symm ▸ hr'

/-- Whatever the order, there is one ranked table in which only blank rows tie. -/
theorem Tallied.eq_of_decided (h : Tallied players ms table) (h' : Tallied players ms' table')
    (hnd : players.Nodup) (hperm : ms.Perm ms') (hd : Decided table) : table = table' := by
  have hnd₁ := h.players.nodup_iff.2 hnd
  have hnd₂ := h'.players.nodup_iff.2 hnd
  have hrows : table.Perm table' := (List.perm_ext_iff_of_nodup hnd₁.of_map hnd₂.of_map).2 fun r =>
    ⟨fun hr => h.subset h' hperm hr, fun hr => h'.subset h hperm.symm hr⟩
  refine RoundRobin.eq_of_decided hnd₁ hrows h.ranked h'.ranked hd ?_
  exact (hnd.perm_iff_eq_of_sublist h.blank h'.blank).1 ((hrows.filter _).map _)

/-! ## Rows that tie -/

/-- A match that two players have taken the same from has given neither anything. -/
theorem Played.worth_eq_zero {p1 p2 : Player} (h : Played m p1 p2) (hne : p ≠ q)
    (heq : worth (gain m p) = worth (gain m q)) : worth (gain m p) = 0 := by
  have hwon : worth (gain m p1) ≠ worth (gain m p2) := by
    rw [h.gain_first, h.gain_second]
    intro hc
    have hwins := congrArg (fun w => (ofLex w).1) hc
    change ((Bool.toNat _ : ℕ) : ℤ) = (Bool.toNat _ : ℕ) at hwins
    generalize (m.winner == some p1) = won at hwins
    cases won <;> simp at hwins
  by_cases hp : p = p1 ∨ p = p2
  · by_cases hq : q = p1 ∨ q = p2
    · rcases hp with rfl | rfl <;> rcases hq with rfl | rfl
      · exact absurd rfl hne
      · exact absurd heq hwon
      · exact absurd heq.symm hwon
      · exact absurd rfl hne
    · rw [not_or] at hq
      rw [heq, h.gain_other hq.1 hq.2, map_zero]
  · rw [not_or] at hp
    rw [h.gain_other hp.1 hp.2, map_zero]

theorem worth_total (ms : List Match) (p : Player) :
    worth (total ms p) = (ms.map fun m => worth (gain m p)).sum := by
  rw [total, map_list_sum, List.map_map]
  rfl

/-- Between two players who tie, some match has put either of them behind. -/
theorem exists_gain_lt (htie : worth (total ms p) = worth (total ms q))
    (hne : ∃ m ∈ ms, worth (gain m p) ≠ worth (gain m q)) :
    ∃ m ∈ ms, worth (gain m p) < worth (gain m q) := by
  by_contra hc
  push Not at hc
  obtain ⟨m, hm, hne⟩ := hne
  have hlt := List.sum_lt_sum (fun m => worth (gain m q)) (fun m => worth (gain m p)) hc
    ⟨m, hm, lt_of_le_of_ne (hc m hm) (Ne.symm hne)⟩
  rw [← worth_total, ← worth_total, htie] at hlt
  exact lt_irrefl _ hlt

/-! ## Who stands above whom -/

/-- One player stands above another. -/
def Above (p q : Player) (table : List Row) : Prop := [p, q].Sublist (table.map Row.player)

theorem above_iff : Above p q table ↔
    ∃ x y, [x, y].Sublist table ∧ x.player = p ∧ y.player = q := by
  rw [Above, List.sublist_map_iff]
  constructor
  · rintro ⟨l, hl, hpq⟩
    match l, hpq with
    | [x, y], hpq =>
      simp only [List.map_cons, List.map_nil, List.cons.injEq, and_true] at hpq
      exact ⟨x, y, hl, hpq.1.symm, hpq.2.symm⟩
  · rintro ⟨x, y, hl, rfl, rfl⟩
    exact ⟨[x, y], hl, rfl⟩

theorem above_or (hp : p ∈ table.map Row.player) (hq : q ∈ table.map Row.player) (hne : p ≠ q) :
    Above p q table ∨ Above q p table := by
  unfold Above
  generalize table.map Row.player = l at hp hq
  induction l with
  | nil => simp at hp
  | cons a l ih =>
    rcases List.mem_cons.1 hp with rfl | hp'
    · have hq' := (List.mem_cons.1 hq).resolve_left hne.symm
      exact .inl ((List.singleton_sublist.2 hq').cons_cons _)
    rcases List.mem_cons.1 hq with rfl | hq'
    · exact .inr ((List.singleton_sublist.2 hp').cons_cons _)
    · exact (ih hp' hq').imp (·.cons _) (·.cons _)

theorem Above.asymm (hnd : (table.map Row.player).Nodup) (h : Above p q table) :
    ¬Above q p table := by
  intro h'
  have hne : p ≠ q := by simpa using hnd.sublist h
  have heq : [p, q] = [q, p] := (hnd.perm_iff_eq_of_sublist h h').1 (.swap q p [])
  exact hne (List.cons.inj heq).1

/-- A better row stands above. -/
theorem Tallied.above (h : Tallied players ms table) (hp : p ∈ players) (hq : q ∈ players)
    (hlt : worth (total ms q) < worth (total ms p)) : Above p q table := by
  have hne : p ≠ q := by
    rintro rfl
    exact lt_irrefl _ hlt
  refine (above_or (h.players.mem_iff.2 hp) (h.players.mem_iff.2 hq) hne).resolve_right fun hc => ?_
  obtain ⟨y, x, hyx, rfl, rfl⟩ := above_iff.1 hc
  have hle := compare_isLE_iff.1 (List.pairwise_iff_forall_sublist.1 h.ranked hyx)
  rw [h.counts x (hyx.subset (by simp)), h.counts y (hyx.subset (by simp))] at hle
  exact not_lt_of_ge hle hlt

/-- A player who was above and has come out level is above still. -/
theorem Tallied.above_recordAndRank {p1 p2 : Player} (h : Tallied players ms table)
    (hm : Played m p1 p2) (hr : RoundRobin.recordAndRank table m = .ok table')
    (htie : worth (total (ms ++ [m]) p) = worth (total (ms ++ [m]) q)) (ha : Above p q table) :
    Above p q table' := by
  obtain ⟨rows, hrows, rfl⟩ := (recordAndRank_eq_ok hm).1 hr
  rw [Above, ← players_credited hrows, ← Above] at ha
  obtain ⟨x, y, hxy, rfl, rfl⟩ := above_iff.1 ha
  refine above_iff.2 ⟨x, y, ?_, rfl, rfl⟩
  refine List.pair_sublist_mergeSort isLE_trans isLE_total (compare_isLE_iff.2 ?_) hxy
  have hx := h.counts_credited hrows (hxy.subset (by simp : x ∈ [x, y]))
  have hy := h.counts_credited hrows (hxy.subset (by simp : y ∈ [x, y]))
  rw [hx, hy, htie]

section Last

variable (hms : ∀ m ∈ ms, ∃ p1 p2, Played m p1 p2)

include hms

/-- The last match has put a player behind who comes out level. -/
theorem exists_play_above (hroom : ∀ p ∈ players, Room (total ms p)) (hp : p ∈ players)
    (hq : q ∈ players) (htie : worth (total ms p) = worth (total ms q))
    (hlt : ∃ m ∈ ms, worth (gain m p) < worth (gain m q)) :
    ∃ ms' table', ms'.Perm ms ∧ play players ms' = .ok table' ∧ Above p q table' := by
  obtain ⟨m, hm, hlt⟩ := hlt
  have hperm : (ms.erase m ++ [m]).Perm ms :=
    (List.perm_append_singleton _ _).trans (List.perm_cons_erase hm).symm
  have hms' : ∀ a ∈ ms.erase m ++ [m], ∃ p1 p2, Played a p1 p2 :=
    fun a ha => hms a (hperm.mem_iff.1 ha)
  have hroom' : ∀ p ∈ players, Room (total (ms.erase m ++ [m]) p) := fun p hp => by
    rw [total_perm hperm]
    exact hroom p hp
  obtain ⟨table', h⟩ := (exists_play_iff hms').2 hroom'
  refine ⟨_, table', hperm, h, ?_⟩
  obtain ⟨_, _, hlast⟩ := hms m hm
  rw [play, List.foldlM_append, bind_eq_ok] at h
  obtain ⟨before, hbefore, h⟩ := h
  rw [List.foldlM_cons, bind_eq_ok] at h
  obtain ⟨_, hr, h⟩ := h
  cases h
  have ht := tallied_play (fun a ha => hms a (List.mem_of_mem_erase ha)) hbefore
  rw [← total_perm hperm, ← total_perm hperm] at htie
  refine ht.above_recordAndRank hlast hr htie (ht.above hp hq ?_)
  rw [total_append, total_append, map_add, map_add] at htie
  by_contra hc
  exact absurd htie (add_lt_add_of_le_of_lt (not_lt.1 hc) hlt).ne

/-- The order of play does not matter exactly if the table is decided. -/
theorem play_perm_iff (hnd : players.Nodup) (h : play players ms = .ok table) :
    (∀ ms', ms'.Perm ms → play players ms' = .ok table) ↔ Decided table := by
  have ht := tallied_play hms h
  have hnd' := ht.players.nodup_iff.2 hnd
  constructor
  · intro hall
    by_contra hd
    obtain ⟨x, y, hxy, htie, hblank⟩ : ∃ x y, [x, y].Sublist table ∧ x.compare y = .eq ∧
        ¬x.Blank := by
      simpa [Decided, List.pairwise_iff_forall_sublist] using hd
    have hx : x ∈ table := hxy.subset (by simp)
    have hy : y ∈ table := hxy.subset (by simp)
    have hp := ht.players.mem_iff.1 (List.mem_map_of_mem hx)
    have hq := ht.players.mem_iff.1 (List.mem_map_of_mem hy)
    have hne : x.player ≠ y.player := by simpa using hnd'.sublist (hxy.map Row.player)
    rw [compare_eq_iff, ht.counts x hx, ht.counts y hy] at htie
    rw [blank_iff, ht.counts x hx] at hblank
    have hdiff : ∃ m ∈ ms, worth (gain m x.player) ≠ worth (gain m y.player) := by
      by_contra hc
      push Not at hc
      refine hblank ?_
      rw [worth_total]
      refine List.sum_eq_zero fun w hw => ?_
      obtain ⟨m, hm, rfl⟩ := List.mem_map.1 hw
      obtain ⟨_, _, hplayed⟩ := hms m hm
      exact hplayed.worth_eq_zero hne (hc m hm)
    have hroom := (exists_play_iff hms).1 ⟨table, h⟩
    obtain ⟨ms₁, t₁, hperm₁, h₁, ha₁⟩ := exists_play_above hms hroom hp hq htie
      (exists_gain_lt htie hdiff)
    obtain ⟨ms₂, t₂, hperm₂, h₂, ha₂⟩ := exists_play_above hms hroom hq hp htie.symm
      (exists_gain_lt htie.symm (hdiff.imp fun m hm => ⟨hm.1, hm.2.symm⟩))
    rw [hall ms₁ hperm₁] at h₁
    rw [hall ms₂ hperm₂] at h₂
    cases h₁
    cases h₂
    exact ha₁.asymm hnd' ha₂
  · intro hd ms' hperm
    obtain ⟨table', h'⟩ := exists_play_of_perm hms hperm.symm h
    rw [h', ht.eq_of_decided (tallied_play (fun m hm => hms m (hperm.mem_iff.1 hm)) h') hnd
      hperm.symm hd]

end Last

end Tourney.RoundRobin
