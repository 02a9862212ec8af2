import Mathlib.Data.List.Nodup
import Mathlib.Tactic.SplitIfs
import Tourney.Proofs.Swiss.Byes
import Tourney.Proofs.Swiss.Search

/-!
# Fields that can be paired

An even field has a pairing without a rematch if any two players who have met, have met fewer
players between them than the field has (`pairable_of_counts`): two players left over either find
partners or can break up a pair to their profit. After so few rounds as a Swiss event plays, the
field is like that, and if it is odd, some player without a bye can sit out and leave it like that
(`Played.exists_choice`). Only with three or five players does it matter who.
-/

namespace Tourney.Swiss

section Matching

variable {α : Type} {met : α → α → Bool} {field rest : List α} {a b : α}

/-- All but the rest of the field is dealt out into pairs that have not met. -/
def Leaves (met : α → α → Bool) (field rest : List α) : Prop :=
  ∃ pairs, (paired pairs ++ rest).Perm field ∧ Fresh met pairs

theorem perm_two (l l' : List α) (a b : α) : (l ++ a :: b :: l').Perm (a :: b :: (l ++ l')) :=
  List.perm_middle.trans (List.perm_middle.cons a)

section Step

variable (hsymm : ∀ a ∈ field, ∀ b ∈ field, met a b = met b a)

include hsymm

theorem fresh_of_perm {pairs : List (α × α)} (h : (paired pairs ++ rest).Perm field)
    (hp : ∀ p ∈ pairs, met p.1 p.2 = false) : Fresh met pairs := by
  have hmem : ∀ {p : α × α}, p ∈ pairs → ∀ c ∈ [p.1, p.2], c ∈ field := fun hp c hc =>
    h.mem_iff.1 (List.mem_append_left _ (List.mem_flatMap.2 ⟨_, hp, hc⟩))
  exact fun p hpm => ⟨hp p hpm,
    (hsymm _ (hmem hpm p.2 (by simp)) _ (hmem hpm p.1 (by simp))).trans (hp p hpm)⟩

/-- Two of those left over who have not met are one more pair. -/
theorem Leaves.add {left : List α} (h : Leaves met field left) (hl : left.Perm (a :: b :: rest))
    (hab : met a b = false) : Leaves met field rest := by
  obtain ⟨pairs, hperm, hfresh⟩ := h
  have hall : (paired ((a, b) :: pairs) ++ rest).Perm field :=
    ((perm_two _ _ a b).symm.trans (hl.symm.append_left _)).trans hperm
  exact ⟨_, hall, fresh_of_perm hsymm hall
    (List.forall_mem_cons.2 ⟨hab, fun p hp => (hfresh p hp).1⟩)⟩

/-- Two left over can break up a pair if each has not met one of it. -/
theorem leaves_of_exchange {pairs others : List (α × α)} {u v : α}
    (hperm : (paired pairs ++ a :: b :: rest).Perm field)
    (hsplit : (paired pairs).Perm (u :: v :: paired others)) (hothers : Fresh met others)
    (hau : met a u = false) (hbv : met b v = false) : Leaves met field rest := by
  have hall : (paired ((a, u) :: (b, v) :: others) ++ rest).Perm field :=
    calc (a :: u :: b :: v :: (paired others ++ rest)).Perm
          (a :: b :: u :: v :: (paired others ++ rest)) := (List.Perm.swap b u _).cons a
      List.Perm _ (u :: v :: paired others ++ a :: b :: rest) :=
        (perm_two (u :: v :: paired others) rest a b).symm
      List.Perm _ (paired pairs ++ a :: b :: rest) := hsplit.symm.append_right _
      List.Perm _ field := hperm
  refine ⟨_, hall, fresh_of_perm hsymm hall ?_⟩
  simp only [List.forall_mem_cons]
  exact ⟨hau, hbv, fun p hp => (hothers p hp).1⟩

end Step

/-- Two players who have met everybody left over, and stand in the way of each other at every pair,
have met as many between them as there are. -/
theorem length_le_of_stuck {pairs : List (α × α)}
    (hperm : (paired pairs ++ a :: b :: rest).Perm field) (hab : met a b) (hba : met b a)
    (hrest : ∀ c ∈ rest, met a c ∧ met b c)
    (hpairs : ∀ p ∈ pairs, (met a p.1 ∨ met b p.2) ∧ (met a p.2 ∨ met b p.1)) :
    field.length ≤ field.countP (met a) + field.countP (met b) := by
  have hpaired : (paired pairs).length ≤
      (paired pairs).countP (met a) + (paired pairs).countP (met b) := by
    clear hperm
    induction pairs with
    | nil => exact Nat.zero_le _
    | cons p pairs ih =>
      obtain ⟨u, v⟩ := p
      rw [List.forall_mem_cons] at hpairs
      have := ih hpairs.2
      obtain ⟨h1 | h1, h2 | h2⟩ := hpairs.1 <;>
        simp only [paired_cons, List.length_cons, List.countP_cons, h1, h2, if_true] <;> omega
  have ha : rest.countP (met a) = rest.length := List.countP_eq_length.2 fun c hc => (hrest c hc).1
  have hb : rest.countP (met b) = rest.length := List.countP_eq_length.2 fun c hc => (hrest c hc).2
  rw [← hperm.countP_eq, ← hperm.countP_eq, ← hperm.length_eq]
  simp only [List.countP_append, List.length_append, List.length_cons, List.countP_cons, hab, hba,
    if_true, ha, hb]
  omega

section Counts

variable (hnd : field.Nodup) (hsymm : ∀ a ∈ field, ∀ b ∈ field, met a b = met b a)
  (hfew : ∀ a ∈ field, ∀ b ∈ field, a ≠ b → met a b →
    field.countP (met a) + field.countP (met b) < field.length)

include hnd hsymm hfew

/-- Where two are left over, fewer can be. -/
theorem Leaves.exists_shorter (h : Leaves met field (a :: b :: rest)) :
    ∃ left, left.length < rest.length + 2 ∧ Leaves met field left := by
  by_contra hno
  have hmet : ∀ {x y : α} {left : List α}, (a :: b :: rest).Perm (x :: y :: left) → met x y :=
    fun {x y left} hp => by
      by_contra hxy
      refine hno ⟨left, ?_, h.add hsymm hp (by simpa using hxy)⟩
      have := hp.length_eq
      simp only [List.length_cons] at this
      omega
  obtain ⟨pairs, hperm, hfresh⟩ := h
  have hrest : ∀ c ∈ rest, met a c ∧ met b c := fun c hc => by
    obtain ⟨pre, post, rfl⟩ := List.append_of_mem hc
    have hmid : ∀ x : α, (x :: (pre ++ c :: post)).Perm (c :: x :: (pre ++ post)) := fun x =>
      (List.perm_middle.cons x).trans (.swap ..)
    exact ⟨hmet ((hmid b).cons a), hmet ((List.Perm.swap ..).trans ((hmid a).cons b))⟩
  have hpairs : ∀ p ∈ pairs, (met a p.1 ∨ met b p.2) ∧ (met a p.2 ∨ met b p.1) := by
    rintro ⟨u, v⟩ hp
    obtain ⟨ps, qs, rfl⟩ := List.append_of_mem hp
    have hothers : Fresh met (ps ++ qs) := fun p hp => hfresh p (by
      rcases List.mem_append.1 hp with hp | hp <;> simp [hp])
    have hsplit := paired_middle ps qs u v
    constructor <;> by_contra hor <;> simp only [not_or, Bool.not_eq_true] at hor
    · exact hno ⟨rest, by omega, leaves_of_exchange hsymm hperm hsplit hothers hor.1 hor.2⟩
    · exact hno ⟨rest, by omega,
        leaves_of_exchange hsymm hperm (hsplit.trans (.swap ..)) hothers hor.1 hor.2⟩
  have hmem : ∀ c ∈ [a, b], c ∈ field := fun c hc => hperm.mem_iff.1 <| by
    simp only [List.mem_cons, List.not_mem_nil, or_false] at hc
    rcases hc with rfl | rfl <;> simp
  have hne : a ≠ b := by
    have := (List.nodup_append.1 (hperm.nodup_iff.2 hnd)).2.1
    simp only [List.nodup_cons, List.mem_cons, not_or] at this
    exact this.1.1
  have hab : met a b := hmet (.refl _)
  have hle := length_le_of_stuck hperm hab (hmet (.swap ..)) hrest hpairs
  have := hfew a (hmem a (by simp)) b (hmem b (by simp)) hne hab
  omega

theorem pairable_of_counts (heven : field.length % 2 = 0) : Pairable met field := by
  -- as long as anybody is left over, fewer can be left over
  have key : ∀ n, ∀ rest : List α, rest.length = n → Leaves met field rest →
      Pairable met field := by
    intro n
    induction n using Nat.strong_induction_on with
    | _ n ih =>
    rintro (_ | ⟨a, _ | ⟨b, rest⟩⟩) rfl h
    · obtain ⟨pairs, hperm, hfresh⟩ := h
      exact ⟨pairs, by simpa using hperm, hfresh⟩
    · obtain ⟨pairs, hperm, -⟩ := h
      have hlen := hperm.length_eq
      rw [List.length_append, length_paired, List.length_singleton] at hlen
      omega
    · obtain ⟨left, hlt, hleft⟩ := h.exists_shorter hnd hsymm hfew
      exact ih left.length hlt left rfl hleft
  exact key _ field rfl ⟨[], .refl _, by simp [Fresh]⟩

end Counts

end Matching

/-! ## A field after some rounds -/

/-- What the standings of a Swiss event are like once `k` rounds have been played. -/
structure Played (k : Nat) (ss : List Standing) : Prop where
  nodup : ss.Nodup
  symm : ∀ a ∈ ss, ∀ b ∈ ss, met a b = met b a
  few : ∀ a ∈ ss, ss.countP (met a) + a.byes.toNat ≤ k
  once : ∀ s ∈ ss, s.byes.toNat ≤ 1
  total : (ss.map (·.byes.toNat)).sum = k * (ss.length % 2)
  early : 2 ^ k < ss.length

/-- Two players without a bye who have met each other, but not the one who sits out. -/
structure Blocks (ss : List Standing) (s a b : Standing) : Prop where
  mem : a ∈ ss ∧ b ∈ ss
  others : a ≠ s ∧ b ≠ s
  apart : a ≠ b
  met : met a b
  unmet : Swiss.met a s = false ∧ Swiss.met b s = false
  byes : a.byes.toNat = 0 ∧ b.byes.toNat = 0

theorem two_mul_le_two_pow (k : Nat) : 2 * k ≤ 2 ^ k := by
  induction k with
  | zero => exact Nat.zero_le _
  | succ k ih =>
    have := Nat.one_le_two_pow (n := k)
    rw [Nat.pow_succ]
    omega

/-- Who has not sat out, and who has. -/
theorem countP_add_sum_byes {ss : List Standing} (h : ∀ s ∈ ss, s.byes.toNat ≤ 1) :
    ss.countP (·.byes.toNat = 0) + (ss.map (·.byes.toNat)).sum = ss.length := by
  induction ss with
  | nil => rfl
  | cons s ss ih =>
    rw [List.forall_mem_cons] at h
    have := ih h.2
    rw [List.countP_cons, List.map_cons, List.sum_cons, List.length_cons]
    rcases Nat.le_one_iff_eq_zero_or_eq_one.1 h.1 with h0 | h1
    · simp only [h0, decide_true, if_true]
      omega
    · simp only [h1, Nat.one_ne_zero, decide_false, Bool.false_eq_true, if_false]
      omega

/-- A player without a bye can be chosen to sit out. -/
theorem exists_mem_byeChoices {ss : List Standing} (hodd : ss.length % 2 = 1) {s : Standing}
    (hs : s ∈ ss) (hb : s.byes.toNat = 0) :
    ∃ rest, (some s, rest) ∈ byeChoices ss ∧ (s :: rest).Perm ss := by
  obtain ⟨i, hi, rfl⟩ := List.getElem_of_mem hs
  have hfew : fewestByes ss = 0 := by
    have := fewestByes_le hs
    omega
  have hmem : (ss[i], i) ∈ ss.zipIdx.reverse :=
    List.mem_reverse.2 (List.mk_mem_zipIdx_iff_getElem?.2 (List.getElem?_eq_getElem hi))
  refine ⟨ss.eraseIdx i, ?_, List.getElem_cons_eraseIdx_perm hi⟩
  rw [byeChoices, if_neg (by omega)]
  exact List.mem_map_of_mem (List.mem_filter.2 ⟨hmem, by simp [hb, hfew]⟩)

section Played

variable {k : Nat} {ss rest : List Standing} {s : Standing} (h : Played k ss)

include h

theorem Played.perm {ss' : List Standing} (hp : ss.Perm ss') : Played k ss' where
  nodup := hp.nodup_iff.1 h.nodup
  symm a ha b hb := h.symm a (hp.mem_iff.2 ha) b (hp.mem_iff.2 hb)
  few a ha := hp.countP_eq (met a) ▸ h.few a (hp.mem_iff.2 ha)
  once s hs := h.once s (hp.mem_iff.2 hs)
  total := by
    rw [← (hp.map _).sum_eq, ← hp.length_eq]
    exact h.total
  early := hp.length_eq ▸ h.early

theorem Played.countP_zero (hodd : ss.length % 2 = 1) :
    ss.countP (·.byes.toNat = 0) + k = ss.length := by
  rw [← countP_add_sum_byes h.once, h.total, hodd, Nat.mul_one]

/-- In a field that has played as much as it can bear, at most three have not sat out. -/
theorem Played.countP_zero_le (hlen : ss.length = 2 * k + 1) :
    ss.countP (·.byes.toNat = 0) ≤ 3 := by
  have hzero := h.countP_zero (by omega)
  have hearly := h.early
  by_contra hmany
  obtain ⟨j, rfl⟩ : ∃ j, k = j + 3 := ⟨k - 3, by omega⟩
  have := Nat.one_le_two_pow (n := j)
  have := two_mul_le_two_pow j
  rw [Nat.pow_add] at hearly
  omega

/-- If the others cannot be paired, two of them are to blame. -/
theorem Played.exists_blocks (hodd : ss.length % 2 = 1) (hp : (s :: rest).Perm ss)
    (hno : ¬Pairable met rest) : ss.length = 2 * k + 1 ∧ ∃ a b, Blocks ss s a b := by
  have hlen := hp.length_eq
  rw [List.length_cons] at hlen
  have hnd := List.nodup_cons.1 (hp.nodup_iff.2 h.nodup)
  have hmem : ∀ a ∈ rest, a ∈ ss ∧ a ≠ s := fun a ha =>
    ⟨hp.mem_iff.1 (List.mem_cons_of_mem _ ha), fun heq => hnd.1 (heq ▸ ha)⟩
  have hcount : ∀ a ∈ rest,
      rest.countP (met a) + (if met a s then 1 else 0) + a.byes.toNat ≤ k := fun a ha => by
    have := h.few a (hmem a ha).1
    rwa [← hp.countP_eq, List.countP_cons] at this
  have hunmet : ∀ a, (if met a s then 1 else 0) = 0 → met a s = false := fun a h0 => by
    simpa using h0
  by_contra hfree
  refine hno (pairable_of_counts hnd.2 (fun a ha b hb => h.symm a (hmem a ha).1 b (hmem b hb).1)
    (fun a ha b hb hne hab => ?_) (by omega))
  by_contra hmany
  have hca := hcount a ha
  have hcb := hcount b hb
  have hpow := two_mul_le_two_pow k
  have hearly := h.early
  exact hfree ⟨by omega, a, b, ⟨(hmem a ha).1, (hmem b hb).1⟩, ⟨(hmem a ha).2, (hmem b hb).2⟩, hne,
    hab, ⟨hunmet a (by omega), hunmet b (by omega)⟩, ⟨by omega, by omega⟩⟩

/-- Where three players have not sat out and no fourth can be, there is no fourth. -/
theorem Played.eq_of_byes {v x y w : Standing} (hlen : ss.length = 2 * k + 1)
    (hb : Blocks ss v x y) (hv : v ∈ ss ∧ v.byes.toNat = 0) (hw : w ∈ ss ∧ w.byes.toNat = 0)
    (hwx : w ≠ x) (hwy : w ≠ y) : w = v := by
  by_contra hwv
  have hnd : [v, x, y, w].Nodup := by
    simp [hb.apart, Ne.symm hb.others.1, Ne.symm hb.others.2, Ne.symm hwv, Ne.symm hwx,
      Ne.symm hwy]
  have hsub : [v, x, y, w] ⊆ ss.filter (·.byes.toNat = 0) := fun z hz => by
    simp only [List.mem_cons, List.not_mem_nil, or_false] at hz
    rw [List.mem_filter]
    rcases hz with rfl | rfl | rfl | rfl
    · exact ⟨hv.1, by simpa using hv.2⟩
    · exact ⟨hb.mem.1, by simpa using hb.byes.1⟩
    · exact ⟨hb.mem.2, by simpa using hb.byes.2⟩
    · exact ⟨hw.1, by simpa using hw.2⟩
  have hle := (hnd.subperm hsub).length_le
  rw [← List.countP_eq_length_filter] at hle
  exact absurd (hle.trans (h.countP_zero_le hlen)) (by simp)

/-- Some eligible player can sit out so that the others have a pairing without a rematch. -/
theorem Played.exists_choice : ∃ c ∈ byeChoices ss, Pairable met c.2 := by
  have hearly := h.early
  rcases Nat.mod_two_eq_zero_or_one ss.length with heven | hodd
  · refine ⟨(none, ss), by simp [byeChoices, heven], ?_⟩
    refine pairable_of_counts h.nodup h.symm (fun a ha b hb _ _ => ?_) heven
    have := h.few a ha
    have := h.few b hb
    have hpow := two_mul_le_two_pow k
    have hsum : ss.countP (met a) + ss.countP (met b) < ss.length := by omega
    exact hsum
  by_contra hno
  have hblocks : ∀ s ∈ ss, s.byes.toNat = 0 →
      ss.length = 2 * k + 1 ∧ ∃ a b, Blocks ss s a b := fun s hs hs0 => by
    obtain ⟨rest, hc, hp⟩ := exists_mem_byeChoices hodd hs hs0
    exact h.exists_blocks hodd hp fun hpair => hno ⟨_, hc, hpair⟩
  have hzero := h.countP_zero hodd
  have hlt : k < 2 ^ k := Nat.lt_two_pow_self
  obtain ⟨v, hv, hv0⟩ := List.countP_pos_iff.1 (show 0 < ss.countP (·.byes.toNat = 0) by omega)
  have hv0 : v.byes.toNat = 0 := by simpa using hv0
  -- if `v` cannot sit out, then because of two players `x` and `y`, but then `x` can
  obtain ⟨hlen, x, y, hxy⟩ := hblocks v hv hv0
  obtain ⟨-, a, b, hab⟩ := hblocks x hxy.mem.1 hxy.byes.1
  have hyx : met y x := (h.symm y hxy.mem.2 x hxy.mem.1).trans hxy.met
  have hy : ∀ c, met c x = false → c ≠ y := fun c hc heq => by
    rw [heq, hyx] at hc
    cases hc
  have hav := h.eq_of_byes hlen hxy ⟨hv, hv0⟩ ⟨hab.mem.1, hab.byes.1⟩ hab.others.1
    (hy a hab.unmet.1)
  have hbv := h.eq_of_byes hlen hxy ⟨hv, hv0⟩ ⟨hab.mem.2, hab.byes.2⟩ hab.others.2
    (hy b hab.unmet.2)
  exact hab.apart (hav.trans hbv.symm)

end Played

end Tourney.Swiss
