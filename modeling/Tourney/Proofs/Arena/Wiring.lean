import Mathlib.Data.List.Nodup
import Mathlib.Data.List.Pairwise
import Tourney.Arena.Propagation

/-!
# The wiring of an arena

What never changes while results come in: the ids, which grow along the list, and the pointers,
which lead to later matches of the same stage and never two to one seat. `Match.outline` keeps
this part of a match and forgets the rest, so `Wired` is a statement about outlines
(`Wired.of_outlines`).
-/

namespace Tourney

namespace Match

/-- The part of a match that play does not change. -/
def outline (m : Match) : Match :=
  { m with
    seat1 := {}, seat2 := {}, figures := {}, status := .pending, device := none, winner := none }

/-- The seats a match sends players to. -/
def targets (m : Match) : List SeatRef := m.next.toList ++ m.loserNext.toList

theorem outline_id {m m' : Match} (h : m'.outline = m.outline) : m'.id = m.id := by
  change m'.outline.id = m.outline.id
  rw [h]

theorem outline_stage {m m' : Match} (h : m'.outline = m.outline) : m'.stage = m.stage := by
  change m'.outline.stage = m.outline.stage
  rw [h]

theorem outline_round {m m' : Match} (h : m'.outline = m.outline) : m'.round = m.round := by
  change m'.outline.round = m.outline.round
  rw [h]

theorem outline_position {m m' : Match} (h : m'.outline = m.outline) :
    m'.position = m.position := by
  change m'.outline.position = m.outline.position
  rw [h]

theorem outline_next {m m' : Match} (h : m'.outline = m.outline) : m'.next = m.next := by
  change m'.outline.next = m.outline.next
  rw [h]

theorem outline_loserNext {m m' : Match} (h : m'.outline = m.outline) :
    m'.loserNext = m.loserNext := by
  change m'.outline.loserNext = m.outline.loserNext
  rw [h]

theorem outline_isGrandFinal {m m' : Match} (h : m'.outline = m.outline) :
    m'.isGrandFinal = m.isGrandFinal := by
  change m'.outline.isGrandFinal = m.outline.isGrandFinal
  rw [h]

theorem outline_isGrandFinalReset {m m' : Match} (h : m'.outline = m.outline) :
    m'.isGrandFinalReset = m.isGrandFinalReset := by
  change m'.outline.isGrandFinalReset = m.outline.isGrandFinalReset
  rw [h]

theorem outline_bracket {m m' : Match} (h : m'.outline = m.outline) :
    m'.bracket = m.bracket := by
  change m'.outline.bracket = m.outline.bracket
  rw [h]

theorem outline_targets {m m' : Match} (h : m'.outline = m.outline) : m'.targets = m.targets := by
  change m'.outline.targets = m.outline.targets
  rw [h]

theorem id_withOutcome (o : Outcome) (m : Match) : (m.withOutcome o).id = m.id := rfl

theorem outline_withOutcome (m : Match) (o : Outcome) : (m.withOutcome o).outline = m.outline :=
  rfl

theorem outline_setSeat (m : Match) (slot : Slot) (s : Seat) :
    (m.setSeat slot s).outline = m.outline := by
  cases slot <;> rfl

theorem seat_setSeat (m : Match) (slot slot' : Slot) (s : Seat) :
    (m.setSeat slot s).seat slot' = if slot' = slot then s else m.seat slot' := by
  cases slot <;> cases slot' <;> rfl

end Match

namespace Arena

/-! ## Looking up and changing matches -/

/-- Ids grow along the list. -/
def Ordered (ms : List Match) : Prop := ms.Pairwise fun a b => a.id.val < b.id.val

theorem Ordered.nodup {ms : List Match} (h : Ordered ms) : (ms.map (·.id)).Nodup := by
  rw [List.nodup_iff_pairwise_ne, List.pairwise_map]
  refine h.imp fun {a b} hlt hid => ?_
  rw [hid] at hlt
  exact UInt32.lt_irrefl _ hlt

theorem Ordered.eq_of_id_eq {ms : List Match} (h : Ordered ms) {m m' : Match} (hm : m ∈ ms)
    (hm' : m' ∈ ms) (hid : m.id = m'.id) : m = m' :=
  List.inj_on_of_nodup_map h.nodup hm hm' hid

theorem mem_of_find? {ms : List Match} {id : MatchId} {m : Match} (h : find? ms id = some m) :
    m ∈ ms ∧ m.id = id :=
  ⟨List.mem_of_find?_eq_some h, by simpa using List.find?_some h⟩

theorem Ordered.find? {ms : List Match} (h : Ordered ms) {m : Match} (hm : m ∈ ms) :
    Arena.find? ms m.id = some m := by
  rcases hf : Arena.find? ms m.id with _ | m'
  · simp only [Arena.find?, List.find?_eq_none, decide_eq_true_eq] at hf
    exact absurd rfl (hf m hm)
  · obtain ⟨hm', hid⟩ := mem_of_find? hf
    rw [h.eq_of_id_eq hm' hm hid]

/-- A match parts the arena into what is before and what is after it. -/
theorem exists_split {ms : List Match} {id : MatchId} {m : Match} (hm : find? ms id = some m) :
    ∃ pre post, ms = pre ++ m :: post ∧ ∀ f, modify id f ms = pre ++ f m :: post := by
  induction ms with
  | nil => simp [find?] at hm
  | cons a ms ih =>
    by_cases hid : a.id = id
    · subst hid
      rw [find?_cons_self] at hm
      cases hm
      exact ⟨[], ms, rfl, fun f => by simp [modify]⟩
    · rw [find?_cons_ne hid] at hm
      obtain ⟨pre, post, rfl, hmod⟩ := ih hm
      exact ⟨a :: pre, post, rfl, fun f => by simp [modify, hid, hmod f]⟩

section Modify

variable {id id' : MatchId} {f f' : Match → Match}

theorem find?_modify_self (hf : ∀ m, (f m).id = m.id) (ms : List Match) :
    Arena.find? (modify id f ms) id = (Arena.find? ms id).map f := by
  induction ms with
  | nil => rfl
  | cons m ms ih =>
    by_cases hid : m.id = id
    · subst hid
      rw [modify, if_pos rfl, find?_cons_self, ← hf m, find?_cons_self]
      rfl
    · rw [modify, if_neg hid, find?_cons_ne hid, find?_cons_ne hid, ih]

theorem find?_modify_ne (hf : ∀ m, (f m).id = m.id) (hne : id ≠ id') (ms : List Match) :
    Arena.find? (modify id f ms) id' = Arena.find? ms id' := by
  induction ms with
  | nil => rfl
  | cons m ms ih =>
    by_cases hid : m.id = id
    · subst hid
      rw [modify, if_pos rfl, find?_cons_ne hne, find?_cons_ne ((hf m).symm ▸ hne)]
    · rw [modify, if_neg hid]
      by_cases hid' : m.id = id'
      · subst hid'
        rw [find?_cons_self, find?_cons_self]
      · rw [find?_cons_ne hid', find?_cons_ne hid', ih]

/-- Changes to different matches can be made in either order. -/
theorem modify_comm (hf : ∀ m, (f m).id = m.id) (hf' : ∀ m, (f' m).id = m.id) (hne : id ≠ id')
    (ms : List Match) : modify id f (modify id' f' ms) = modify id' f' (modify id f ms) := by
  induction ms with
  | nil => rfl
  | cons m ms ih =>
    by_cases hid : m.id = id
    · subst hid
      simp only [modify, hf, hne, if_true, if_false]
    · by_cases hid' : m.id = id'
      · subst hid'
        simp only [modify, hf', hid, if_true, if_false]
      · simp only [modify, hid, hid', if_false, ih]

end Modify

/-- Among distinct ids, changing the first match of an id changes every match of that id. -/
theorem Ordered.modify_eq_map {ms : List Match} (h : Ordered ms) (id : MatchId)
    (f : Match → Match) : modify id f ms = ms.map fun m => if m.id = id then f m else m := by
  induction ms with
  | nil => rfl
  | cons m ms ih =>
    obtain ⟨hm, hms⟩ := List.pairwise_cons.1 h
    by_cases hid : m.id = id
    · have hrest : ms.map (fun m => if m.id = id then f m else m) = ms := by
        rw [List.map_congr_left (g := fun m => m), List.map_id']
        intro b hb
        have hlt := hm b hb
        rw [if_neg]
        rintro rfl
        rw [hid] at hlt
        exact UInt32.lt_irrefl _ hlt
      simp only [modify, hid, if_true, List.map_cons, hrest]
    · simp only [modify, hid, if_false, List.map_cons, ih hms]

/-- Who stands in an arena once one match has changed. -/
theorem Ordered.mem_modify {ms : List Match} (h : Ordered ms) {m : Match} (hm : m ∈ ms)
    {f : Match → Match} {a : Match} :
    a ∈ modify m.id f ms ↔ a = f m ∨ a ∈ ms ∧ a.id ≠ m.id := by
  rw [h.modify_eq_map, List.mem_map]
  constructor
  · rintro ⟨b, hb, rfl⟩
    split_ifs with hid
    · rw [h.eq_of_id_eq hb hm hid]
      exact .inl rfl
    · exact .inr ⟨hb, hid⟩
  · rintro (rfl | ⟨ha, hid⟩)
    · exact ⟨m, hm, if_pos rfl⟩
    · exact ⟨a, ha, if_neg hid⟩

theorem map_outline_modify {ms : List Match} {id : MatchId} {f : Match → Match}
    (hf : ∀ m ∈ ms, m.id = id → (f m).outline = m.outline) :
    (modify id f ms).map Match.outline = ms.map Match.outline := by
  induction ms with
  | nil => rfl
  | cons m ms ih =>
    by_cases hid : m.id = id
    · simp only [modify, hid, if_true, List.map_cons, hf m (by simp) hid]
    · simp only [modify, hid, if_false, List.map_cons,
        ih fun m hm => hf m (List.mem_cons_of_mem _ hm)]

/-! ## Wiring -/

structure Wired (ms : List Match) : Prop where
  ordered : Ordered ms
  /-- A pointer leads to a later match of its stage. -/
  leads : ∀ m ∈ ms, ∀ r ∈ m.targets,
    m.id.val < r.id.val ∧ ∃ m' ∈ ms, m'.id = r.id ∧ m'.stage = m.stage
  /-- No two pointers lead to one seat. -/
  apart : (ms.flatMap Match.targets).Nodup
  /-- A grand final sends both its players to its reset, which sends nobody on. -/
  grandFinal : ∀ m ∈ ms, m.isGrandFinal → ∃ id, m.next = some ⟨id, .first⟩ ∧
    m.loserNext = some ⟨id, .second⟩ ∧ ∀ m' ∈ ms, m'.id = id → m'.targets = []

theorem mem_map_outline {ms ms' : List Match} (h : ms'.map Match.outline = ms.map Match.outline)
    {m' : Match} (hm' : m' ∈ ms') : ∃ m ∈ ms, m'.outline = m.outline := by
  have : m'.outline ∈ ms.map Match.outline := h ▸ List.mem_map_of_mem hm'
  obtain ⟨m, hm, heq⟩ := List.mem_map.1 this
  exact ⟨m, hm, heq.symm⟩

theorem Ordered.of_outlines {ms ms' : List Match} (ho : Ordered ms)
    (h : ms'.map Match.outline = ms.map Match.outline) : Ordered ms' := by
  have key : ∀ l : List Match, Ordered l ↔ Ordered (l.map Match.outline) := fun l => by
    simp only [Ordered, List.pairwise_map]
    rfl
  rw [key, h, ← key]
  exact ho

theorem Wired.of_outlines {ms ms' : List Match} (hw : Wired ms)
    (h : ms'.map Match.outline = ms.map Match.outline) : Wired ms' where
  ordered := hw.ordered.of_outlines h
  leads := by
    intro a' ha' r hr
    obtain ⟨a, ha, hao⟩ := mem_map_outline h ha'
    rw [Match.outline_targets hao] at hr
    obtain ⟨hlt, b, hb, hid, hst⟩ := hw.leads a ha r hr
    obtain ⟨b', hb', hbo⟩ := mem_map_outline h.symm hb
    refine ⟨by rw [Match.outline_id hao]; exact hlt, b', hb', ?_, ?_⟩
    · rw [← Match.outline_id hbo, hid]
    · rw [← Match.outline_stage hbo, hst, Match.outline_stage hao]
  apart := by
    have key : ∀ l : List Match, l.flatMap Match.targets = (l.map Match.outline).flatMap
        Match.targets := fun l => by
      rw [List.flatMap_map]
      rfl
    rw [key, h, ← key]
    exact hw.apart
  grandFinal := by
    intro a' ha' hgf
    obtain ⟨a, ha, hao⟩ := mem_map_outline h ha'
    rw [Match.outline_isGrandFinal hao] at hgf
    obtain ⟨id, hn, hl, hend⟩ := hw.grandFinal a ha hgf
    refine ⟨id, by rw [Match.outline_next hao, hn], by rw [Match.outline_loserNext hao, hl], ?_⟩
    intro b' hb' hid
    obtain ⟨b, hb, hbo⟩ := mem_map_outline h hb'
    rw [Match.outline_targets hbo]
    exact hend b hb (by rw [← Match.outline_id hbo, hid])

/-- Matches that feed one seat are one match. -/
theorem Wired.eq_of_target {ms : List Match} (hw : Wired ms) {a b : Match} (ha : a ∈ ms)
    (hb : b ∈ ms) {r : SeatRef} (hra : r ∈ a.targets) (hrb : r ∈ b.targets) : a = b := by
  obtain ⟨-, hpw⟩ := List.nodup_flatMap.1 hw.apart
  by_contra hne
  have : Std.Symm (Function.onFun List.Disjoint Match.targets) := ⟨fun _ _ h a ha hb => h hb ha⟩
  exact hpw.forall ha hb hne hra hrb

theorem Wired.targets_nodup {ms : List Match} (hw : Wired ms) {m : Match} (hm : m ∈ ms) :
    m.targets.Nodup :=
  (List.nodup_flatMap.1 hw.apart).1 m hm

end Arena

end Tourney
