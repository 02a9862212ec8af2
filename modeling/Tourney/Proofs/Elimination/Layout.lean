import Tourney.Proofs.Arena.Numbering
import Tourney.Proofs.Arena.Results

/-!
# Arenas laid out by places

A knockout is a list of places, each with a match, where a place feeds seats of later places and
every seat that is open at the start is fed from one place, its source. Such an arena is wired, and
coherent as soon as the matches of its opening are settled (`Layout.coherent`).
-/

namespace Tourney.Arena

structure Layout {P : Type} (places : List P) (mk : P → Match) (feeds : P → List (P × Slot))
    (source : P × Slot → P) : Prop where
  ordered : Ordered (places.map mk)
  targets : ∀ x ∈ places, (mk x).targets = (feeds x).map fun l => ⟨(mk l.1).id, l.2⟩
  leads : ∀ x ∈ places, ∀ l ∈ feeds x, l.1 ∈ places ∧ source l = x ∧
    (mk x).id.val < (mk l.1).id.val ∧ (mk l.1).stage = (mk x).stage
  apart : ∀ x ∈ places, (feeds x).Nodup
  grandFinal : ∀ x ∈ places, (mk x).isGrandFinal → ∃ y, feeds x = [(y, .first), (y, .second)] ∧
    (mk x).next.isSome ∧ feeds y = []
  fresh : ∀ x ∈ places, (mk x).Unsettled
  proper : ∀ x ∈ places, ∀ slot, ((mk x).seat slot).Proper
  opens : ∀ x ∈ places, ∀ l ∈ feeds x, (mk l.1).seat l.2 = {}
  fed : ∀ x ∈ places, ∀ slot, (mk x).seat slot = {} →
    source (x, slot) ∈ places ∧ (x, slot) ∈ feeds (source (x, slot))

namespace Layout

variable {P : Type} {places : List P} {mk : P → Match} {feeds : P → List (P × Slot)}
  {source : P × Slot → P}

theorem inj (h : Layout places mk feeds source) {x y : P} (hx : x ∈ places) (hy : y ∈ places)
    (hid : (mk x).id = (mk y).id) : x = y := by
  have hn := h.ordered.nodup
  rw [List.map_map] at hn
  exact List.inj_on_of_nodup_map hn hx hy hid

theorem nodup (h : Layout places mk feeds source) : places.Nodup := by
  have hn := h.ordered.nodup
  rw [List.map_map] at hn
  exact hn.of_map

theorem wired (h : Layout places mk feeds source) : Wired (places.map mk) := by
  refine ⟨h.ordered, ?_, ?_, ?_⟩
  · rw [List.forall_mem_map]
    intro x hx r hr
    rw [h.targets x hx, List.mem_map] at hr
    obtain ⟨l, hl, rfl⟩ := hr
    obtain ⟨hmem, -, hlt, hst⟩ := h.leads x hx l hl
    exact ⟨hlt, mk l.1, List.mem_map_of_mem hmem, rfl, hst⟩
  · have hall : (places.flatMap feeds).Nodup := by
      refine List.nodup_flatMap.2 ⟨h.apart, h.nodup.imp_of_mem fun {x y} hx hy hne l hl hl' => ?_⟩
      exact hne ((h.leads x hx l hl).2.1.symm.trans (h.leads y hy l hl').2.1)
    have heq : (places.map mk).flatMap Match.targets =
        (places.flatMap feeds).map fun l => (⟨(mk l.1).id, l.2⟩ : SeatRef) := by
      rw [List.flatMap_map, List.map_flatMap]
      exact List.flatMap_congr h.targets
    rw [heq]
    refine hall.map_on fun l hl l' hl' he => ?_
    obtain ⟨x, hx, hlx⟩ := List.mem_flatMap.1 hl
    obtain ⟨x', hx', hlx'⟩ := List.mem_flatMap.1 hl'
    rw [SeatRef.mk.injEq] at he
    exact Prod.ext (h.inj (h.leads x hx l hlx).1 (h.leads x' hx' l' hlx').1 he.1) he.2
  · rw [List.forall_mem_map]
    intro x hx hg
    obtain ⟨y, hy, hnext, hend⟩ := h.grandFinal x hx hg
    have hymem : y ∈ places := (h.leads x hx (y, .first) (by simp [hy])).1
    have ht := h.targets x hx
    rw [hy] at ht
    obtain ⟨n, hn⟩ := Option.isSome_iff_exists.1 hnext
    simp only [Match.targets, hn, Option.toList_some, List.map_cons, List.map_nil,
      List.cons_append, List.nil_append, List.cons.injEq] at ht
    obtain ⟨rfl, hl⟩ := ht
    refine ⟨(mk y).id, hn, ?_, ?_⟩
    · cases hln : (mk x).loserNext <;> simp_all
    · rw [List.forall_mem_map]
      intro z hz hzy
      rw [h.inj hz hymem hzy, h.targets y hymem, hend]
      rfl

theorem coherent (h : Layout places mk feeds source) {ids : List MatchId}
    (hrest : ∀ x ∈ places, (mk x).AtRest ∨ (mk x).id ∈ ids)
    (hids : ∀ id ∈ ids, ∃ x ∈ places, (mk x).id = id) :
    Coherent (places.map mk) (ids.map .settle) := by
  refine .of_fresh h.wired ?_ ?_ ?_ ?_ ?_ ?_
  · rw [List.forall_mem_map]
    exact h.fresh
  · rw [List.forall_mem_map]
    exact h.proper
  · rw [List.forall_mem_map]
    intro x hx r hr
    rw [h.targets x hx, List.mem_map] at hr
    obtain ⟨l, hl, rfl⟩ := hr
    rw [List.forall_mem_map]
    intro y hy hyl
    rw [h.inj hy (h.leads x hx l hl).1 hyl]
    exact h.opens x hx l hl
  · rw [List.forall_mem_map]
    intro x hx slot hs
    obtain ⟨hmem, hl⟩ := h.fed x hx slot hs
    refine ⟨_, List.mem_map_of_mem hmem, ?_⟩
    rw [h.targets _ hmem]
    exact List.mem_map_of_mem (f := fun l : P × Slot => (⟨(mk l.1).id, l.2⟩ : SeatRef)) hl
  · rw [List.forall_mem_map]
    exact hrest
  · intro id hid
    obtain ⟨x, hx, hxid⟩ := hids id hid
    exact ⟨mk x, List.mem_map_of_mem hx, hxid⟩

end Layout

/-! ## A layout in play -/

/-- The matches that the places of a layout have come to. -/
structure Played {P : Type} (places : List P) (mk now : P → Match) : Prop where
  coherent : Coherent (places.map now) []
  evolves : ∀ x ∈ places, (mk x).Evolves (now x)

theorem exists_of_forall₂_map {P : Type} {R : Match → Match → Prop} {places : List P}
    {mk : P → Match} (hn : places.Nodup) {ms : List Match}
    (h : List.Forall₂ R (places.map mk) ms) :
    ∃ now, ms = places.map now ∧ ∀ x ∈ places, R (mk x) (now x) := by
  classical
  induction places generalizing ms with
  | nil =>
    cases h
    exact ⟨mk, rfl, by simp⟩
  | cons x xs ih =>
    obtain ⟨hx, hxs⟩ := List.nodup_cons.1 hn
    cases h with
    | @cons _ m _ _ hm h =>
      obtain ⟨now, rfl, hnow⟩ := ih hxs h
      have hne : ∀ y ∈ xs, y ≠ x := fun y hy hyx => hx (hyx ▸ hy)
      refine ⟨Function.update now x m, ?_, ?_⟩
      · rw [List.map_cons, Function.update_self, List.map_congr_left fun y hy => ?_]
        exact (Function.update_of_ne (hne y hy) _ _).symm
      · rintro y hy
        rcases List.mem_cons.1 hy with rfl | hy
        · rwa [Function.update_self]
        · rw [Function.update_of_ne (hne y hy)]
          exact hnow y hy

section Played

variable {P : Type} {places : List P} {mk now : P → Match} {feeds : P → List (P × Slot)}
  {source : P × Slot → P}

theorem Layout.exists_played (h : Layout places mk feeds source) {ms : List Match}
    (hc : Coherent ms []) (he : List.Forall₂ Match.Evolves (places.map mk) ms) :
    ∃ now, ms = places.map now ∧ Played places mk now := by
  obtain ⟨now, rfl, hnow⟩ := exists_of_forall₂_map h.nodup he
  exact ⟨now, rfl, hc, hnow⟩

namespace Played

variable (h : Played places mk now) {x y : P} {s : Slot}

include h

theorem atRest (hx : x ∈ places) : (now x).AtRest := h.coherent.atRest (List.mem_map_of_mem hx)

theorem id_eq (hx : x ∈ places) : (now x).id = (mk x).id :=
  Match.outline_id (h.evolves x hx).outline

theorem next_eq (hx : x ∈ places) : (now x).next = (mk x).next :=
  Match.outline_next (h.evolves x hx).outline

theorem stage_eq (hx : x ∈ places) : (now x).stage = (mk x).stage :=
  Match.outline_stage (h.evolves x hx).outline

theorem seat_fresh (hx : x ∈ places) (hs : (mk x).seat s ≠ {}) :
    (now x).seat s = (mk x).seat s :=
  (h.evolves x hx).seats s hs

/-- A seat on the winner's way holds what its source has sent there. -/
theorem seat_next (hx : x ∈ places) (hy : y ∈ places) (hn : (mk x).next = some ⟨(mk y).id, s⟩) :
    (now y).seat s = (now x).sends (now x).winner := by
  refine h.coherent.seat_eq (r := ⟨(mk y).id, s⟩) (List.mem_map_of_mem hx) (List.mem_map_of_mem hy)
    ?_ (h.id_eq hy)
  simp [Match.outputs, h.next_eq hx, hn]

/-- A seat on the loser's way holds what its source has dropped there. -/
theorem seat_loserNext (hx : x ∈ places) (hy : y ∈ places)
    (hn : (mk x).loserNext = some ⟨(mk y).id, s⟩) :
    (now y).seat s = (now x).sends (now x).dropped := by
  refine h.coherent.seat_eq (r := ⟨(mk y).id, s⟩) (List.mem_map_of_mem hx) (List.mem_map_of_mem hy)
    ?_ (h.id_eq hy)
  have hl := Match.outline_loserNext (h.evolves x hx).outline
  simp [Match.outputs, hl, hn]

theorem numbered {first : MatchId} (hfirst : Numbered first (places.map mk)) :
    Numbered first (places.map now) := by
  refine hfirst.of_outlines ?_
  rw [List.map_map, List.map_map]
  exact List.map_congr_left fun x hx => (h.evolves x hx).outline

end Played

end Played

/-! ## What an end of the arena says -/

/-- As long as a match is unresolved, so is a match of its stage that leads nowhere. -/
theorem Coherent.exists_end {ms : List Match} (h : Coherent ms []) {m : Match} (hm : m ∈ ms)
    (ho : m.status.isResolved = false) :
    ∃ m' ∈ ms, m'.status.isResolved = false ∧ m'.stage = m.stage ∧ m'.next = none := by
  rcases hn : m.next with _ | r
  · exact ⟨m, hm, ho, rfl, hn⟩
  · have hr : r ∈ m.targets := by simp [Match.targets, hn]
    obtain ⟨hlt, a, ha, hai, hst⟩ := h.wired.leads m hm r hr
    obtain ⟨s, hs⟩ := Match.exists_mem_outputs hr
    have hopen := h.seat_eq hm ha hs hai
    rw [Match.outputs_of_unresolved ho hs] at hopen
    have hao : a.status.isResolved = false := by
      rw [((h.atRest ha).unsettled hopen).1]
      rfl
    have hlt' : m.id.val < a.id.val := by rw [hai]; exact hlt
    obtain ⟨b, hb, hbo, hbs, hbn⟩ := h.exists_end ha hao
    exact ⟨b, hb, hbo, hbs.trans hst, hbn⟩
termination_by UInt32.size - m.id.val.toNat
decreasing_by
  have hlater := UInt32.lt_iff_toNat_lt.1 hlt'
  have hlast : a.id.val.toNat < UInt32.size := a.id.val.toNat_lt
  omega

end Tourney.Arena
