import Tourney.Proofs.Arena.Flow
import Tourney.Proofs.Arena.Numbering
import Tourney.Proofs.Except
import Tourney.Proofs.Groups
import Tourney.Tournament.Play

/-!
# Sound tournaments

What holds of the matches of a tournament in every format. A sound tournament stays sound when its
matches go on (`Sound.goOn`) and when a stage is appended (`Sound.append`).
-/

namespace Tourney.Tournament

open Arena

/-- How many matches a tournament has in the end. -/
def matchCount (format : Format) (n : Nat) : Nat :=
  match format with
  | .singleElimination => Seeding.bracketSize n - 1
  | .doubleElimination => 2 * Seeding.bracketSize n - 1
  | .swiss => Swiss.roundCount n * ((n + 1) / 2)
  | .roundRobin => n * (n - 1) / 2
  | .groups plan => (n + 1) / 2 * ((n + 1) / 2 - 1) / 2 + n / 2 * (n / 2 - 1) / 2 +
      Groups.finalsCount plan

/-- The ids suffice for every match of a format. -/
def Fits (format : Format) (n : Nat) : Prop := matchCount format n + 1 < UInt32.size

instance (format : Format) (n : Nat) : Decidable (Fits format n) :=
  inferInstanceAs (Decidable (_ < _))

/-- How many matches a tournament starts with: those of its first stage, or of its first round. -/
def openingCount (format : Format) (n : Nat) : Nat :=
  match format with
  | .swiss => (n + 1) / 2
  | .groups _ => (n + 1) / 2 * ((n + 1) / 2 - 1) / 2 + n / 2 * (n / 2 - 1) / 2
  | .singleElimination => matchCount .singleElimination n
  | .doubleElimination => matchCount .doubleElimination n
  | .roundRobin => matchCount .roundRobin n

/-- The ids suffice for the matches a tournament starts with. -/
def OpeningFits (format : Format) (n : Nat) : Prop := openingCount format n + 1 < UInt32.size

instance (format : Format) (n : Nat) : Decidable (OpeningFits format n) :=
  inferInstanceAs (Decidable (_ < _))

theorem openingCount_le (format : Format) (n : Nat) :
    openingCount format n ≤ matchCount format n := by
  cases format with
  | swiss => exact Nat.le_mul_of_pos_left _ (Seeding.rounds_pos _)
  | groups plan => exact Nat.le_add_right _ _
  | _ => exact Nat.le_refl _

theorem Fits.opening {format : Format} {n : Nat} (h : Fits format n) : OpeningFits format n :=
  Nat.lt_of_le_of_lt (Nat.add_le_add_right (openingCount_le format n) 1) h

structure Sound (t : Tournament) : Prop where
  roster : Roster.check t.players t.format.minPlayers = .ok ()
  fits : t.arena.length + 1 < UInt32.size
  coherent : Coherent t.arena []
  numbered : Numbered firstMatchId t.arena
  next : t.nextMatchId = firstMatchId.plus t.arena.length
  rostered : ∀ m ∈ t.arena, ∀ p, m.hasPlayer p → p ∈ t.players

theorem toNat_firstMatchId : firstMatchId.val.toNat = 1 := rfl

section Sound

variable {t : Tournament} (h : Sound t)

include h

/-- Only the matches count. -/
theorem Sound.keep (status : TournamentStatus) (swiss : Option SwissEvent)
    (table : List RoundRobin.Row) (groups : Option GroupStage) :
    Sound { t with status, swiss, table, groups } :=
  ⟨h.roster, h.fits, h.coherent, h.numbered, h.next, h.rostered⟩

theorem Sound.goOn {ms : List Match} (hc : Coherent ms [])
    (he : List.Forall₂ Match.Evolves t.arena ms) : Sound { t with arena := ms } where
  roster := h.roster
  fits := by rw [← he.length_eq]; exact h.fits
  coherent := hc
  numbered := h.numbered.of_outlines (map_outline_of_evolves he)
  next := h.next.trans (by rw [he.length_eq])
  rostered := h.coherent.players_of_evolves hc he h.rostered

theorem Sound.toNat_next : t.nextMatchId.val.toNat = 1 + t.arena.length := by
  have hfits := h.fits
  rw [h.next, MatchId.toNat_plus (by rw [toNat_firstMatchId]; omega), toNat_firstMatchId]

theorem Sound.append {ms : List Match} (hc : Coherent ms []) (hn : Numbered t.nextMatchId ms)
    (hfit : t.nextMatchId.val.toNat + ms.length ≤ UInt32.size)
    (hp : ∀ m ∈ ms, ∀ p, m.hasPlayer p → p ∈ t.players) :
    Yields (t.arena.length + ms.length + 1 < UInt32.size) (t.append ms) fun t' =>
      Sound t' ∧ t' = { t with arena := t.arena ++ ms, nextMatchId := t'.nextMatchId } := by
  by_cases hne : ms = []
  · subst hne
    exact .inl ⟨t, rfl, h, by simp⟩
  rw [h.toNat_next] at hfit
  rw [h.next] at hn
  obtain ⟨last, hlast, hid⟩ := hn.getLast? hne
  have hpos := List.length_pos_iff.2 hne
  rw [MatchId.plus_plus] at hid
  have hnat : last.id.val.toNat = t.arena.length + ms.length := by
    rw [hid, MatchId.toNat_plus (by rw [toNat_firstMatchId]; omega), toNat_firstMatchId]
    omega
  rw [Tournament.append, hlast]
  refine ((MatchId.plus?_yields last.id 1).imp (fun hc => by rwa [hnat]) fun _ h => h).bind ?_
  rintro _ ⟨rfl, hlt⟩
  rw [hnat] at hlt
  have hnext : last.id.plus 1 = firstMatchId.plus (t.arena.length + ms.length) := by
    rw [hid, MatchId.plus_plus]
    congr 1
    omega
  have hgrow : ∀ a ∈ t.arena, ∀ b ∈ ms, a.id.val < b.id.val := by
    intro a ha b hb
    obtain ⟨i, hi, hai⟩ := h.numbered.mem ha
    obtain ⟨j, hj, hbj⟩ := hn.mem hb
    rw [hai, hbj, MatchId.plus_plus]
    exact MatchId.plus_lt (by omega) (by rw [toNat_firstMatchId]; omega)
  refine .pure ⟨⟨h.roster, ?_, h.coherent.append hc hgrow, h.numbered.append hn, ?_,
    List.forall_mem_append.2 ⟨h.rostered, hp⟩⟩, rfl⟩
  · rwa [List.length_append]
  · rw [List.length_append]
    exact hnext

end Sound

end Tourney.Tournament
