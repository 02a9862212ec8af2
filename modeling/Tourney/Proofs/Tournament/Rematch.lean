import Tourney.Proofs.Swiss.Rematch
import Tourney.Proofs.Tournament.Books
import Tourney.Proofs.Tournament.Run

/-!
# No rematch in a Swiss event

Whenever a Swiss event is to pair a round, it can be paired without a rematch (`Books.played`), and
unless a search gives up, it is (`no_rematch`). With thirteen players or fewer no search does
(`Unmatched.searched`).
-/

namespace Tourney.Tournament

open Arena

/-- The standings that the next round is to be paired from, once its turn has come. -/
def pairsFrom? (t : Tournament) : Option (List Swiss.Standing) :=
  t.swiss.bind fun e =>
    if e.totalRounds ≤ e.currentRound ∨ !t.roundResolved .main e.currentRound then none
    else some e.standings

/-- The search for a pairing that a result calls for gives up. -/
def Exhausts (t : Tournament) (id : MatchId) (o : Outcome) : Prop :=
  ∃ t₁ ss, t.enter id o = .ok t₁ ∧ t₁.pairsFrom? = some ss ∧
    Swiss.GivesUp (Swiss.byeChoices (Swiss.ranked ss))

/-- No search for a pairing gives up. -/
def Searched (t : Tournament) : List (MatchId × Outcome) → Prop
  | [] => True
  | (id, o) :: calls => ¬t.Exhausts id o ∧ Searched (t.record id o).state calls

theorem pairsFrom?_eq_some {t : Tournament} {ss : List Swiss.Standing}
    (h : t.pairsFrom? = some ss) :
    ∃ e, t.swiss = some e ∧ e.currentRound.toNat < e.totalRounds.toNat ∧
      t.roundResolved .main e.currentRound ∧ ss = e.standings := by
  obtain ⟨e, he, h⟩ := Option.bind_eq_some_iff.1 h
  split_ifs at h with hheld
  rw [not_or, UInt32.le_iff_toNat_le] at hheld
  exact ⟨e, he, by omega, by simpa using hheld.2, (Option.some.inj h).symm⟩

/-! ## What is known of the players -/

section Books

variable {t t₁ : Tournament} {e : SwissEvent} (h : Books t e) (hs : Sound t)

include h hs

/-- Standings of resolved rounds are those of a field that can be paired again. -/
theorem Books.played (hdone : ∀ m ∈ t.arena, m.status.isResolved)
    (hlt : e.currentRound.toNat < e.totalRounds.toNat) :
    Swiss.Played e.currentRound.toNat e.standings := by
  have hnd : (e.standings.map Swiss.Standing.player).Nodup := by
    rw [h.names]
    exact (Roster.check_eq_ok_iff.1 hs.roster).2.2
  refine ⟨.of_map _ hnd, fun a ha b hb => Swiss.met_comm (h.exact a ha) (h.exact b hb),
    fun a ha => ?_, fun s hmem => ?_, ?_, ?_⟩
  · have hrest : ∀ m ∈ t.arena, m.AtRest := fun m hm => hs.coherent.atRest hm
    have hp : a.player ∈ t.players := h.names ▸ List.mem_map_of_mem ha
    have hplayed := Swiss.length_opponents a.player hrest
      (fun m hm => h.fairly hs hm (hrest m hm)) hdone
    rw [h.rounds.seatsOf_eq hp, ← (h.exact a ha).opponents, ← (h.exact a ha).byes] at hplayed
    have := Swiss.countP_met_le hnd a
    omega
  · rw [(h.exact s hmem).byes]
    exact h.fair s.player
  · rw [h.sum_byes hs, h.length_standings]
  · rw [h.length_standings]
    exact h.currentRound_lt (two_le_players hs) hlt

/-- A round that is to be paired can be paired without a rematch. -/
theorem Books.exists_choice {ss : List Swiss.Standing} (hpairs : t.pairsFrom? = some ss) :
    ∃ choice ∈ Swiss.byeChoices (Swiss.ranked ss), Swiss.Pairable Swiss.met choice.2 := by
  obtain ⟨e', he', hlt, hres, rfl⟩ := pairsFrom?_eq_some hpairs
  obtain rfl : e = e' := Option.some.inj (h.event.symm.trans he')
  have hranked : (Swiss.ranked e.standings).Perm e.standings := List.mergeSort_perm ..
  exact ((h.played hs (h.resolved hres) hlt).perm hranked.symm).exists_choice

/-- An advance that does not give up brings no rematch. -/
theorem Books.noRematch_advance (hf : t.format = .swiss) {t' : Tournament} {effects : Effects}
    (hadv : t.advance = .done t' effects) (hno : Swiss.NoRematch t.arena)
    (hsearch : ∀ ss, t.pairsFrom? = some ss →
      ¬Swiss.GivesUp (Swiss.byeChoices (Swiss.ranked ss))) : Swiss.NoRematch t'.arena := by
  rcases advance_swiss hf h.event hadv with ⟨status, rfl⟩ |
    ⟨ms, standings, next, status, hlt, hres, hms, hbyes, rfl⟩
  · exact hno
  have hpairs : t.pairsFrom? = some e.standings := by
    rw [pairsFrom?, h.event, Option.bind_some, if_neg]
    rw [not_or, UInt32.le_iff_toNat_le]
    exact ⟨by omega, by simpa using hres⟩
  have hseated : (Swiss.seated (Swiss.pairNextRound e.standings).boards).Perm t.players := by
    rw [Swiss.seated_boards, ← h.names]
    exact Swiss.pairNextRound_perm _
  exact hno.next (fun m hm => hs.coherent.atRest hm) (h.resolved hres) h.exact
    (Swiss.exists_fresh_pairing (h.exists_choice hs hpairs) (hsearch _ hpairs))
    ((Swiss.buildRound_yields _ _ _ _).of_ok hms)
    (hseated.nodup_iff.2 (Roster.check_eq_ok_iff.1 hs.roster).2.2)

end Books

/-! ## Runs -/

/-- A Swiss event on its books in which nobody has met the same opponent twice. -/
structure Unmatched (c : Config) (t : Tournament) : Prop where
  live : Live c t
  swiss : c.format = .swiss
  books : ∃ e, Books t e
  noRematch : Swiss.NoRematch t.arena

section Unmatched

variable {c : Config} {t t₁ : Tournament} (h : Unmatched c t) {id : MatchId} {o : Outcome}

include h

theorem Unmatched.of_enter (hent : t.enter id o = .ok t₁) : ∃ e₁, Sound t₁ ∧ Books t₁ e₁ ∧
    t₁.format = .swiss ∧ t₁.players = t.players ∧ Swiss.NoRematch t₁.arena := by
  obtain ⟨e, he⟩ := h.books
  obtain ⟨e₁, hs₁, he₁, hf₁, hp₁, hev⟩ :=
    he.of_enter h.live.running.sound (h.live.format.trans h.swiss) hent
  exact ⟨e₁, hs₁, he₁, hf₁, hp₁, h.noRematch.of_evolves hev he.rounds.board⟩

theorem Unmatched.record (hne : (t.record id o).answer ≠ .error .outOfRange)
    (hsearch : ¬t.Exhausts id o) : Unmatched c (t.record id o).state := by
  have hlive := h.live.record_of_ne hne
  rcases ha : (t.record id o).answer with f | effects
  · cases h.live.running.recorded id o with
    | refused f' hf hr =>
      rw [hr]
      exact h
    | overflows m hm ho hwhy hr => exact absurd hr hne
    | done m ms t' effects hm ho htally hms hr =>
      rw [hr] at ha
      cases ha
  obtain ⟨t₁, hent⟩ := exists_enter ha
  obtain ⟨e₁, hs₁, he₁, hf₁, -, hno₁⟩ := h.of_enter hent
  have hadv : t₁.advance = .done (t.record id o).state effects := by
    rw [← record_of_enter hent, Reply.done, ← ha]
  exact ⟨hlive, h.swiss, he₁.advance hs₁ hf₁ hadv, he₁.noRematch_advance hs₁ hf₁ hadv hno₁
    fun ss hpairs hg => hsearch ⟨t₁, ss, hent, hpairs, hg⟩⟩

theorem Unmatched.recordAll {calls : List (MatchId × Outcome)} (hr : Returns t calls)
    (hs : Searched t calls) : Unmatched c (t.recordAll calls) := by
  induction calls generalizing t with
  | nil => exact h
  | cons call calls ih => exact ih (h.record hr.1 hs.1) hr.2 hs.2

/-- Thirteen players are too few for a search to give up. -/
theorem Unmatched.searched (hlen : c.players.length ≤ 13) {calls : List (MatchId × Outcome)}
    (hr : Returns t calls) : Searched t calls := by
  induction calls generalizing t with
  | nil => trivial
  | cons call calls ih =>
    have hnot : ¬t.Exhausts call.1 call.2 := by
      rintro ⟨t₁, ss, hent, hpairs, hg⟩
      obtain ⟨e₁, -, he₁, -, hplayers, -⟩ := h.of_enter hent
      obtain ⟨e, he, -, -, rfl⟩ := pairsFrom?_eq_some hpairs
      obtain rfl : e₁ = e := Option.some.inj (he₁.event.symm.trans he)
      have hranked : (Swiss.ranked e₁.standings).Perm e₁.standings := List.mergeSort_perm ..
      refine Swiss.not_givesUp_of_length_le (fun choice hc => ?_) hg
      obtain ⟨hperm, heven⟩ := Swiss.of_mem_byeChoices hc
      have hle := (hperm.trans hranked).length_eq
      rw [he₁.length_standings, hplayers, h.live.players, List.length_append] at hle
      omega
    exact ⟨hnot, ih (h.record hr.1 hnot) hr.2⟩

end Unmatched

theorem unmatched_of_create {c : Config} {stamp : Stamp} {draw : Draw} {t : Tournament}
    (h : create c stamp draw = .ok t) (hf : c.format = .swiss) : Unmatched c t := by
  have hlive := live_of_create h
  obtain ⟨e, he, hone, -⟩ := books_of_create h hf
  have hrounds := he.rounds
  rw [hone] at hrounds
  exact ⟨hlive, hf, ⟨e, he⟩, Swiss.Rounds.noRematch hrounds hlive.running.sound.rostered⟩

/-- As long as no search for a pairing gives up, no two players of a Swiss event sit together at two
matches; and whenever a round is to be paired, it can be paired without a rematch, which is what
happens unless the search for it gives up. -/
theorem no_rematch {c : Config} {stamp : Stamp} {draw : Draw} {t : Tournament}
    (h : create c stamp draw = .ok t) (hf : c.format = .swiss)
    {calls : List (MatchId × Outcome)} (hr : Returns t calls) (hs : Searched t calls) :
    Swiss.NoRematch (t.recordAll calls).arena ∧
      ∀ id o t₁ ss, (t.recordAll calls).enter id o = .ok t₁ → t₁.pairsFrom? = some ss →
        (∃ choice ∈ Swiss.byeChoices (Swiss.ranked ss), Swiss.Pairable Swiss.met choice.2) ∧
        (¬Swiss.GivesUp (Swiss.byeChoices (Swiss.ranked ss)) → Swiss.FreshlyPaired ss) := by
  have hrun := (unmatched_of_create h hf).recordAll hr hs
  refine ⟨hrun.noRematch, fun id o t₁ ss hent hpairs => ?_⟩
  obtain ⟨e₁, hs₁, he₁, -⟩ := hrun.of_enter hent
  have hchoice := he₁.exists_choice hs₁ hpairs
  exact ⟨hchoice, Swiss.exists_fresh_pairing hchoice⟩

/-- A first round and a match of the second. -/
def swissCalls : List (MatchId × Outcome) :=
  [(⟨1⟩, ⟨"B", {}⟩), (⟨2⟩, ⟨"C", {}⟩), (⟨3⟩, ⟨"B", {}⟩)]

theorem no_rematch_smallCup : ∃ t, create (smallCup .swiss) smallStamp .seeded = .ok t ∧
    (smallCup .swiss).format = .swiss ∧ Returns t swissCalls ∧ Searched t swissCalls ∧
      Swiss.NoRematch (t.recordAll swissCalls).arena ∧
        ∀ id o t₁ ss, (t.recordAll swissCalls).enter id o = .ok t₁ → t₁.pairsFrom? = some ss →
          (∃ choice ∈ Swiss.byeChoices (Swiss.ranked ss), Swiss.Pairable Swiss.met choice.2) ∧
          (¬Swiss.GivesUp (Swiss.byeChoices (Swiss.ranked ss)) → Swiss.FreshlyPaired ss) := by
  obtain ⟨t, ht, hlive⟩ := (create_yields (c := smallCup .swiss) smallStamp .seeded
    (by decide)).exists_ok (by decide)
  have hfits : Fits (smallCup .swiss).format (smallCup .swiss).players.length := by decide
  have hr := hlive.returns hfits (hlive.inRange hfits (.inr (.inr rfl)) swissCalls)
  have hs := (unmatched_of_create ht rfl).searched (by decide) hr
  exact ⟨t, ht, rfl, hr, hs, no_rematch ht rfl hr hs⟩

end Tourney.Tournament
