import Tourney.Proofs.Arena.Determined
import Tourney.Proofs.Swiss.Byes
import Tourney.Proofs.Tournament.Tables

/-!
# The books of a Swiss event

From creation on (`books_of_create`), through every result (`Books.record`), a Swiss event has its
rounds in order, its standings tell what has been played, and nobody sits out twice.
-/

namespace Tourney.Tournament

open Arena

structure Books (t : Tournament) (e : SwissEvent) : Prop where
  event : t.swiss = some e
  names : e.standings.map Swiss.Standing.player = t.players
  total : e.totalRounds.toNat = Swiss.roundCount t.players.length
  rounds : Swiss.Rounds t.players e.currentRound.toNat t.arena
  exact : ∀ s ∈ e.standings, s.Exact t.arena
  fair : ∀ p, (t.arena.map (·.byes p)).sum ≤ 1

/-! ## One result -/

section Step

variable {t t' : Tournament} {e : SwissEvent}

theorem tally_swiss (hf : t.format = .swiss) (he : t.swiss = some e) (m : Match) :
    t.tally m = Swiss.record e.standings m >>= fun standings =>
      .ok { t with swiss := some { e with standings } } := by
  unfold Tournament.tally
  rw [hf, he]

/-- The arena and the standings with a result entered. -/
def withResult (t : Tournament) (e : SwissEvent) (id : MatchId) (o : Outcome)
    (standings : List Swiss.Standing) : Tournament :=
  { t with
    arena := Arena.modify id (·.withOutcome o) t.arena, swiss := some { e with standings } }

/-- What an advance does to a Swiss event: at most, it builds the next round. -/
theorem advance_swiss (hf : t.format = .swiss) (he : t.swiss = some e) {effects : Effects}
    (h : t.advance = .done t' effects) :
    (∃ status, t' = { t with status }) ∨
      ∃ ms standings next status, e.currentRound.toNat < e.totalRounds.toNat ∧
        t.roundResolved .main e.currentRound ∧
        Swiss.nextRound e.standings (e.currentRound + 1) t.nextMatchId .main = .ok ms ∧
        recordByes e.standings ms = .ok standings ∧
        t' = { t with
          swiss := some { e with standings, currentRound := e.currentRound + 1 },
          arena := t.arena ++ ms, nextMatchId := next, status } := by
  have hfinals : ∀ t : Tournament, t.format = .swiss → t.drawFinals = .ok (t, []) := fun t hf => by
    unfold drawFinals
    rw [hf]
  have hend : ∀ t₁ r, t.pairNextRound = .ok (t₁, r) → t₁.format = .swiss →
      ∃ status, t' = { t₁ with status } := fun t₁ r hp hf₁ => by
    simp only [advance, hp, hfinals t₁ hf₁] at h
    split_ifs at h <;> cases h <;> exact ⟨_, rfl⟩
  by_cases hheld : e.totalRounds ≤ e.currentRound ∨ !t.roundResolved .main e.currentRound
  · refine .inl (hend t [] ?_ hf)
    simp only [pairNextRound, he, hheld, if_true]
  · right
    rcases hp : t.pairNextRound with f | ⟨t₁, r⟩
    · simp only [advance, hp] at h
      cases h
    have hp' := hp
    simp only [pairNextRound, he, hheld, if_false] at hp'
    obtain ⟨ms, hms, hp'⟩ := bind_eq_ok.1 hp'
    obtain ⟨standings, hbyes, hp'⟩ := bind_eq_ok.1 hp'
    obtain ⟨t₂, happ, hp'⟩ := bind_eq_ok.1 hp'
    cases hp'
    obtain ⟨next, rfl⟩ := append_eq_ok happ
    obtain ⟨status, rfl⟩ := hend _ _ hp hf
    rw [not_or, UInt32.le_iff_toNat_le] at hheld
    exact ⟨ms, standings, next, status, by omega, by simpa using hheld.2, hms, hbyes, rfl⟩

end Step

section Books

variable {t t' : Tournament} {e : SwissEvent} (h : Books t e) (hs : Sound t)

include h

theorem Books.length_standings : e.standings.length = t.players.length := by
  rw [← h.names, List.length_map]

include hs

theorem Books.fairly {m : Match} (hm : m ∈ t.arena) (ho : m.AtRest) : m.Fair :=
  ho.fair fun p hp => h.rounds.seats_le_one (hs.rostered m hm p hp) hm

/-- Entering a result keeps the books. -/
theorem Books.withResult {id : MatchId} {o : Outcome} {m : Match} (hm : t.match? id = some m)
    (ho : checkOutcome m o = .ok ()) {standings : List Swiss.Standing}
    (hrec : Swiss.record e.standings (m.withOutcome o) = .ok standings) :
    Sound (t.withResult e id o standings) ∧
      Books (t.withResult e id o standings) { e with standings } := by
  obtain ⟨hmem, rfl⟩ := mem_of_find? hm
  have hev := evolves_modify_withOutcome hs.coherent hmem ho
  have hopen := (checkOutcome_eq_ok_iff.1 ho).1
  have hsound : Sound { t with arena := Arena.modify m.id (·.withOutcome o) t.arena } := by
    obtain ⟨ms, hdone, hset⟩ := hs.coherent.complete_settles hmem ho
    rw [complete_of_targets hm ho (h.rounds.apart m hmem).1] at hdone
    cases hdone
    exact hs.goOn hset.coherent hev
  have hrounds := h.rounds.goOn hev
  have hwon : m.withOutcome o ∈ Arena.modify m.id (·.withOutcome o) t.arena :=
    (hs.coherent.wired.ordered.mem_modify hmem).2 (.inl rfl)
  have hfair : (m.withOutcome o).Fair := (atRest_withOutcome ho).fair fun p hp =>
    hrounds.seats_le_one (hsound.rostered _ hwon p hp) hwon
  have hnd : (e.standings.map Swiss.Standing.player).Nodup := by
    rw [h.names]
    exact (Roster.check_eq_ok_iff.1 hs.roster).2.2
  have hgains := Swiss.record_gains hfair hnd hrec
  obtain ⟨pre, post, harena, hmod⟩ := exists_split hm
  refine ⟨hsound.keep t.status _ t.table t.groups, rfl,
    (Swiss.players_of_gains hgains).trans h.names, h.total, hrounds, fun s' hs' => ?_, fun p => ?_⟩
  · obtain ⟨s, hsmem, hg⟩ := exists_left hgains hs'
    have hexact := h.exact s hsmem
    have hp : s.player ∈ t.players := h.names ▸ List.mem_map_of_mem hsmem
    change s'.Exact (Arena.modify m.id (·.withOutcome o) t.arena)
    rw [hmod]
    rw [harena] at hexact
    refine hexact.won hg hopen fun hmet b hb => ?_
    -- the player has no later match than this one, which is still to be played
    obtain ⟨q, hq⟩ := Option.ne_none_iff_exists'.1 hmet
    by_contra hbmet
    obtain ⟨q', hq'⟩ := Option.ne_none_iff_exists'.1 hbmet
    have hrounds := h.rounds
    rw [harena] at hrounds
    exact hrounds.not_hasPlayer_after hp hopen ((atRest_withOutcome ho).hasPlayer_of_opponent hq)
      b hb ((hs.coherent.atRest (by rw [harena]; simp [hb])).hasPlayer_of_opponent hq')
  · have hready := (checkOutcome_eq_ok_iff.1 ho).2.1
    have hold := h.fair p
    have hzero : m.byes p = 0 := (hs.coherent.atRest hmem).byes_of_isReady hready
    have hzero' : (m.withOutcome o).byes p = 0 := (atRest_withOutcome ho).byes_of_isReady hready
    change ((Arena.modify m.id (·.withOutcome o) t.arena).map (·.byes p)).sum ≤ 1
    rw [hmod]
    rw [harena] at hold
    simpa [hzero, hzero'] using hold

/-- The byes of all players are the boards with one player. -/
theorem Books.sum_byes : (e.standings.map (·.byes.toNat)).sum =
    e.currentRound.toNat * (t.players.length % 2) := by
  have hmap : e.standings.map (·.byes.toNat) =
      t.players.map fun p => (t.arena.map (·.byes p)).sum := by
    rw [← h.names, List.map_map]
    exact List.map_congr_left fun s hmem => (h.exact s hmem).byes
  rw [hmap, Swiss.sum_byes (fun m hm => hs.coherent.atRest hm) h.rounds.board hs.rostered
    (Roster.check_eq_ok_iff.1 hs.roster).2.2, h.rounds.countP_alone]

omit hs in
theorem Books.resolved (hr : t.roundResolved .main e.currentRound) :
    ∀ m ∈ t.arena, m.status.isResolved := by
  intro m hm
  rcases Nat.lt_or_ge m.round.toNat e.currentRound.toNat with hlt | hge
  · exact h.rounds.past m hm hlt
  · have hround : m.round = e.currentRound :=
      UInt32.toNat_inj.1 (Nat.le_antisymm (h.rounds.range m hm).2 hge)
    have hall := List.all_eq_true.1 hr m hm
    simpa [hround, (h.rounds.apart m hm).2] using hall

omit hs in
/-- Fewer rounds have been played than there are players. -/
theorem Books.currentRound_lt (htwo : 2 ≤ t.players.length)
    (hlt : e.currentRound.toNat < e.totalRounds.toNat) :
    2 ^ e.currentRound.toNat < t.players.length := by
  rw [h.total] at hlt
  refine Nat.lt_of_le_of_lt (Nat.pow_le_pow_right (by decide) ?_) (Seeding.half_lt htwo)
  exact Nat.le_sub_one_of_lt hlt

/-- Whoever sits out next has not sat out yet. -/
theorem Books.byes_of_bye (hlt : e.currentRound.toNat < e.totalRounds.toNat) {a : Player}
    (ha : (Swiss.pairNextRound e.standings).bye = some a) :
    (t.arena.map (·.byes a)).sum = 0 := by
  obtain ⟨s, hmem, rfl, hfew⟩ := Swiss.of_bye_eq_some ha
  rw [← (h.exact s hmem).byes]
  by_contra hne
  -- otherwise everybody has sat out, which takes more rounds than there are
  have hall : ∀ b ∈ e.standings.map (·.byes.toNat), 1 ≤ b := by
    intro b hb
    obtain ⟨u, hu, rfl⟩ := List.mem_map.1 hb
    have := hfew u hu
    omega
  have hsum := List.length_le_sum_of_one_le _ hall
  rw [h.sum_byes hs, List.length_map, h.length_standings] at hsum
  have hround := h.currentRound_lt (two_le_players hs) hlt
  have hpow : e.currentRound.toNat < 2 ^ e.currentRound.toNat := Nat.lt_two_pow_self
  have hmul : e.currentRound.toNat * (t.players.length % 2) ≤ e.currentRound.toNat * 1 :=
    Nat.mul_le_mul_left _ (by omega)
  omega

/-- The next round, built on resolved ones, keeps the books. -/
theorem Books.nextRound (hdone : ∀ m ∈ t.arena, m.status.isResolved)
    (hlt : e.currentRound.toNat < e.totalRounds.toNat) {ms : List Match}
    (hms : Swiss.nextRound e.standings (e.currentRound + 1) t.nextMatchId .main = .ok ms)
    {standings : List Swiss.Standing} (hbyes : recordByes e.standings ms = .ok standings)
    (ht : t'.swiss = some { e with standings, currentRound := e.currentRound + 1 })
    (hp : t'.players = t.players) (harena : t'.arena = t.arena ++ ms) :
    Books t' { e with standings, currentRound := e.currentRound + 1 } := by
  have hb := (Swiss.buildRound_yields _ _ _ _).of_ok hms
  have hround : (e.currentRound + 1).toNat = e.currentRound.toNat + 1 := by
    rw [UInt32.toNat_add]
    have := e.totalRounds.toNat_lt
    exact Nat.mod_eq_of_lt (show e.currentRound.toNat + 1 < 2 ^ 32 by omega)
  have hnd := (Roster.check_eq_ok_iff.1 hs.roster).2.2
  have hfield : (Swiss.pairNextRound e.standings).field.Perm t.players := by
    rw [← h.names]
    exact Swiss.pairNextRound_perm _
  have hseated := (Swiss.seated_boards (Swiss.pairNextRound e.standings)).symm ▸ hfield
  have hrounds := h.rounds.next hdone hb hround hseated hnd
    (by rw [Swiss.countP_boards, hfield.length_eq])
  have hnd' := hseated.nodup_iff.2 hnd
  have hfair : ∀ m ∈ ms.filter (·.status = .complete), m.Fair := fun m hm =>
    hb.fair hnd' m (List.mem_filter.1 hm).1
  obtain ⟨hnames, hexact⟩ := Swiss.exact_foldlM hfair (h.names ▸ hnd) hbyes h.exact
  refine ⟨ht, (hnames.trans h.names).trans hp.symm, hp ▸ h.total, ?_, fun s hmem => ?_, fun p => ?_⟩
  · rw [hp, harena]
    simpa only [hround] using hrounds
  · rw [harena]
    exact (hexact s hmem).of_filter
  · rw [harena, List.map_append, List.sum_append]
    have hnew := hb.sum_byes_le hnd' p
    split_ifs at hnew with hbye
    · rw [h.byes_of_bye hs hlt (Swiss.bye_of_mem_boards hbye)]
      omega
    · have := h.fair p
      omega

/-- An advance keeps the books, whether it builds a round or not. -/
theorem Books.advance (hf : t.format = .swiss) {effects : Effects}
    (hadv : t.advance = .done t' effects) : ∃ e', Books t' e' := by
  rcases advance_swiss hf h.event hadv with ⟨status, rfl⟩ |
    ⟨ms, standings, next, status, hlt, hres, hms, hbyes, rfl⟩
  · exact ⟨e, h.event, h.names, h.total, h.rounds, h.exact, h.fair⟩
  · exact ⟨_, h.nextRound hs (h.resolved hres) hlt hms hbyes rfl rfl rfl⟩

/-- A result that is entered keeps the books. -/
theorem Books.of_enter (hf : t.format = .swiss) {id : MatchId} {o : Outcome}
    (hent : t.enter id o = .ok t') : ∃ e', Sound t' ∧ Books t' e' ∧ t'.format = .swiss ∧
      t'.players = t.players ∧ List.Forall₂ Match.Evolves t.arena t'.arena := by
  obtain ⟨⟨⟩, hdone, -⟩ := bind_eq_ok.1 hent
  rcases hm : find? t.arena id with _ | m
  · simp only [Arena.complete, hm, Reply.refused] at hdone
    cases hdone
  rcases ho : checkOutcome m o with f | ⟨⟩
  · simp only [Arena.complete, hm, ho, Reply.refused] at hdone
    cases hdone
  obtain ⟨hmem, rfl⟩ := mem_of_find? hm
  rw [enter_eq (complete_of_targets hm ho (h.rounds.apart m hmem).1) (find_withOutcome hm),
    tally_arena, tally_swiss hf h.event] at hent
  rcases hrec : Swiss.record e.standings (m.withOutcome o) with f | standings
  · rw [hrec] at hent
    cases hent
  rw [hrec] at hent
  cases hent
  obtain ⟨hsound, hbooks⟩ := h.withResult hs hm ho hrec
  exact ⟨_, hsound, hbooks, hf, rfl, evolves_modify_withOutcome hs.coherent hmem ho⟩

/-- A result that is taken keeps the books. -/
theorem Books.record (hf : t.format = .swiss) {id : MatchId} {o : Outcome} {effects : Effects}
    (hrec : t.record id o = .done t' effects) : ∃ e', Books t' e' := by
  have hok : (t.record id o).answer = .ok effects := by
    rw [hrec]
    rfl
  obtain ⟨t₁, hent⟩ := exists_enter hok
  obtain ⟨e₁, hs₁, he₁, hf₁, -⟩ := h.of_enter hs hf hent
  exact he₁.advance hs₁ hf₁ ((record_of_enter hent).symm.trans hrec)

end Books

/-! ## From the start -/

/-- The first round opens the books, and is still to be played. -/
theorem Blank.books {t t' : Tournament} (h : Blank t) {draw : Draw} (hf : t.format = .swiss)
    (h' : t.firstStage draw = .ok t') : ∃ e, Books t' e ∧ e.currentRound = 1 ∧ t'.Open := by
  have hroster := Roster.check_eq_ok_iff.1 h.roster
  have hperm := (t.entryDraw draw).perm t.players
  have htwo := two_le_players h.sound
  unfold Tournament.firstStage at h'
  rw [hf] at h'
  dsimp only at h'
  obtain ⟨ms, hms, h'⟩ := bind_eq_ok.1 h'
  obtain ⟨standings, hfold, happ⟩ := bind_eq_ok.1 h'
  obtain ⟨next, rfl⟩ := append_eq_ok happ
  obtain ⟨_, -, hms⟩ := bind_eq_ok.1 hms
  have hb := (Swiss.buildRound_yields _ _ _ _).of_ok hms
  have hseated := (Swiss.seated_neighbours ((t.entryDraw draw).order t.players)).symm ▸ hperm
  have hrounds := (Swiss.rounds_nil t.players).next (by simp) hb rfl hseated hroster.2.2
    (by rw [Swiss.countP_neighbours, hperm.length_eq])
  have hnd := hseated.nodup_iff.2 hroster.2.2
  obtain ⟨hnames, hexact⟩ := Swiss.exact_foldlM (hb.fair hnd)
    (by rw [Swiss.players_freshStandings]; exact hroster.2.2) hfold
    (Swiss.exact_freshStandings _)
  have harena : t.arena ++ ms = ms := by rw [h.arena, List.nil_append]
  have htotal : (UInt32.ofNat (Swiss.roundCount t.players.length)).toNat =
      Swiss.roundCount t.players.length := by
    rw [UInt32.toNat_ofNat']
    refine Nat.mod_eq_of_lt (roundCount_lt ?_)
    have hfits := hb.fits
    rw [Swiss.length_neighbours, hperm.length_eq] at hfits
    omega
  refine ⟨_, ⟨rfl, hnames.trans (Swiss.players_freshStandings _), htotal, ?_, ?_, fun p => ?_⟩,
    rfl, ?_⟩
  · change Swiss.Rounds t.players 1 (t.arena ++ ms)
    rw [harena]
    exact hrounds
  · change ∀ s ∈ standings, s.Exact (t.arena ++ ms)
    rw [harena]
    exact hexact
  · change ((t.arena ++ ms).map (·.byes p)).sum ≤ 1
    rw [harena]
    refine (hb.sum_byes_le hnd p).trans ?_
    split_ifs <;> omega
  · rw [← hperm.length_eq] at htwo
    obtain ⟨a, b, hab⟩ := Swiss.exists_neighbours htwo
    obtain ⟨m, hm, hopen⟩ := hb.exists_unresolved hab
    exact ⟨m, List.mem_append_right _ hm, hopen⟩

/-- A Swiss event is created in its first round, with its books in order and a board to play. -/
theorem books_of_create {c : Config} {stamp : Stamp} {draw : Draw} {t : Tournament}
    (h : create c stamp draw = .ok t) (hf : c.format = .swiss) :
    ∃ e, Books t e ∧ e.currentRound = 1 ∧ t.Open := by
  obtain ⟨t₀, hb, hst, hf₀, -, hcreate⟩ := create_eq stamp draw (check_of_create h)
  rw [hcreate, start, if_neg (by simp [hst])] at h
  rcases h₁ : t₀.firstStage draw with f | t₁
  · rw [h₁] at h
    cases h
  rw [h₁] at h
  obtain ⟨e, he, hone, m, hm, hopen⟩ := hb.books (hf₀.trans hf) h₁
  have ho := (hb.firstStage draw).of_ok h₁
  have he : Books { t₁ with status := .inProgress } e :=
    ⟨he.event, he.names, he.total, he.rounds, he.exact, he.fair⟩
  rcases hadv : { t₁ with status := .inProgress }.advance with ⟨t₂, f | effects⟩
  · simp only [hadv, Reply.toExcept, Except.map] at h
    cases h
  · simp only [hadv, Reply.toExcept, Except.map] at h
    cases h
    have hswiss : ({ t₁ with status := .inProgress } : Tournament).format = .swiss :=
      ho.grown.format.trans (hf₀.trans hf)
    rcases advance_swiss hswiss he.event hadv with
      ⟨status, rfl⟩ | ⟨ms, standings, next, status, -, hres, -⟩
    · exact ⟨e, ⟨he.event, he.names, he.total, he.rounds, he.exact, he.fair⟩, hone, m, hm, hopen⟩
    · rw [he.resolved hres m hm] at hopen
      cases hopen

end Tourney.Tournament
