import Tourney.Proofs.Arena.Results

/-!
# Propagation in an arena of any kind

Nothing is supposed of the arena here: ids may occur twice, and pointers may lead nowhere, back or
in circles. The errands come to an end all the same, since each uses up weight and only a pending
match that is resolved adds any (`perform_spends`). What is resolved stays resolved, and a result
is written over only by the reset of a grand final (`withstands_perform`). Where every pointer leads
to a match, no errand fails (`Connected.done`), so a result is refused by its check alone.
-/

namespace Tourney

/-- What calls leave as it is about a match, where those of the ids in `aimed` may be reset. -/
structure Match.Outlasts (aimed : MatchId → Prop) (m m' : Match) : Prop where
  outline : m'.outline = m.outline
  resolved : m.status.isResolved → m'.status.isResolved
  complete : m.status = .complete → m'.status = .complete
  result : m.status.isResolved → ¬aimed m.id → m'.status = m.status ∧ m'.winner = m.winner

/-- What errands leave as it is: they do not touch a match that is with a device either. -/
structure Match.Withstands (aimed : MatchId → Prop) (m m' : Match) : Prop
    extends m.Outlasts aimed m' where
  held : m.status.isHeld → ¬aimed m.id → m'.status = m.status ∧ m'.device = m.device

namespace Match

variable {aimed : MatchId → Prop}

theorem Outlasts.refl (m : Match) : m.Outlasts aimed m :=
  ⟨rfl, fun h => h, fun h => h, fun _ _ => ⟨rfl, rfl⟩⟩

theorem Outlasts.trans {a b c : Match} (h : a.Outlasts aimed b) (h' : b.Outlasts aimed c) :
    a.Outlasts aimed c where
  outline := h'.outline.trans h.outline
  resolved ha := h'.resolved (h.resolved ha)
  complete ha := h'.complete (h.complete ha)
  result ha hn := by
    obtain ⟨hs, hw⟩ := h.result ha hn
    obtain ⟨hs', hw'⟩ := h'.result (h.resolved ha) (by rwa [outline_id h.outline])
    exact ⟨hs'.trans hs, hw'.trans hw⟩

/-- Whatever comes of an unresolved match keeps to this. -/
theorem Outlasts.of_unresolved {m m' : Match} (ho : m.status.isResolved = false)
    (hout : m'.outline = m.outline) : m.Outlasts aimed m' where
  outline := hout
  resolved h := by simp [ho] at h
  complete h := by simp [h, MatchStatus.isResolved] at ho
  result h := by simp [ho] at h

theorem Withstands.refl (m : Match) : m.Withstands aimed m := ⟨.refl m, fun _ _ => ⟨rfl, rfl⟩⟩

theorem Withstands.trans {a b c : Match} (h : a.Withstands aimed b) (h' : b.Withstands aimed c) :
    a.Withstands aimed c where
  toOutlasts := h.toOutlasts.trans h'.toOutlasts
  held ha hn := by
    obtain ⟨hs, hd⟩ := h.held ha hn
    obtain ⟨hs', hd'⟩ := h'.held (by rwa [hs]) (by rwa [outline_id h.outline])
    exact ⟨hs'.trans hs, hd'.trans hd⟩

theorem Withstands.of_pending {m m' : Match} (hp : m.status = .pending)
    (hout : m'.outline = m.outline) : m.Withstands aimed m' where
  toOutlasts := .of_unresolved (by rw [hp]; rfl) hout
  held h := by simp [hp, MatchStatus.isHeld] at h

theorem Withstands.setSeat (m : Match) (slot : Slot) (s : Seat) :
    m.Withstands aimed (m.setSeat slot s) := by
  cases slot <;>
    exact ⟨⟨rfl, fun h => h, fun h => h, fun _ _ => ⟨rfl, rfl⟩⟩, fun _ _ => ⟨rfl, rfl⟩⟩

theorem Withstands.setReset {m : Match} {w : Player} {l : Option Player} {b : Bool}
    (h : aimed m.id) : m.Withstands aimed (Arena.setReset w l b m) where
  outline := Arena.outline_setReset m w l b
  resolved hr := by
    unfold Arena.setReset
    split_ifs
    · rfl
    · exact hr
  complete hc := by
    unfold Arena.setReset
    split_ifs
    · rfl
    · exact hc
  result _ hn := absurd h hn
  held _ hn := absurd h hn

end Match

namespace Arena

/-- The match that an errand is about. -/
def Errand.target : Errand → MatchId
  | .settle id => id
  | .seat r _ => r.id
  | .reset id .. => id

/-- An errand that has been done, with the arenas before and after it. -/
structure Step where
  before : List Match
  errand : Errand
  after : List Match

/-- The match that a step resolves. -/
def Step.resolves? (s : Step) : Option MatchId :=
  match find? s.before s.errand.target, find? s.after s.errand.target with
  | some m, some m' =>
    if m.status.isResolved = false ∧ m'.status.isResolved then some s.errand.target else none
  | _, _ => none

/-- The steps that errands take, one after another, until none is left or one cannot be done. -/
inductive Performs : List Match → List Errand → List Step → Reply (List Match) Unit → Prop where
  | finished (ms : List Match) : Performs ms [] [] (.done ms ())
  | stuck {ms : List Match} {e : Errand} {rest : List Errand} {f : Fault} :
    perform ms e = .error f → Performs ms (e :: rest) [] (.refused ms f)
  | step {ms ms' : List Match} {e : Errand} {more rest : List Errand} {steps : List Step}
    {reply : Reply (List Match) Unit} : perform ms e = .ok (ms', more) →
    Performs ms' (more ++ rest) steps reply → Performs ms (e :: rest) (⟨ms, e, ms'⟩ :: steps) reply

/-- Some grand final sends its players to a match of this id. -/
def Aimed (ms : List Match) (id : MatchId) : Prop :=
  ∃ g ∈ ms, g.isGrandFinal ∧ ∃ r, g.next = some r ∧ r.id = id

/-- Every pointer leads to a match. -/
def Connected (ms : List Match) : Prop := ∀ m ∈ ms, ∀ r ∈ m.targets, ∃ m' ∈ ms, m'.id = r.id

section Lookup

variable {ms ms' : List Match} {id : MatchId} {m : Match}

theorem exists_find? (hm : m ∈ ms) (hid : m.id = id) : ∃ a, find? ms id = some a := by
  rw [← Option.isSome_iff_exists, find?, List.find?_isSome]
  exact ⟨m, hm, by simpa using hid⟩

theorem forall₂_modify_of_find? {R : Match → Match → Prop} (hrefl : ∀ a, R a a)
    (hm : find? ms id = some m) {f : Match → Match} (hf : R m (f m)) :
    List.Forall₂ R ms (modify id f ms) := by
  obtain ⟨pre, post, rfl, hmod⟩ := exists_split hm
  rw [hmod]
  exact List.rel_append (List.forall₂_same.2 fun a _ => hrefl a)
    (.cons hf (List.forall₂_same.2 fun a _ => hrefl a))

/-- The first match of an id stays the first of that id. -/
theorem exists_find?_right {R : Match → Match → Prop} (h : List.Forall₂ R ms ms')
    (hid : ∀ a b, R a b → b.id = a.id) (hm : find? ms id = some m) :
    ∃ m', find? ms' id = some m' ∧ R m m' := by
  induction h with
  | nil => simp [find?] at hm
  | @cons a b as bs hab _ ih =>
    by_cases ha : a.id = id
    · subst ha
      rw [find?_cons_self] at hm
      cases hm
      rw [← hid _ b hab]
      exact ⟨b, find?_cons_self, hab⟩
    · rw [find?_cons_ne ha] at hm
      rw [find?_cons_ne (by rwa [hid a b hab])]
      exact ih hm

end Lookup

/-! ## One errand -/

section Perform

variable {aimed : MatchId → Prop} {ms ms' : List Match} {e : Errand} {more : List Errand}

theorem perform_eq_error {f : Fault} (h : perform ms e = .error f) :
    find? ms e.target = none := by
  cases e <;> simp only [perform] at h <;> split at h
  · assumption
  · split_ifs at h
  · assumption
  · cases h
  · assumption
  · cases h

/-- What settling does: it leaves the arena alone, or it resolves a pending match and sends on what
follows from that. -/
theorem settle_cases {id : MatchId} (h : perform ms (.settle id) = .ok (ms', more)) :
    ms' = ms ∧ more = [] ∨
      ∃ m f, find? ms id = some m ∧ m.status = .pending ∧ ms' = modify id f ms ∧
        (∀ a, (f a).outline = a.outline) ∧ (∀ a, (f a).status.isResolved) ∧
        (more = vacancies m ∨ more = sequel (f m)) := by
  simp only [perform] at h
  split at h
  · cases h
  rename_i m hm
  split_ifs at h with hp <;> cases h
  · exact .inl ⟨rfl, rfl⟩
  · exact .inr ⟨m, skip, hm, not_not.1 hp, rfl, fun _ => rfl, fun _ => rfl, .inl rfl⟩
  · exact .inr ⟨m, winBye, hm, not_not.1 hp, rfl, fun _ => rfl, fun _ => rfl, .inr rfl⟩
  · exact .inl ⟨rfl, rfl⟩

theorem seat_done {r : SeatRef} {p : Option Player} (h : perform ms (.seat r p) = .ok (ms', more)) :
    (∃ m, find? ms r.id = some m) ∧ ms' = modify r.id (·.setSeat r.slot (.settled p)) ms ∧
      more = [.settle r.id] := by
  simp only [perform] at h
  split at h <;> cases h
  exact ⟨⟨_, ‹_›⟩, rfl, rfl⟩

theorem reset_done {id : MatchId} {w : Player} {l : Option Player} {b : Bool}
    (h : perform ms (.reset id w l b) = .ok (ms', more)) :
    ms' = modify id (setReset w l b) ms ∧ more = [] := by
  simp only [perform] at h
  split at h <;> cases h
  exact ⟨rfl, rfl⟩

theorem weight_sequel_le (m : Match) : weight (sequel m) ≤ 4 := by
  unfold sequel
  split
  · simp [weight]
  · split_ifs <;> rcases m.next with _ | r <;> rcases m.loserNext with _ | r' <;>
      simp [weight, Errand.weight]

theorem weight_vacancies_le (m : Match) : weight (vacancies m) ≤ 4 := by
  unfold vacancies
  rcases m.next with _ | r <;> rcases m.loserNext with _ | r' <;> simp [weight, Errand.weight]

theorem weight_more_le (h : perform ms e = .ok (ms', more)) : weight more ≤ 4 := by
  cases e with
  | settle id =>
    rcases settle_cases h with ⟨-, rfl⟩ | ⟨m, f, -, -, -, -, -, rfl | rfl⟩
    · simp [weight]
    · exact weight_vacancies_le m
    · exact weight_sequel_le (f m)
  | seat r p =>
    obtain ⟨-, -, rfl⟩ := seat_done h
    simp [weight, Errand.weight]
  | reset id w l b =>
    obtain ⟨-, rfl⟩ := reset_done h
    simp [weight]

/-- An errand uses up weight, where a pending match counts for what its resolution may add. -/
theorem perform_spends (h : perform ms e = .ok (ms', more)) :
    weight more + 4 * pendingCount ms' < e.weight + 4 * pendingCount ms := by
  have hw := weight_more_le h
  have he : 1 ≤ e.weight := by cases e <;> simp [Errand.weight]
  rcases perform_progress h with hlt | ⟨hle, hlt⟩ <;> omega

/-- An errand resolves one match, or reseats one, or resets one. -/
theorem withstands_perform (h : perform ms e = .ok (ms', more))
    (ha : ∀ id w l b, e = .reset id w l b → aimed id) :
    List.Forall₂ (Match.Withstands aimed) ms ms' := by
  cases e with
  | settle id =>
    rcases settle_cases h with ⟨rfl, -⟩ | ⟨m, f, hm, hp, rfl, hout, -, -⟩
    · exact List.forall₂_same.2 fun m _ => .refl m
    · exact forall₂_modify_of_find? .refl hm (.of_pending hp (hout m))
  | seat r p =>
    obtain ⟨-, rfl, -⟩ := seat_done h
    exact forall₂_modify .refl fun m _ _ => .setSeat m _ _
  | reset id w l b =>
    obtain ⟨rfl, -⟩ := reset_done h
    exact forall₂_modify .refl fun m _ hid => .setReset (by rw [hid]; exact ha id w l b rfl)

/-- Only what comes of a grand final resets a match. -/
theorem aimed_of_reset_mem (h : perform ms e = .ok (ms', more)) {id : MatchId} {w : Player}
    {l : Option Player} {b : Bool} (hr : .reset id w l b ∈ more) : Aimed ms id := by
  cases e with
  | settle id' =>
    rcases settle_cases h with ⟨-, rfl⟩ | ⟨m, f, hm, -, -, hout, -, rfl | rfl⟩
    · cases hr
    · exact absurd hr (reset_not_mem_vacancies m id w l b)
    · obtain ⟨hg, r, hn, hid⟩ := of_reset_mem_sequel hr
      rw [Match.outline_isGrandFinal (hout m)] at hg
      rw [Match.outline_next (hout m)] at hn
      exact ⟨m, (mem_of_find? hm).1, hg, r, hn, hid⟩
  | seat r p =>
    obtain ⟨-, -, rfl⟩ := seat_done h
    simp at hr
  | reset id' w' l' b' =>
    obtain ⟨-, rfl⟩ := reset_done h
    cases hr

theorem target_mem_sequel {m : Match} {e' : Errand} (he : e' ∈ sequel m) :
    ∃ r ∈ m.targets, r.id = e'.target := by
  unfold sequel at he
  split at he
  · cases he
  · simp only [Match.targets, List.mem_append]
    split_ifs at he
    · obtain ⟨r, hr, rfl⟩ := List.mem_map.1 he
      exact ⟨r, .inl hr, rfl⟩
    · rcases List.mem_append.1 he with he | he <;> obtain ⟨r, hr, rfl⟩ := List.mem_map.1 he
      · exact ⟨r, .inl hr, rfl⟩
      · exact ⟨r, .inr hr, rfl⟩

theorem target_mem_vacancies {m : Match} {e' : Errand} (he : e' ∈ vacancies m) :
    ∃ r ∈ m.targets, r.id = e'.target := by
  simp only [Match.targets, List.mem_append]
  rcases List.mem_append.1 he with he | he <;> obtain ⟨r, hr, rfl⟩ := List.mem_map.1 he
  · exact ⟨r, .inl hr, rfl⟩
  · exact ⟨r, .inr hr, rfl⟩

/-- What an errand leads to is about its own match, or about one that a match points to. -/
theorem Connected.exists_target (hc : Connected ms) (h : perform ms e = .ok (ms', more))
    {e' : Errand} (he : e' ∈ more) : ∃ m ∈ ms, m.id = e'.target := by
  cases e with
  | settle id =>
    rcases settle_cases h with ⟨-, rfl⟩ | ⟨m, f, hm, -, -, hout, -, rfl | rfl⟩
    · cases he
    · obtain ⟨r, hr, hid⟩ := target_mem_vacancies he
      exact hid ▸ hc m (mem_of_find? hm).1 r hr
    · obtain ⟨r, hr, hid⟩ := target_mem_sequel he
      rw [Match.outline_targets (hout m)] at hr
      exact hid ▸ hc m (mem_of_find? hm).1 r hr
  | seat r p =>
    obtain ⟨⟨m, hm⟩, -, rfl⟩ := seat_done h
    obtain rfl := List.mem_singleton.1 he
    exact ⟨m, mem_of_find? hm⟩
  | reset id w l b =>
    obtain ⟨-, rfl⟩ := reset_done h
    cases he

end Perform

/-! ## Carrying facts from arena to arena -/

section Outlasts

variable {aimed : MatchId → Prop} {ms ms' : List Match}

theorem outlasts_refl (ms : List Match) : List.Forall₂ (Match.Outlasts aimed) ms ms :=
  List.forall₂_same.2 fun m _ => .refl m

theorem withstands_refl (ms : List Match) : List.Forall₂ (Match.Withstands aimed) ms ms :=
  List.forall₂_same.2 fun m _ => .refl m

theorem outlasts_of_withstands (h : List.Forall₂ (Match.Withstands aimed) ms ms') :
    List.Forall₂ (Match.Outlasts aimed) ms ms' :=
  h.imp fun _ _ h => h.toOutlasts

/-- An errand keeps the wiring, and what it resolves is resolved for good. -/
theorem outlasts_of_perform {e : Errand} {more : List Errand}
    (h : perform ms e = .ok (ms', more)) : List.Forall₂ (Match.Outlasts fun _ => True) ms ms' :=
  outlasts_of_withstands (withstands_perform h fun _ _ _ _ _ => trivial)

theorem Aimed.mono {id : MatchId} (ha : Aimed ms id)
    (h : ∀ g ∈ ms, ∃ g' ∈ ms', g.outline = g'.outline) : Aimed ms' id := by
  obtain ⟨g, hg, hf, r, hn, hr⟩ := ha
  obtain ⟨g', hg', ho⟩ := h g hg
  exact ⟨g', hg', Match.outline_isGrandFinal ho ▸ hf, r, Match.outline_next ho ▸ hn, hr⟩

theorem outlines_of_outlasts (h : List.Forall₂ (Match.Outlasts aimed) ms ms') :
    ms'.map Match.outline = ms.map Match.outline := by
  induction h with
  | nil => rfl
  | cons hab _ ih => rw [List.map_cons, List.map_cons, hab.outline, ih]

theorem Aimed.of_outlasts (h : List.Forall₂ (Match.Outlasts aimed) ms ms') {id : MatchId}
    (ha : Aimed ms' id) : Aimed ms id :=
  ha.mono fun _ hg => mem_map_outline (outlines_of_outlasts h) hg

theorem exists_id_of_outlasts (h : List.Forall₂ (Match.Outlasts aimed) ms ms') {id : MatchId}
    (hid : ∃ m ∈ ms, m.id = id) : ∃ m ∈ ms', m.id = id := by
  obtain ⟨m, hm, rfl⟩ := hid
  obtain ⟨m', hm', ho⟩ := mem_map_outline (outlines_of_outlasts h).symm hm
  exact ⟨m', hm', (Match.outline_id ho).symm⟩

theorem Connected.of_outlasts (hc : Connected ms)
    (h : List.Forall₂ (Match.Outlasts aimed) ms ms') : Connected ms' := by
  intro m' hm' r hr
  obtain ⟨m, hm, ho⟩ := exists_left h hm'
  rw [Match.outline_targets ho.outline] at hr
  exact exists_id_of_outlasts h (hc m hm r hr)

theorem exists_find?_of_outlasts (h : List.Forall₂ (Match.Outlasts aimed) ms ms') {id : MatchId}
    {m : Match} (hm : find? ms id = some m) :
    ∃ m', find? ms' id = some m' ∧ m.Outlasts aimed m' :=
  exists_find?_right h (fun _ _ ho => Match.outline_id ho.outline) hm

end Outlasts

/-! ## All errands -/

section Run

variable {ms : List Match} {es : List Errand} {steps : List Step}
  {reply : Reply (List Match) Unit}

theorem Performs.length_le (h : Performs ms es steps reply) :
    steps.length ≤ weight es + 4 * pendingCount ms := by
  induction h with
  | finished ms => simp
  | stuck _ => simp
  | step hok _ ih =>
    have := perform_spends hok
    simp only [weight_append, weight_cons, List.length_cons] at ih ⊢
    omega

/-- What errands resolve has been unresolved before them. -/
theorem Performs.unresolved (h : Performs ms es steps reply) :
    ∀ id ∈ steps.filterMap Step.resolves?,
      ∃ m, find? ms id = some m ∧ m.status.isResolved = false := by
  induction h with
  | finished ms => simp
  | stuck _ => simp
  | @step ms ms' e more rest steps reply hok _ ih =>
    intro id hid
    simp only [List.mem_filterMap, List.mem_cons] at hid ih
    obtain ⟨s, rfl | hs, hsid⟩ := hid
    · unfold Step.resolves? at hsid
      split at hsid
      · rename_i m m' hm hm'
        split_ifs at hsid with hr
        cases hsid
        exact ⟨m, hm, hr.1⟩
      · cases hsid
    · obtain ⟨m', hm', ho⟩ := ih id ⟨s, hs, hsid⟩
      have hlast := outlasts_of_perform hok
      obtain ⟨m, hm⟩ : ∃ m, find? ms id = some m := by
        obtain ⟨hmem, hid'⟩ := mem_of_find? hm'
        obtain ⟨m, hm, ho⟩ := exists_left hlast hmem
        exact exists_find? hm ((Match.outline_id ho.outline).symm.trans hid')
      obtain ⟨m₁, hm₁, hl⟩ := exists_find?_of_outlasts hlast hm
      obtain rfl := Option.some.inj (hm'.symm.trans hm₁)
      refine ⟨m, hm, ?_⟩
      by_contra hr
      rw [hl.resolved (by simpa using hr)] at ho
      cases ho

/-- No match is resolved twice. -/
theorem Performs.nodup_resolves (h : Performs ms es steps reply) :
    (steps.filterMap Step.resolves?).Nodup := by
  induction h with
  | finished ms => simp
  | stuck _ => simp
  | @step ms ms' e more rest steps reply hok hrest ih =>
    rw [List.filterMap_cons]
    split
    · exact ih
    · rename_i id hid
      refine List.nodup_cons.2 ⟨fun hmem => ?_, ih⟩
      obtain ⟨m₁, hm₁, ho⟩ := hrest.unresolved id hmem
      unfold Step.resolves? at hid
      split at hid
      · rename_i m m' hm hm'
        split_ifs at hid with hr
        cases hid
        obtain rfl := Option.some.inj (hm₁.symm.trans hm')
        rw [hr.2] at ho
        cases ho
      · cases hid

theorem Performs.settles (h : Performs ms es steps reply) :
    ∀ s ∈ steps, ∀ id, s.errand = .settle id → s.after = s.before ∨ s.resolves? = some id := by
  induction h with
  | finished ms => simp
  | stuck _ => simp
  | @step ms ms' e more rest steps reply hok _ ih =>
    refine List.forall_mem_cons.2 ⟨fun id he => ?_, ih⟩
    obtain rfl : e = .settle id := he
    rcases settle_cases hok with ⟨rfl, -⟩ | ⟨m, f, hm, hp, rfl, hout, hr, -⟩
    · exact .inl rfl
    · right
      have hm' : find? (modify id f ms) id = some (f m) := by
        rw [find?_modify_self fun a => Match.outline_id (hout a), hm]
        rfl
      have ho : m.status.isResolved = false := by rw [hp]; rfl
      simp [Step.resolves?, Errand.target, hm, hm', ho, hr]

theorem Performs.withstands {aimed : MatchId → Prop} (h : Performs ms es steps reply)
    (ha : ∀ id, Aimed ms id → aimed id) (hes : ∀ id w l b, .reset id w l b ∈ es → aimed id) :
    List.Forall₂ (Match.Withstands aimed) ms reply.state := by
  induction h with
  | finished ms => exact withstands_refl ms
  | stuck _ => exact withstands_refl _
  | @step ms ms' e more rest steps reply hok _ ih =>
    have hstep := withstands_perform hok fun id w l b he => hes id w l b (he ▸ List.mem_cons_self)
    refine forall₂_trans hstep (ih (fun id hid => ha id ?_) ?_) fun _ _ _ => .trans
    · exact hid.of_outlasts (outlasts_of_withstands hstep)
    · intro id w l b hmem
      rcases List.mem_append.1 hmem with hmem | hmem
      · exact ha id (aimed_of_reset_mem hok hmem)
      · exact hes id w l b (List.mem_cons_of_mem _ hmem)

/-- Where every pointer leads to a match, and every errand is about one, all of them are done. -/
theorem Connected.done (h : Performs ms es steps reply) (hc : Connected ms)
    (hes : ∀ e ∈ es, ∃ m ∈ ms, m.id = e.target) : reply.answer = .ok () := by
  induction h with
  | finished ms => rfl
  | stuck hf =>
    obtain ⟨m, hm, hid⟩ := hes _ List.mem_cons_self
    obtain ⟨a, ha⟩ := exists_find? hm hid
    rw [perform_eq_error hf] at ha
    cases ha
  | @step ms ms' e more rest steps reply hok _ ih =>
    have hstep := outlasts_of_perform hok
    refine ih (hc.of_outlasts hstep) fun e' he' => exists_id_of_outlasts hstep ?_
    rcases List.mem_append.1 he' with he' | he'
    · exact hc.exists_target hok he'
    · exact hes e' (List.mem_cons_of_mem _ he')

theorem run_of_error {e : Errand} {f : Fault} (h : perform ms e = .error f) :
    run ms (e :: es) = .refused ms f := by
  rw [run]
  split <;> simp_all

theorem run_of_ok {ms' : List Match} {e : Errand} {more : List Errand}
    (h : perform ms e = .ok (ms', more)) : run ms (e :: es) = run ms' (more ++ es) := by
  rw [run]
  split <;> simp_all

theorem exists_performs (ms : List Match) (es : List Errand) :
    ∃ steps, Performs ms es steps (run ms es) := by
  induction ms, es using run.induct with
  | case1 ms =>
    rw [run]
    exact ⟨[], .finished ms⟩
  | case2 ms e rest f hf =>
    rw [run_of_error hf]
    exact ⟨[], .stuck hf⟩
  | case3 ms e rest ms' more hok ih =>
    obtain ⟨steps, h⟩ := ih
    rw [run_of_ok hok]
    exact ⟨⟨ms, e, ms'⟩ :: steps, .step hok h⟩

end Run

/-! ## Propagation -/

/-- The steps of some errands: no more than the weight of the work allows, each match resolved once
at most and only if it was unresolved, and nothing done by settling but that. -/
structure Cascades (ms : List Match) (es : List Errand) (steps : List Step)
    (reply : Reply (List Match) Unit) : Prop where
  performs : Performs ms es steps reply
  bounded : steps.length ≤ weight es + 4 * pendingCount ms
  unresolved : ∀ id ∈ steps.filterMap Step.resolves?,
    ∃ m, find? ms id = some m ∧ m.status.isResolved = false
  once : (steps.filterMap Step.resolves?).Nodup
  settles : ∀ s ∈ steps, ∀ id, s.errand = .settle id → s.after = s.before ∨ s.resolves? = some id

theorem exists_cascades (ms : List Match) (es : List Errand) :
    ∃ steps, Cascades ms es steps (run ms es) := by
  obtain ⟨steps, h⟩ := exists_performs ms es
  exact ⟨steps, h, h.length_le, h.unresolved, h.nodup_resolves, h.settles⟩

section Calls

variable {ms : List Match} {id : MatchId} {m : Match} {o : Outcome}

theorem withstands_run {aimed : MatchId → Prop} {es : List Errand}
    (ha : ∀ id, Aimed ms id → aimed id) (hes : ∀ id w l b, .reset id w l b ∈ es → aimed id) :
    List.Forall₂ (Match.Withstands aimed) ms (run ms es).state := by
  obtain ⟨steps, h⟩ := exists_performs ms es
  exact h.withstands ha hes

theorem outlasts_fill (target : SeatRef) (player : Option Player) :
    List.Forall₂ (Match.Outlasts (Aimed ms)) ms (fill ms target player).state :=
  outlasts_of_withstands (withstands_run (fun _ h => h) (by simp))

theorem outlasts_resolveByes (ids : List MatchId) :
    List.Forall₂ (Match.Outlasts (Aimed ms)) ms (resolveByes ms ids).state :=
  outlasts_of_withstands (withstands_run (fun _ h => h) (by simp))

theorem complete_of_checked (hm : find? ms id = some m) (ho : checkOutcome m o = .ok ()) :
    complete ms id o = run (modify id (·.withOutcome o) ms) (sequel (m.withOutcome o)) := by
  simp only [complete, hm, ho]

theorem complete_of_unchecked (hm : find? ms id = some m) {f : Fault}
    (ho : checkOutcome m o = .error f) : complete ms id o = .refused ms f := by
  simp only [complete, hm, ho]

theorem outlasts_withOutcome {aimed : MatchId → Prop} (hm : find? ms id = some m)
    (ho : checkOutcome m o = .ok ()) :
    List.Forall₂ (Match.Outlasts aimed) ms (modify id (·.withOutcome o) ms) :=
  forall₂_modify_of_find? .refl hm (.of_unresolved (checkOutcome_eq_ok_iff.1 ho).1 rfl)

/-- What follows from a result that counts. -/
theorem withstands_sequel (hm : find? ms id = some m) (ho : checkOutcome m o = .ok ()) :
    List.Forall₂ (Match.Withstands (Aimed ms)) (modify id (·.withOutcome o) ms)
      (complete ms id o).state := by
  have hentered : List.Forall₂ (Match.Outlasts (Aimed ms)) ms _ := outlasts_withOutcome hm ho
  rw [complete_of_checked hm ho]
  refine withstands_run (fun _ h => h.of_outlasts hentered) fun id' w l b hmem => ?_
  obtain ⟨hg, r, hn, hid⟩ := of_reset_mem_sequel hmem
  exact ⟨m, (mem_of_find? hm).1, hg, r, hn, hid⟩

/-- A result that may be recorded stands, whatever follows from it. -/
theorem exists_complete (hm : find? ms id = some m) (ho : checkOutcome m o = .ok ()) :
    ∃ m', find? (complete ms id o).state id = some m' ∧ m'.status = .complete := by
  have hentered : find? (modify id (·.withOutcome o) ms) id = some (m.withOutcome o) := by
    rw [find?_modify_self (Match.id_withOutcome o), hm]
    rfl
  obtain ⟨m', hm', hl⟩ := exists_find?_of_outlasts
    (outlasts_of_withstands (withstands_sequel hm ho)) hentered
  exact ⟨m', hm', hl.complete rfl⟩

/-- A result does not touch another match that is with a device. -/
theorem exists_held {id' : MatchId} (hne : id ≠ id') {m' : Match} (hm' : find? ms id' = some m')
    (hh : m'.status.isHeld) (ha : ¬Aimed ms id') (o : Outcome) :
    ∃ a, find? (complete ms id o).state id' = some a ∧ a.status = m'.status ∧
      a.device = m'.device := by
  rcases hm : find? ms id with _ | m
  · rw [complete, hm]
    exact ⟨m', hm', rfl, rfl⟩
  rcases ho : checkOutcome m o with f | ⟨⟩
  · rw [complete_of_unchecked hm ho]
    exact ⟨m', hm', rfl, rfl⟩
  rw [← find?_modify_ne (Match.id_withOutcome o) hne] at hm'
  obtain ⟨a, hfind, hl⟩ := exists_find?_right (withstands_sequel hm ho)
    (fun _ _ h => Match.outline_id h.outline) hm'
  rw [← (mem_of_find? hm').2] at ha
  exact ⟨a, hfind, hl.held hh ha⟩

theorem outlasts_complete (id : MatchId) (o : Outcome) :
    List.Forall₂ (Match.Outlasts (Aimed ms)) ms (complete ms id o).state := by
  rcases hm : find? ms id with _ | m
  · rw [complete, hm]
    exact outlasts_refl ms
  rcases ho : checkOutcome m o with f | ⟨⟩
  · rw [complete_of_unchecked hm ho]
    exact outlasts_refl ms
  exact forall₂_trans (outlasts_withOutcome hm ho)
    (outlasts_of_withstands (withstands_sequel hm ho)) fun _ _ _ => .trans

theorem Connected.answer_complete (hc : Connected ms) (id : MatchId) (o : Outcome) :
    (complete ms id o).answer = (find ms id >>= fun m => checkOutcome m o) := by
  rcases hm : find? ms id with _ | m
  · simp [complete, find, hm, Reply.refused, bind, Except.bind]
  rcases ho : checkOutcome m o with f | ⟨⟩
  · simp [complete_of_unchecked hm ho, find, hm, ho, Reply.refused, bind, Except.bind]
  rw [complete_of_checked hm ho]
  have hentered : List.Forall₂ (Match.Outlasts (Aimed ms)) ms _ := outlasts_withOutcome hm ho
  obtain ⟨steps, hrun⟩ :=
    exists_performs (modify id (·.withOutcome o) ms) (sequel (m.withOutcome o))
  rw [(hc.of_outlasts hentered).done hrun fun e he => ?_]
  · simp [find, hm, ho, bind, Except.bind]
  obtain ⟨r, hr, hid⟩ := target_mem_sequel he
  exact exists_id_of_outlasts hentered (hid ▸ hc m (mem_of_find? hm).1 r hr)

/-- A result that its check refuses leaves the arena as it is. -/
theorem state_complete_of_refused {f : Fault}
    (h : (find ms id >>= fun m => checkOutcome m o) = .error f) :
    (complete ms id o).state = ms := by
  rcases hm : find? ms id with _ | m
  · rw [complete, hm]
    rfl
  rcases ho : checkOutcome m o with f' | ⟨⟩
  · rw [complete_of_unchecked hm ho]
    rfl
  · simp [find, hm, ho, bind, Except.bind] at h

end Calls

/-- On any arena propagation ends, resolves each match once at most and unresolves none, and writes
over a result only behind a grand final. Where every pointer leads to a match a result is refused by
its check alone, and then nothing has changed. -/
theorem propagation_ends (ms : List Match) :
    (∀ es, ∃ steps, Cascades ms es steps (run ms es)) ∧
    (∀ id m o, find? ms id = some m → checkOutcome m o = .ok () → ∃ steps,
      Cascades (modify id (·.withOutcome o) ms) (sequel (m.withOutcome o)) steps
        (complete ms id o)) ∧
    (∀ target player,
      List.Forall₂ (Match.Outlasts (Aimed ms)) ms (fill ms target player).state) ∧
    (∀ ids, List.Forall₂ (Match.Outlasts (Aimed ms)) ms (resolveByes ms ids).state) ∧
    (∀ id o, List.Forall₂ (Match.Outlasts (Aimed ms)) ms (complete ms id o).state) ∧
    (Connected ms → ∀ id o,
      (complete ms id o).answer = (find ms id >>= fun m => checkOutcome m o) ∧
      ∀ f, (complete ms id o).answer = .error f → (complete ms id o).state = ms) := by
  refine ⟨exists_cascades ms, fun id m o hm ho => ?_, outlasts_fill, outlasts_resolveByes,
    outlasts_complete, fun hc id o => ?_⟩
  · rw [complete_of_checked hm ho]
    exact exists_cascades _ _
  · have hans := hc.answer_complete id o
    exact ⟨hans, fun f hf => state_complete_of_refused (hans.symm.trans hf)⟩

/-- A match that sends its loser back to itself and its winner round in a circle, into a match won
without play, behind which stands another of the same id. -/
def looped : List Match :=
  [{ Match.seated ⟨1⟩ 1 0 .main (some "A") (some "B") with
      next := some ⟨⟨2⟩, .first⟩, loserNext := some ⟨⟨1⟩, .second⟩ },
    { Match.seated ⟨2⟩ 2 0 .main none none with
      seat1 := {}, next := some ⟨⟨1⟩, .first⟩, loserNext := some ⟨⟨2⟩, .second⟩ },
    { Match.seated ⟨2⟩ 3 0 .main (some "C") (some "D") with next := some ⟨⟨2⟩, .first⟩ }]

theorem propagation_ends_looped :
    Connected looped ∧ (complete looped ⟨1⟩ ⟨"A", {}⟩).answer = .ok () := by
  have hc : Connected looped := by unfold Connected; decide
  exact ⟨hc, ((propagation_ends looped).2.2.2.2.2 hc ⟨1⟩ ⟨"A", {}⟩).1⟩

end Arena

end Tourney
