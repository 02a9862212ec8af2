import Mathlib.Data.List.Forall2
import Tourney.Fault

/-!
# Computations that may be refused

What the parts of a computation have answered once the whole has, for sequencing and for lists.
-/

namespace Tourney

variable {α β γ ε : Type}

theorem bind_eq_ok {x : Except ε α} {f : α → Except ε β} {b : β} :
    (x >>= f) = .ok b ↔ ∃ a, x = .ok a ∧ f a = .ok b := by
  cases x with
  | error e => simp [bind, Except.bind]
  | ok a => simp [bind, Except.bind]

theorem bind_eq_error {x : Except ε α} {f : α → Except ε β} {e : ε} :
    (x >>= f) = .error e ↔ x = .error e ∨ ∃ a, x = .ok a ∧ f a = .error e := by
  cases x with
  | error e' => simp [bind, Except.bind]
  | ok a => simp [bind, Except.bind]

theorem isOk_iff {x : Except ε α} : x.isOk ↔ ∃ a, x = .ok a := by
  cases x with
  | error e => simp [Except.isOk, Except.toBool]
  | ok a => simp [Except.isOk, Except.toBool]

theorem map_eq_ok {x : Except ε α} {f : α → β} {b : β} :
    x.map f = .ok b ↔ ∃ a, x = .ok a ∧ f a = b := by
  cases x with
  | error e => simp [Except.map]
  | ok a => simp [Except.map]

theorem map_eq_error {x : Except ε α} {f : α → β} {e : ε} :
    x.map f = .error e ↔ x = .error e := by
  cases x with
  | error e' => simp [Except.map]
  | ok a => simp [Except.map]

theorem mapM_eq_ok {f : α → Except ε β} {xs : List α} {ys : List β} :
    xs.mapM f = .ok ys ↔ List.Forall₂ (fun x y => f x = .ok y) xs ys := by
  induction xs generalizing ys with
  | nil =>
    rw [List.mapM_nil, List.forall₂_nil_left_iff]
    exact ⟨fun h => by cases h; rfl, fun h => by rw [h]; rfl⟩
  | cons x xs ih =>
    rw [List.mapM_cons, bind_eq_ok]
    constructor
    · rintro ⟨y, hy, h⟩
      obtain ⟨ys', hys, h⟩ := bind_eq_ok.1 h
      cases h
      exact .cons hy (ih.1 hys)
    · rintro (_ | ⟨hy, hys⟩)
      exact ⟨_, hy, bind_eq_ok.2 ⟨_, ih.2 hys, rfl⟩⟩

theorem mapM_eq_error {f : α → Except ε β} {xs : List α} {e : ε} (h : xs.mapM f = .error e) :
    ∃ x ∈ xs, f x = .error e := by
  induction xs with
  | nil => cases h
  | cons x xs ih =>
    rw [List.mapM_cons, bind_eq_error] at h
    rcases h with h | ⟨y, -, h⟩
    · exact ⟨x, List.mem_cons_self, h⟩
    · rcases bind_eq_error.1 h with h | ⟨ys, -, h⟩
      · obtain ⟨a, ha, hf⟩ := ih h
        exact ⟨a, List.mem_cons_of_mem _ ha, hf⟩
      · cases h

theorem mapM_ok {f : α → Except ε β} {R : α → β → Prop} {xs : List α}
    (h : ∀ x ∈ xs, ∃ y, f x = .ok y ∧ R x y) :
    ∃ ys, xs.mapM f = .ok ys ∧ List.Forall₂ R xs ys := by
  induction xs with
  | nil => exact ⟨[], rfl, .nil⟩
  | cons x xs ih =>
    obtain ⟨y, hy, hr⟩ := h x List.mem_cons_self
    obtain ⟨ys, hys, hrs⟩ := ih fun a ha => h a (List.mem_cons_of_mem _ ha)
    refine ⟨y :: ys, ?_, .cons hr hrs⟩
    rw [List.mapM_cons, hy, hys]
    rfl

/-- What holds of the steps that are left and of the result so far holds at the end. -/
theorem foldlM_ok {f : β → α → Except ε β} {P : List α → β → Prop}
    (hstep : ∀ x xs b, P (x :: xs) b → ∃ b', f b x = .ok b' ∧ P xs b') {xs : List α} {b : β}
    (h : P xs b) : ∃ b', xs.foldlM f b = .ok b' ∧ P [] b' := by
  induction xs generalizing b with
  | nil => exact ⟨b, rfl, h⟩
  | cons x xs ih =>
    obtain ⟨b₁, hb₁, h₁⟩ := hstep x xs b h
    obtain ⟨b', hb', h'⟩ := ih h₁
    exact ⟨b', by rw [List.foldlM_cons]; exact bind_eq_ok.2 ⟨b₁, hb₁, hb'⟩, h'⟩

/-- What holds of the steps that are left and of the result so far holds at the end, unless one of
the steps ends it all. -/
theorem foldlM_cases {f : β → α → Except ε β} {P : List α → β → Prop} {q : Prop} {e : ε}
    (hstep : ∀ x xs b, P (x :: xs) b →
      (∃ b', f b x = .ok b' ∧ P xs b') ∨ q ∧ f b x = .error e) {xs : List α} {b : β} (h : P xs b) :
    (∃ b', xs.foldlM f b = .ok b' ∧ P [] b') ∨ q ∧ xs.foldlM f b = .error e := by
  induction xs generalizing b with
  | nil => exact .inl ⟨b, rfl, h⟩
  | cons x xs ih =>
    rw [List.foldlM_cons]
    rcases hstep x xs b h with ⟨b₁, hb₁, h₁⟩ | ⟨hq, he⟩
    · rw [hb₁]
      exact ih h₁
    · exact .inr ⟨hq, bind_eq_error.2 (.inl he)⟩

/-- What every step keeps that goes through, the whole keeps. -/
theorem foldlM_keeps {f : β → α → Except ε β} {P : β → Prop}
    (hstep : ∀ b x b', P b → f b x = .ok b' → P b') {xs : List α} {b b' : β} (h : P b)
    (hf : xs.foldlM f b = .ok b') : P b' := by
  induction xs generalizing b with
  | nil =>
    cases hf
    exact h
  | cons x xs ih =>
    rw [List.foldlM_cons] at hf
    obtain ⟨b₁, hb₁, hf⟩ := bind_eq_ok.1 hf
    exact ih (hstep b x b₁ h hb₁) hf

/-! ## Lists in step -/

theorem exists_left {R : α → β → Prop} {as : List α} {bs : List β} (h : List.Forall₂ R as bs)
    {b : β} (hb : b ∈ bs) : ∃ a ∈ as, R a b := by
  induction h with
  | nil => simp at hb
  | cons hab _ ih =>
    rcases List.mem_cons.1 hb with rfl | hb
    · exact ⟨_, List.mem_cons_self, hab⟩
    · obtain ⟨a, ha, hr⟩ := ih hb
      exact ⟨a, List.mem_cons_of_mem _ ha, hr⟩

theorem exists_right {R : α → β → Prop} {as : List α} {bs : List β} (h : List.Forall₂ R as bs)
    {a : α} (ha : a ∈ as) : ∃ b ∈ bs, R a b := by
  obtain ⟨b, hb, hr⟩ := exists_left (R := fun b a => R a b) h.flip ha
  exact ⟨b, hb, hr⟩

theorem forall₂_trans {R : α → β → Prop} {S : β → γ → Prop} {T : α → γ → Prop}
    {as : List α} {bs : List β} {cs : List γ} (h : List.Forall₂ R as bs)
    (h' : List.Forall₂ S bs cs) (hT : ∀ a b c, R a b → S b c → T a c) : List.Forall₂ T as cs := by
  induction h generalizing cs with
  | nil =>
    cases h'
    exact .nil
  | cons hab _ ih =>
    cases h' with
    | cons hbc h' => exact .cons (hT _ _ _ hab hbc) (ih h')

/-! ## Numbers that may leave their range -/

/-- The computation answers as specified, or a number leaves its range, which `fit` rules out. -/
def Yields (fit : Prop) (x : Except Fault α) (P : α → Prop) : Prop :=
  (∃ a, x = .ok a ∧ P a) ∨ ¬fit ∧ x = .error .outOfRange

namespace Yields

variable {fit fit' : Prop} {x : Except Fault α} {P Q : α → Prop}

theorem pure {a : α} (h : P a) : Yields fit (.ok a) P := .inl ⟨a, rfl, h⟩

theorem imp (h : Yields fit x P) (hfit : fit' → fit) (hP : ∀ a, P a → Q a) : Yields fit' x Q := by
  rcases h with ⟨a, ha, h⟩ | ⟨hn, h⟩
  · exact .inl ⟨a, ha, hP a h⟩
  · exact .inr ⟨fun hc => hn (hfit hc), h⟩

theorem bind {f : α → Except Fault β} {R : β → Prop} (h : Yields fit x P)
    (hf : ∀ a, P a → Yields fit (f a) R) : Yields fit (x >>= f) R := by
  rcases h with ⟨a, rfl, h⟩ | ⟨hn, rfl⟩
  · exact hf a h
  · exact .inr ⟨hn, rfl⟩

theorem exists_ok (h : Yields fit x P) (hfit : fit) : ∃ a, x = .ok a ∧ P a :=
  h.resolve_right fun hc => hc.1 hfit

theorem of_ok (h : Yields fit x P) {a : α} (hx : x = .ok a) : P a := by
  rcases h with ⟨b, hb, h⟩ | ⟨-, h⟩
  · rw [hx] at hb
    cases hb
    exact h
  · rw [hx] at h
    cases h

end Yields

/-- Whatever stops the computation is a number that leaves its range. -/
def OnlyRange (x : Except Fault α) : Prop := ∀ f, x = .error f → f = .outOfRange

theorem Yields.onlyRange {fit : Prop} {x : Except Fault α} {P : α → Prop} (h : Yields fit x P) :
    OnlyRange x := by
  rintro f hf
  rcases h with ⟨a, ha, -⟩ | ⟨-, h⟩
  · rw [hf] at ha
    cases ha
  · exact Except.error.inj (hf.symm.trans h)

namespace OnlyRange

theorem ok (a : α) : OnlyRange (.ok a) := nofun

theorem bind {x : Except Fault α} {f : α → Except Fault β} (hx : OnlyRange x)
    (hf : ∀ a, OnlyRange (f a)) : OnlyRange (x >>= f) := fun e he => by
  rcases bind_eq_error.1 he with he | ⟨a, -, he⟩
  · exact hx e he
  · exact hf a e he

theorem map {x : Except Fault α} (hx : OnlyRange x) (f : α → β) : OnlyRange (x.map f) :=
  fun e he => hx e (map_eq_error.1 he)

theorem mapM {f : α → Except Fault β} (hf : ∀ a, OnlyRange (f a)) (xs : List α) :
    OnlyRange (xs.mapM f) := fun e he => by
  obtain ⟨a, -, he⟩ := mapM_eq_error he
  exact hf a e he

theorem foldlM {f : β → α → Except Fault β} (hf : ∀ b a, OnlyRange (f b a)) (xs : List α)
    (b : β) : OnlyRange (xs.foldlM f b) := by
  induction xs generalizing b with
  | nil => exact ok b
  | cons x xs ih =>
    rw [List.foldlM_cons]
    exact (hf b x).bind ih

end OnlyRange

/-! ## Counters -/

theorem Counter.add_eq_ok {a b c : UInt32} :
    Counter.add a b = .ok c ↔ c.toNat = a.toNat + b.toNat := by
  unfold Counter.add
  split_ifs with h
  · have hab : (a + b).toNat = a.toNat + b.toNat := by
      rw [UInt32.toNat_add, Nat.mod_eq_of_lt h]
    rw [← hab, Except.ok.injEq, UInt32.toNat_inj, eq_comm]
  · refine ⟨fun hc => (nomatch hc), fun hc => ?_⟩
    have hlt : c.toNat < UInt32.size := c.toNat_lt
    omega

theorem Counter.add_eq_error {a b : UInt32} {f : Fault} (h : Counter.add a b = .error f) :
    f = .outOfRange := by
  unfold Counter.add at h
  split_ifs at h
  cases h
  rfl

theorem Counter.onlyRange_add (a b : UInt32) : OnlyRange (Counter.add a b) :=
  fun _ h => Counter.add_eq_error h

theorem MatchId.plus?_yields (id : MatchId) (k : Nat) :
    Yields (id.val.toNat + k < UInt32.size) (id.plus? k) fun next =>
      next = id.plus k ∧ id.val.toNat + k < UInt32.size := by
  by_cases h : id.val.toNat + k < UInt32.size
  · exact .inl ⟨_, if_pos h, rfl, h⟩
  · exact .inr ⟨h, if_neg h⟩

end Tourney
