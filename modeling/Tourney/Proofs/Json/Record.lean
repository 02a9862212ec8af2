import Tourney.Json.Record
import Tourney.Proofs.Json.Reader

/-!
# Records read back

A value is written faithfully if the scanner understands what is written and the reader takes it
for that value (`Faithful`). So are texts and numbers, and lists, options and choices of what is
written faithfully. A record is if its fields are (`Faithful.record`), for its names stand once each
(`fields?_zip`).
-/

namespace Tourney.Json

variable {α : Type}

/-- What is written of a value is read as that value. -/
structure Faithful (write : α → Json) (read : Json → Option α) (a : α) : Prop where
  wellSpelled : WellSpelled (write a)
  reads : read (write a) = some a

/-- The value of a field is read as the part that it stands for. -/
structure Field (read : Option Json → Option α) (v : Json) (a : α) : Prop where
  wellSpelled : WellSpelled v
  reads : read (some v) = some a

/-! ## Values -/

theorem faithful_ofString (s : String) : Faithful ofString string? s :=
  ⟨.text _ (spelled_spell s), string?_ofString s⟩

theorem faithful_ofUInt32 (n : UInt32) : Faithful ofUInt32 uint32? n :=
  ⟨.number _ (numberSpelled_toString n.toNat), uint32?_ofUInt32 n⟩

theorem faithful_ofUInt64 (n : UInt64) : Faithful ofUInt64 uint64? n :=
  ⟨.number _ (numberSpelled_toString n.toNat), uint64?_ofUInt64 n⟩

theorem faithful_ofDouble {x : Double} (hx : x.isFinite) : Faithful ofDouble double? x := by
  refine ⟨?_, double?_ofDouble hx⟩
  rw [ofDouble, if_pos hx]
  exact .number _ (numberSpelled_text hx)

theorem faithful_bool (b : Bool) : Faithful .bool bool? b := ⟨.bool b, rfl⟩

/-- A choice is written by a name of its own. -/
theorem faithful_choice {name : α → String} {named? : String → Option α} {a : α}
    (h : named? (name a) = some a) : Faithful (fun a => ofString (name a)) (choice? named?) a := by
  refine ⟨.text _ (spelled_spell _), ?_⟩
  have hname : choiceName? (ofString (name a)) = some (name a) := unspell?_spell _
  rw [choice?, hname]
  exact h

/-! ## Lists and fields -/

section Containers

variable {write : α → Json} {read : Json → Option α}

theorem Faithful.list {as : List α} (h : ∀ a ∈ as, Faithful write read a) :
    Faithful (ofList write) (list? read) as := by
  refine ⟨.array _ fun v hv => ?_, ?_⟩
  · obtain ⟨a, ha, rfl⟩ := List.mem_map.1 hv
    exact (h a ha).wellSpelled
  · change (as.map write).mapM read = some as
    induction as with
    | nil => rfl
    | cons a as ih =>
      have hrest := ih fun a' ha => h a' (List.mem_cons_of_mem _ ha)
      rw [List.map_cons, List.mapM_cons, (h a List.mem_cons_self).reads, hrest]
      rfl

theorem Faithful.required {a : α} (h : Faithful write read a) :
    Field (required? read) (write a) a := ⟨h.wellSpelled, h.reads⟩

/-- An option of what is never written as a null. -/
theorem Faithful.optional {o : Option α} (h : ∀ a ∈ o, Faithful write read a)
    (hnull : ∀ a, write a ≠ .null) : Field (optional? read) (ofOption write o) o := by
  cases o with
  | none => exact ⟨.null, rfl⟩
  | some a =>
    have ha := h a rfl
    refine ⟨ha.wellSpelled, ?_⟩
    rw [ofOption, optional?, ha.reads]
    · rfl
    · exact hnull a

end Containers

/-! ## Records -/

/-- Names that can stand in one object as they are. -/
structure FieldNames (names : List String) : Prop where
  plain : names.all isPlain
  nodup : names.Nodup

section Records

variable {names : List String} {vs : List Json}

theorem unspellNames?_of_isPlain {es : List (String × Json)} (h : ∀ e ∈ es, isPlain e.1) :
    unspellNames? es = some es := by
  rw [unspellNames?]
  induction es with
  | nil => rfl
  | cons e es ih =>
    obtain ⟨name, v⟩ := e
    rw [List.mapM_cons, ih fun e' he => h e' (List.mem_cons_of_mem _ he)]
    simp [unspell?_of_isPlain (h (name, v) List.mem_cons_self)]

theorem mapM_entryNamed? (hlen : vs.length = names.length) (hnodup : names.Nodup)
    (es : List (String × Json)) (hes : ∀ e ∈ es, e.1 ∉ names) :
    names.mapM (entryNamed? (es ++ names.zip vs)) = some (vs.map some) := by
  induction names generalizing vs es with
  | nil =>
    rw [List.length_nil, List.length_eq_zero_iff] at hlen
    subst hlen
    rfl
  | cons name names ih =>
    cases vs with
    | nil => cases hlen
    | cons v vs =>
      obtain ⟨hname, hnodup⟩ := List.nodup_cons.1 hnodup
      have hentry : entryNamed? (es ++ (name :: names).zip (v :: vs)) name = some (some v) := by
        have hbefore : es.filter (·.1 = name) = [] :=
          List.filter_eq_nil_iff.2 fun e he heq => hes e he (by simp_all)
        have hafter : (names.zip vs).filter (·.1 = name) = [] :=
          List.filter_eq_nil_iff.2 fun e he heq => hname (by
            rw [← of_decide_eq_true heq]
            exact (List.of_mem_zip he).1)
        rw [entryNamed?, List.filter_append, List.zip_cons_cons, List.filter_cons, hbefore,
          hafter]
        simp
      have hrest := ih (by simpa using hlen) hnodup (es ++ [(name, v)]) fun e he => by
        rcases List.mem_append.1 he with he | he
        · exact fun hmem => hes e he (List.mem_cons_of_mem _ hmem)
        · rw [List.mem_singleton.1 he]
          exact hname
      rw [List.append_assoc, List.singleton_append, ← List.zip_cons_cons] at hrest
      rw [List.mapM_cons, hentry, hrest]
      rfl

/-- The fields of an object that gives each name its value. -/
theorem fields?_zip (hnames : FieldNames names) (hlen : vs.length = names.length) :
    fields? names (.object (names.zip vs)) = some (vs.map some) := by
  have hplain : ∀ e ∈ names.zip vs, isPlain e.1 := fun e he =>
    List.all_eq_true.1 hnames.plain e.1 (List.of_mem_zip he).1
  rw [fields?, unspellNames?_of_isPlain hplain]
  exact mapM_entryNamed? hlen hnames.nodup [] nofun

theorem wellSpelled_zip (hnames : FieldNames names) (hvs : ∀ v ∈ vs, WellSpelled v) :
    WellSpelled (.object (names.zip vs)) :=
  .object _ (fun e he => spelled_of_isPlain
    (List.all_eq_true.1 hnames.plain e.1 (List.of_mem_zip he).1))
    fun e he => hvs e.2 (List.of_mem_zip he).2

/-- A record is written faithfully if its values can be scanned and are put together again. -/
theorem Faithful.record {write : α → Json} {read : Json → Option α} {a : α}
    {build : List (Option Json) → Option α} (names : List String) (vs : List Json)
    (hnames : FieldNames names)
    (hread : ∀ j, read j = (fields? names j).bind build)
    (hwrite : write a = .object (names.zip vs)) (hlen : vs.length = names.length)
    (hvs : ∀ v ∈ vs, WellSpelled v) (hbuild : build (vs.map some) = some a) :
    Faithful write read a := by
  refine ⟨hwrite ▸ wellSpelled_zip hnames hvs, ?_⟩
  rw [hread, hwrite, fields?_zip hnames hlen]
  exact hbuild

end Records

end Tourney.Json
