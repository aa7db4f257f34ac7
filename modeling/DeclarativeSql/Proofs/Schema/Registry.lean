import DeclarativeSql.Schema.Registry
import Mathlib.Data.List.Basic

/-!
# What a registry accepts

A name keeps the type that it had first. A definition is accepted exactly if its type is the one of
its name and it may be as it is, and the registry remembers of it nothing but the type that decides
about further definitions.
-/
namespace DeclarativeSql.Registry

/-- Every definition may be as it is, and it has the type of its name. -/
structure IsSound (r : Registry) : Prop where
  valid : ∀ d ∈ r.definitions, d.validate = .ok ()
  sqlType : ∀ d ∈ r.definitions, r.sqlType? d.name = some d.sqlType

theorem isSound_empty : empty.IsSound := by
  constructor <;> simp [empty]

/-- The name has the type in the registry, or is to have it. -/
def Asks (r : Registry) (ds : List ColumnDef) (name : String) (t : SqlType) : Prop :=
  r.sqlType? name = some t ∨ ∃ d ∈ ds, d.name = name ∧ d.sqlType = t

/-- No name is to have two types. -/
def AgreesOn (r : Registry) (ds : List ColumnDef) : Prop :=
  ∀ name t u, r.Asks ds name t → r.Asks ds name u → t = u

section

variable {r : Registry} {d : ColumnDef} {ds : List ColumnDef}

theorem Asks.mono {es : List ColumnDef} (h : ds ⊆ es) {name : String} {t : SqlType} :
    r.Asks ds name t → r.Asks es name t := by
  rintro (ht | ⟨d, hd, hname, ht⟩)
  · exact .inl ht
  · exact .inr ⟨d, h hd, hname, ht⟩

/-- Fewer definitions, in any order, are no harder to agree on. -/
theorem AgreesOn.mono {es : List ColumnDef} (h : r.AgreesOn es) (hsub : ds ⊆ es) :
    r.AgreesOn ds :=
  fun name t u ht hu => h name t u (ht.mono hsub) (hu.mono hsub)

theorem agreesOn_nil : r.AgreesOn [] := by
  rintro name t u (ht | ⟨d, hd, -⟩) (hu | ⟨e, he, -⟩)
  · exact Option.some.inj (ht.symm.trans hu)
  · cases he
  · cases hd
  · cases hd

theorem agreesOn_singleton_iff :
    r.AgreesOn [d] ↔ ∀ t, r.sqlType? d.name = some t → t = d.sqlType := by
  constructor
  · intro h t ht
    exact h d.name t d.sqlType (.inl ht) (.inr ⟨d, by simp, rfl, rfl⟩)
  · rintro h name t u (ht | ⟨_, hd, rfl, rfl⟩) (hu | ⟨_, he, hname, rfl⟩)
    · exact Option.some.inj (ht.symm.trans hu)
    · obtain rfl := List.mem_singleton.mp he
      exact h t (hname ▸ ht)
    · obtain rfl := List.mem_singleton.mp hd
      exact (h u hu).symm
    · rw [List.mem_singleton.mp hd, List.mem_singleton.mp he]

theorem sqlType?_append (name : String) :
    sqlType? ⟨r.definitions ++ [d]⟩ name =
      (r.sqlType? name).or (if d.name = name then some d.sqlType else none) := by
  simp only [sqlType?, find?, List.find?_append, Option.map_or]
  by_cases h : d.name = name <;> simp [h]

theorem append_of_error {e : ConstructionError} (h : (r.append d).1 = .error e) :
    (r.append d).2 = r := by
  unfold append at h ⊢
  split
  next => rfl
  next hok => simp [hok] at h

/-- A definition is refused because of its type or because it may not be appended, and in either
case before anything is registered. -/
theorem define_of_error {name : String} {t : SqlType} {flags : ColumnFlags}
    {e : ConstructionError} (h : (r.define name t flags).1 = .error e) :
    (r.define name t flags).2 = r := by
  unfold define at h ⊢
  split at h
  next => exact append_of_error h
  next existing hexisting =>
    by_cases hne : existing ≠ t
    · rw [if_pos hne]
    · rw [if_neg hne] at h ⊢
      split at h
      next => cases h
      next => exact append_of_error h

theorem exists_append_iff : (∃ defined next, r.append d = (.ok defined, next)) ↔
    d.validate = .ok () := by
  unfold append
  cases d.validate <;> simp

theorem append_eq_ok {defined : Defined} {next : Registry}
    (h : r.append d = (.ok defined, next)) :
    defined = ⟨r.definitions.length, d⟩ ∧ next = ⟨r.definitions ++ [d]⟩ := by
  unfold append at h
  split at h
  next => cases h
  next =>
    obtain ⟨hdefined, rfl⟩ := Prod.mk.inj h
    exact ⟨(Except.ok.inj hdefined).symm, rfl⟩

theorem notMem_of_position? (h : r.position? d.name d.flags = none) : d ∉ r.definitions := by
  intro hd
  have hother := List.findIdx?_eq_none_iff.mp h d hd
  simp at hother

/-- A definition is found by its name and flags, because its type is that of its name. -/
theorem IsSound.getElem?_of_position? (h : r.IsSound) (ht : r.sqlType? d.name = some d.sqlType)
    {i : Nat} (hi : r.position? d.name d.flags = some i) : r.definitions[i]? = some d := by
  obtain ⟨hlt, hfound, -⟩ := List.findIdx?_eq_some_iff_getElem.mp hi
  simp only [Bool.and_eq_true, beq_iff_eq] at hfound
  have htype := h.sqlType _ (List.getElem_mem hlt)
  rw [hfound.1, ht, Option.some.injEq] at htype
  rw [List.getElem?_eq_getElem hlt, Option.some.injEq]
  generalize r.definitions[i] = found at hfound htype
  cases found; cases d
  simp_all

theorem IsSound.exists_define_iff (h : r.IsSound) :
    (∃ defined next, r.define d.name d.sqlType d.flags = (.ok defined, next)) ↔
      r.AgreesOn [d] ∧ d.validate = .ok () := by
  rw [agreesOn_singleton_iff]
  unfold define
  split
  next hnone =>
    rw [exists_append_iff, hnone]
    simp
  next t ht =>
    rw [ht]
    by_cases hne : t = d.sqlType
    · rw [if_neg (not_not.mpr hne)]
      split
      next i hi =>
        -- the definition was found, so it was accepted before
        have hmem := List.mem_of_getElem? (h.getElem?_of_position? (hne ▸ ht) hi)
        simp [hne, h.valid d hmem]
      next =>
        rw [exists_append_iff (d := ⟨d.name, d.sqlType, d.flags⟩)]
        simp [hne]
    · simp [hne]

/-- An accepted definition is found where it is, or it is new and comes last. -/
theorem IsSound.define_cases (h : r.IsSound) {defined : Defined} {next : Registry}
    (hdefine : r.define d.name d.sqlType d.flags = (.ok defined, next)) :
    defined.definition = d ∧
      ((next = r ∧ r.definitions[defined.position]? = some d) ∨
        (next = ⟨r.definitions ++ [d]⟩ ∧ defined.position = r.definitions.length ∧
          d ∉ r.definitions)) := by
  unfold define at hdefine
  split at hdefine
  next hnone =>
    obtain ⟨rfl, rfl⟩ := append_eq_ok hdefine
    have hnew : d ∉ r.definitions := by
      intro hmem
      rw [h.sqlType d hmem] at hnone
      cases hnone
    exact ⟨rfl, .inr ⟨rfl, rfl, hnew⟩⟩
  next t ht =>
    split at hdefine
    next => cases hdefine
    next hsame =>
      obtain rfl := not_not.mp hsame
      split at hdefine
      next i hi =>
        obtain ⟨hdefined, rfl⟩ := Prod.mk.inj hdefine
        obtain rfl := Except.ok.inj hdefined
        exact ⟨rfl, .inl ⟨rfl, h.getElem?_of_position? ht hi⟩⟩
      next hnone =>
        obtain ⟨rfl, rfl⟩ := append_eq_ok hdefine
        exact ⟨rfl, .inr ⟨rfl, rfl, notMem_of_position? hnone⟩⟩

theorem IsSound.concat (h : r.IsSound) (hagrees : r.AgreesOn [d]) (hvalid : d.validate = .ok ()) :
    IsSound ⟨r.definitions ++ [d]⟩ where
  valid := by
    intro e he
    rcases List.mem_append.mp he with he | he
    · exact h.valid e he
    · rwa [List.mem_singleton.mp he]
  sqlType := by
    intro e he
    rw [sqlType?_append]
    rcases List.mem_append.mp he with he | he
    · rw [h.sqlType e he]
      rfl
    · obtain rfl := List.mem_singleton.mp he
      cases ht : r.sqlType? e.name with
      | none => simp
      | some t => simp [agreesOn_singleton_iff.mp hagrees t ht]

theorem asks_concat_iff (hagrees : r.AgreesOn [d]) {name : String} {t : SqlType} :
    Asks ⟨r.definitions ++ [d]⟩ ds name t ↔ r.Asks (d :: ds) name t := by
  simp only [Asks, sqlType?_append, List.mem_cons, or_and_right, exists_or]
  rw [← or_assoc]
  refine or_congr_left ?_
  by_cases hn : d.name = name
  · cases ht : r.sqlType? name with
    | none => simp [hn]
    | some u =>
      have hu := agreesOn_singleton_iff.mp hagrees u (hn ▸ ht)
      simp [hn, hu]
  · cases r.sqlType? name <;> simp [hn]

theorem IsSound.asks_cons_iff (h : r.IsSound) (hd : d ∈ r.definitions) {name : String}
    {t : SqlType} : r.Asks (d :: ds) name t ↔ r.Asks ds name t := by
  constructor
  · rintro (hasked | ⟨e, he, rfl, rfl⟩)
    · exact .inl hasked
    · rcases List.mem_cons.mp he with rfl | he
      · exact .inl (h.sqlType e hd)
      · exact .inr ⟨e, he, rfl, rfl⟩
  · exact Asks.mono (List.subset_cons_self d ds)

theorem IsSound.define (h : r.IsSound) {defined : Defined} {next : Registry}
    (hdefine : r.define d.name d.sqlType d.flags = (.ok defined, next)) :
    defined.definition = d ∧ next.IsSound ∧
      ∀ ds name t, next.Asks ds name t ↔ r.Asks (d :: ds) name t := by
  obtain ⟨hagrees, hvalid⟩ := h.exists_define_iff.mp ⟨_, _, hdefine⟩
  obtain ⟨hsame, ⟨rfl, hfound⟩ | ⟨rfl, -, -⟩⟩ := h.define_cases hdefine
  · exact ⟨hsame, h, fun ds name t => (h.asks_cons_iff (List.mem_of_getElem? hfound)).symm⟩
  · exact ⟨hsame, h.concat hagrees hvalid, fun ds name t => asks_concat_iff hagrees⟩

/-- Whatever the answer is, the registry stays sound. -/
theorem IsSound.next (h : r.IsSound) (name : String) (t : SqlType) (flags : ColumnFlags) :
    (r.define name t flags).2.IsSound := by
  cases hanswer : (r.define name t flags).1 with
  | error e => rwa [define_of_error hanswer]
  | ok defined => exact (h.define (d := ⟨name, t, flags⟩) (Prod.ext hanswer rfl)).2.1

theorem agreesOn_cons_iff {next : Registry}
    (hasks : ∀ ds name t, next.Asks ds name t ↔ r.Asks (d :: ds) name t) :
    next.AgreesOn ds ↔ r.AgreesOn (d :: ds) := by
  simp only [AgreesOn, hasks]

end

end DeclarativeSql.Registry
