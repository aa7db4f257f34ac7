import DeclarativeSql.Proofs.Schema.Registry
import Mathlib.Data.List.Nodup

/-!
# Shared definitions

Requests to a registry are answered one after the other. Whatever is asked for, refused requests
included, the definitions of a name have one type and differ in their flags, so a definition has one
place only. A request is refused because of the type of its name or because it could not count, and
two answers are the same definition exactly if the same was asked for.
-/
namespace DeclarativeSql

/-- A definition counts upwards by itself, but its type has no such form. -/
def ColumnDef.CountsInVain (d : ColumnDef) : Prop :=
  d.isSerial = true ∧ d.sqlType ≠ .scalar .int32 ∧ d.sqlType ≠ .scalar .int64

theorem ColumnDef.countsInVain_iff {d : ColumnDef} : d.CountsInVain ↔ ¬ d.validate = .ok () := by
  have htypes : d.sqlType.supportsSerial = true ↔
      d.sqlType = .scalar .int32 ∨ d.sqlType = .scalar .int64 := by
    rcases d.sqlType with s | s <;> cases s <;> simp [SqlType.supportsSerial, Scalar.supportsSerial]
  rw [validate_eq_ok_iff, htypes, CountsInVain]
  tauto

namespace Registry

/-- What a registry is asked for. -/
inductive Request
  | define (name : String) (sqlType : SqlType) (flags : ColumnFlags)
  | column (name : String) (fieldType : FieldType) (flags : ColumnFlags)

/-- The definition that is asked for, with the flags that the type of a field implies. -/
def Request.definition : Request → ColumnDef
  | define name sqlType flags => ⟨name, sqlType, flags⟩
  | column name t flags => ⟨name, t.sqlType, flags ||| t.implied⟩

/-- The answer to a request, and the registry afterwards. -/
def answer (r : Registry) : Request → Except ConstructionError Defined × Registry
  | .define name sqlType flags => r.define name sqlType flags
  | .column name t flags => r.column name t flags

/-- Requests with their answers, and the registry at the end. -/
def answerAll (r : Registry) :
    List Request → List (Request × Except ConstructionError Defined) × Registry
  | [] => ([], r)
  | q :: rest =>
    let (answer, r) := r.answer q
    let (answered, r) := r.answerAll rest
    ((q, answer) :: answered, r)

/-- The definitions that a name has, in the order in which they were made. -/
def variants (r : Registry) (name : String) : List ColumnDef :=
  r.definitions.filter (·.name == name)

/-- The name has a definition of another type. -/
def Conflicts (r : Registry) (d : ColumnDef) : Prop :=
  ∃ other ∈ r.definitions, other.name = d.name ∧ other.sqlType ≠ d.sqlType

/-- A registry that shares its definitions: none is in two places. -/
structure IsShared (r : Registry) : Prop extends r.IsSound where
  distinct : r.definitions.Nodup

theorem isShared_empty : empty.IsShared := ⟨isSound_empty, List.nodup_nil⟩

section

variable {r next : Registry} {d : ColumnDef} {defined : Defined}

theorem mem_variants_iff {name : String} :
    d ∈ r.variants name ↔ d ∈ r.definitions ∧ d.name = name := by
  simp [variants]

/-- Definitions of one name have one type, so they differ in their flags. -/
theorem IsShared.nodup_flags (h : r.IsShared) (name : String) :
    ((r.variants name).map (·.flags)).Nodup := by
  refine (h.distinct.filter _).map_on fun d hd e he hflags => ?_
  obtain ⟨hmem, rfl⟩ := mem_variants_iff.mp hd
  obtain ⟨hother, hname⟩ := mem_variants_iff.mp he
  have htype := (h.sqlType d hmem).symm.trans (hname ▸ h.sqlType e hother)
  cases d; cases e
  simp_all

theorem IsSound.conflicts_iff (h : r.IsSound) : r.Conflicts d ↔ ¬ r.AgreesOn [d] := by
  rw [agreesOn_singleton_iff, Conflicts]
  constructor
  · rintro ⟨other, hmem, hname, htype⟩ hagrees
    exact htype (hagrees _ (hname ▸ h.sqlType other hmem))
  · intro hagrees
    by_contra hnone
    refine hagrees fun t ht => ?_
    obtain ⟨first, hfirst, rfl⟩ := Option.map_eq_some_iff.mp ht
    have hname : first.name = d.name := by simpa using List.find?_some hfirst
    by_contra htype
    exact hnone ⟨first, List.mem_of_find?_eq_some hfirst, hname, htype⟩

theorem answer_eq (r : Registry) (q : Request) :
    r.answer q = r.define q.definition.name q.definition.sqlType q.definition.flags := by
  cases q <;> rfl

/-- Definitions made before stay in their places, and the one asked for has a place as well. -/
theorem IsShared.define (h : r.IsShared)
    (hdefine : r.define d.name d.sqlType d.flags = (.ok defined, next)) :
    next.IsShared ∧ r.definitions <+: next.definitions ∧ defined.definition = d ∧
      next.definitions[defined.position]? = some d := by
  obtain ⟨-, hsound, -⟩ := h.toIsSound.define hdefine
  obtain ⟨hsame, ⟨rfl, hfound⟩ | ⟨rfl, hposition, hnew⟩⟩ := h.toIsSound.define_cases hdefine
  · exact ⟨h, List.prefix_rfl, hsame, hfound⟩
  · refine ⟨⟨hsound, ?_⟩, List.prefix_append _ _, hsame, ?_⟩
    · rw [← List.concat_eq_append]
      exact h.distinct.concat hnew
    · rw [hposition, List.getElem?_concat_length]

theorem answer_of_error {q : Request} {e : ConstructionError}
    (h : (r.answer q).1 = .error e) : (r.answer q).2 = r := by
  rw [answer_eq] at h ⊢
  exact define_of_error h

theorem IsSound.exists_refusal_iff (h : r.IsSound) (q : Request) :
    (∃ e, (r.answer q).1 = .error e) ↔
      r.Conflicts q.definition ∨ q.definition.CountsInVain := by
  have haccepted : (∃ e, (r.answer q).1 = .error e) ↔
      ¬ ∃ defined next, r.answer q = (.ok defined, next) := by
    rcases r.answer q with ⟨_ | _, next⟩ <;> simp
  rw [haccepted, answer_eq, h.exists_define_iff, h.conflicts_iff, ColumnDef.countsInVain_iff]
  tauto

/-- The place of a granted definition, which holds what was asked for. -/
def Places (r : Registry) (q : Request) (x : Except ConstructionError Defined) : Prop :=
  ∀ defined, x = .ok defined → defined.definition = q.definition ∧
    r.definitions[defined.position]? = some q.definition

theorem Places.mono {q : Request} {x : Except ConstructionError Defined} (h : r.Places q x)
    (hgrows : r.definitions <+: next.definitions) : next.Places q x := by
  intro defined hx
  obtain ⟨hsame, hplace⟩ := h defined hx
  obtain ⟨hlt, hget⟩ := List.getElem?_eq_some_iff.mp hplace
  exact ⟨hsame, hget ▸ List.prefix_iff_getElem?.mp hgrows _ hlt⟩

theorem IsShared.answer (h : r.IsShared) (q : Request) :
    (r.answer q).2.IsShared ∧ r.definitions <+: (r.answer q).2.definitions ∧
      (r.answer q).2.Places q (r.answer q).1 := by
  cases hanswer : (r.answer q).1 with
  | error e =>
    rw [answer_of_error hanswer]
    refine ⟨h, List.prefix_rfl, ?_⟩
    rintro _ ⟨⟩
  | ok defined =>
    have hdefine : r.answer q = (.ok defined, (r.answer q).2) := Prod.ext hanswer rfl
    obtain ⟨hnext, hgrows, hsame, hplace⟩ := h.define ((answer_eq r q).symm.trans hdefine)
    refine ⟨hnext, hgrows, ?_⟩
    rintro _ ⟨rfl⟩
    exact ⟨hsame, hplace⟩

theorem requests_answerAll (r : Registry) (requests : List Request) :
    (r.answerAll requests).1.map (·.1) = requests := by
  induction requests generalizing r with
  | nil => rfl
  | cons q rest ih => exact congrArg (q :: ·) (ih _)

theorem IsShared.answerAll (h : r.IsShared) (requests : List Request) :
    (r.answerAll requests).2.IsShared ∧
      r.definitions <+: (r.answerAll requests).2.definitions ∧
      ∀ answered ∈ (r.answerAll requests).1,
        (r.answerAll requests).2.Places answered.1 answered.2 := by
  induction requests generalizing r with
  | nil => exact ⟨h, List.prefix_rfl, fun _ hmem => (List.not_mem_nil hmem).elim⟩
  | cons q rest ih =>
    obtain ⟨hnext, hgrows, hplaces⟩ := h.answer q
    obtain ⟨hlast, hrest, hall⟩ := ih hnext
    refine ⟨hlast, hgrows.trans hrest, ?_⟩
    intro answered hmem
    rcases List.mem_cons.mp hmem with rfl | hmem
    · exact hplaces.mono hrest
    · exact hall answered hmem

end

/-- After any requests, the definitions of a name are of one type, with flags of their own, and
count only where their type can. The next request is refused exactly if its name has another type
or it would count in vain, and then nothing changes. Two granted requests have one definition
exactly if they ask for the same name, type and flags. -/
theorem definitions_are_shared (requests : List Request) :
    (∀ name, (∀ d ∈ (empty.answerAll requests).2.variants name, d.name = name ∧
          (empty.answerAll requests).2.sqlType? name = some d.sqlType ∧ ¬ d.CountsInVain) ∧
        (((empty.answerAll requests).2.variants name).map (·.flags)).Nodup) ∧
      (∀ q, ((∃ e, ((empty.answerAll requests).2.answer q).1 = .error e) ↔
            (empty.answerAll requests).2.Conflicts q.definition ∨ q.definition.CountsInVain) ∧
          ∀ e, ((empty.answerAll requests).2.answer q).1 = .error e →
            ((empty.answerAll requests).2.answer q).2 = (empty.answerAll requests).2) ∧
      (empty.answerAll requests).1.map (·.1) = requests ∧
      ∀ p q x y, (p, .ok x) ∈ (empty.answerAll requests).1 →
        (q, .ok y) ∈ (empty.answerAll requests).1 → x.definition = p.definition ∧
          (empty.answerAll requests).2.definitions[x.position]? = some p.definition ∧
          (x.position = y.position ↔ p.definition = q.definition) := by
  obtain ⟨hshared, -, hplaces⟩ := isShared_empty.answerAll requests
  refine ⟨fun name => ⟨?_, hshared.nodup_flags name⟩,
    fun q => ⟨hshared.exists_refusal_iff q, fun e => answer_of_error⟩,
    requests_answerAll _ _, ?_⟩
  · intro d hd
    obtain ⟨hmem, rfl⟩ := mem_variants_iff.mp hd
    exact ⟨rfl, hshared.sqlType d hmem,
      fun hvain => ColumnDef.countsInVain_iff.mp hvain (hshared.valid d hmem)⟩
  · intro p q x y hp hq
    obtain ⟨hsame, hx⟩ := hplaces _ hp x rfl
    obtain ⟨-, hy⟩ := hplaces _ hq y rfl
    refine ⟨hsame, hx, ?_, ?_⟩
    · intro hposition
      rw [hposition] at hx
      exact Option.some.inj (hx.symm.trans hy)
    · intro hdefinition
      obtain ⟨hlt, hget⟩ := List.getElem?_eq_some_iff.mp hx
      obtain ⟨hlt', hget'⟩ := List.getElem?_eq_some_iff.mp hy
      exact (hshared.distinct.getElem_inj_iff).mp (hget.trans (hdefinition.trans hget'.symm))

/-- An optional field asks for the same as a column that may be NULL. -/
example : ((empty.answerAll [.column "n" (.optional (.scalar .int64)) .empty,
    .define "n" (.scalar .int64) .nullable]).1.map fun answered =>
      answered.2.toOption.map (·.position)) = [some 0, some 0] := by
  decide

end Registry

end DeclarativeSql
