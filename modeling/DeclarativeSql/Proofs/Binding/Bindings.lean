import DeclarativeSql.Code.Execution
import DeclarativeSql.Proofs.Results
import Mathlib.Data.List.Forall2
import Mathlib.Data.List.Nodup
import Mathlib.Data.Set.Basic
import Mathlib.Logic.Relation

/-!
# Binding parameters

Each parameter of a text gets a value: its own one, or the first one that is bound to its argument.
Arguments are told apart by identity, so what is bound to an argument that no parameter is for does
not matter, nor does the order in which different arguments are bound.
-/
namespace DeclarativeSql

section Lists

variable {ε α β : Type} {f : α → Except ε β}

/-- The first failure decides. -/
theorem mapM_eq_error_iff {xs : List α} {e : ε} :
    xs.mapM f = .error e ↔ ∃ front x back, xs = front ++ x :: back ∧ f x = .error e ∧
      ∀ w ∈ front, ∃ y, f w = .ok y := by
  induction xs with
  | nil => simp [pure, Except.pure]
  | cons x xs ih =>
    rw [List.mapM_cons]
    cases hx : f x with
    | error e' =>
      constructor
      · intro h
        cases h
        exact ⟨[], x, xs, rfl, hx, by simp⟩
      · rintro ⟨_ | ⟨w, front⟩, y, back, hxs, hy, hfront⟩
        · obtain ⟨rfl, -⟩ := List.cons.inj hxs
          cases hx.symm.trans hy
          rfl
        · obtain ⟨rfl, -⟩ := List.cons.inj hxs
          obtain ⟨z, hz⟩ := hfront x List.mem_cons_self
          cases hx.symm.trans hz
    | ok y =>
      have hrest : (do return (← (.ok y : Except ε β)) :: (← xs.mapM f)) = .error e ↔
          xs.mapM f = .error e := by
        cases xs.mapM f <;> simp [bind, Except.bind, pure, Except.pure]
      refine hrest.trans (ih.trans ⟨?_, ?_⟩)
      · rintro ⟨front, z, back, rfl, hz, hfront⟩
        exact ⟨x :: front, z, back, rfl, hz, List.forall_mem_cons.mpr ⟨⟨y, hx⟩, hfront⟩⟩
      · rintro ⟨_ | ⟨w, front⟩, z, back, hxs, hz, hfront⟩
        · obtain ⟨rfl, -⟩ := List.cons.inj hxs
          cases hx.symm.trans hz
        · obtain ⟨rfl, rfl⟩ := List.cons.inj hxs
          exact ⟨front, z, back, rfl, hz, fun w hw => hfront w (List.mem_cons_of_mem _ hw)⟩

end Lists

namespace Bindings

/-- Some value is bound to the argument of this identity. -/
def Binds (bindings : Bindings) (k : Nat) : Prop := ∃ x ∈ bindings, x.1.id = k

/-- The first value that is bound to the argument of this identity. -/
def First (bindings : Bindings) (k : Nat) (v : Value) : Prop :=
  ∃ front x back, bindings = front ++ x :: back ∧ x.1.id = k ∧ x.2 = v ∧ ∀ y ∈ front, y.1.id ≠ k

/-- Entries for two arguments change places, or an entry comes in for an argument that is not
referred to. -/
inductive Rearranges (refers : Nat → Prop) : Bindings → Bindings → Prop
  | swap (front : Bindings) {x y : Argument × Value} (back : Bindings) (h : x.1.id ≠ y.1.id) :
      Rearranges refers (front ++ x :: y :: back) (front ++ y :: x :: back)
  | add (front : Bindings) {x : Argument × Value} (back : Bindings) (h : ¬ refers x.1.id) :
      Rearranges refers (front ++ back) (front ++ x :: back)

variable {bindings bindings' : Bindings} {a : Argument} {v : Value} {refers : Nat → Prop}

theorem value?_eq_some_iff : bindings.value? a = some v ↔ bindings.First a.id v := by
  simp only [value?, Option.map_eq_some_iff, List.find?_eq_some_iff_append, First]
  constructor
  · rintro ⟨x, ⟨hx, front, back, rfl, hfront⟩, rfl⟩
    exact ⟨front, x, back, rfl, by simpa using hx, rfl, by simpa using hfront⟩
  · rintro ⟨front, x, back, rfl, hx, rfl, hfront⟩
    exact ⟨x, ⟨by simpa using hx, front, back, rfl, by simpa using hfront⟩, rfl⟩

theorem value?_eq_none_iff : bindings.value? a = none ↔ ¬ bindings.Binds a.id := by
  simp [value?, Binds]

theorem value?_eq_head?_filter (bindings : Bindings) (a : Argument) :
    bindings.value? a = ((bindings.filter (·.1.id == a.id)).head?).map (·.2) := by
  rw [List.head?_filter, value?]

theorem Rearranges.value?_eq (h : Rearranges refers bindings bindings') (ha : refers a.id) :
    bindings.value? a = bindings'.value? a := by
  rw [value?_eq_head?_filter, value?_eq_head?_filter]
  cases h with
  | swap front back hne =>
    simp only [List.filter_append, List.filter_cons]
    grind
  | add front back hx =>
    simp only [List.filter_append, List.filter_cons]
    grind

theorem value?_of_rearranged (h : Relation.ReflTransGen (Rearranges refers) bindings bindings')
    (ha : refers a.id) : bindings.value? a = bindings'.value? a := by
  induction h with
  | refl => rfl
  | tail _ hstep ih => exact ih.trans (hstep.value?_eq ha)

end Bindings

namespace Parameter

/-- A parameter keeps its name. It carries its own value, or the first one that is bound to its
argument. -/
inductive IsSentAs (bindings : Bindings) : Parameter → BoundParameter → Prop
  | value (name : String) (id : ValueId) (v : Value) :
      IsSentAs bindings ⟨name, .value id v⟩ ⟨name, v⟩
  | argument (name : String) {a : Argument} {v : Value} (h : bindings.First a.id v) :
      IsSentAs bindings ⟨name, .argument a⟩ ⟨name, v⟩

namespace IsSentAs

variable {bindings : Bindings} {p : Parameter} {b : BoundParameter}

theorem name_eq (h : p.IsSentAs bindings b) : b.name = p.name := by cases h <;> rfl

theorem eq_of_value (h : p.IsSentAs bindings b) {id : ValueId} {v : Value}
    (hp : p.source = .value id v) : b = ⟨p.name, v⟩ := by
  cases h with
  | value => cases hp; rfl
  | argument => cases hp

theorem first_of_argument (h : p.IsSentAs bindings b) {a : Argument}
    (hp : p.source = .argument a) : bindings.First a.id b.value := by
  cases h with
  | value => cases hp
  | argument name hfirst => cases hp; exact hfirst

end IsSentAs

end Parameter

namespace Compiled

variable {c : Compiled} {bindings bindings' : Bindings} {bound bound' : List BoundParameter}
  {p : Parameter} {e : ConstructionError} {a : Argument}

theorem bindParameter_eq_ok_iff {b : BoundParameter} :
    bindParameter bindings p = .ok b ↔ p.IsSentAs bindings b := by
  obtain ⟨name, source⟩ := p
  cases source with
  | value id v =>
    constructor
    · intro h
      cases h
      exact .value name id v
    · intro h
      cases h
      rfl
  | argument a =>
    constructor
    · intro h
      simp only [bindParameter] at h
      split at h
      next v hv =>
        cases h
        exact .argument name (Bindings.value?_eq_some_iff.mp hv)
      next => cases h
    · rintro (_ | ⟨_, hv⟩)
      simp only [bindParameter, Bindings.value?_eq_some_iff.mpr hv]

theorem bindParameter_eq_error_iff : bindParameter bindings p = .error e ↔
    ∃ a, p.source = .argument a ∧ ¬ bindings.Binds a.id ∧ e = .unboundArgument a.name := by
  obtain ⟨name, source⟩ := p
  cases source with
  | value id v => simp [bindParameter]
  | argument a =>
    simp only [bindParameter, ParameterSource.argument.injEq, exists_eq_left',
      ← Bindings.value?_eq_none_iff]
    cases bindings.value? a <;> simp [eq_comm]

theorem bind_eq_ok_iff :
    c.bind bindings = .ok bound ↔
      List.Forall₂ (Parameter.IsSentAs bindings) c.parameters bound := by
  simp only [bind, mapM_eq_ok_iff, bindParameter_eq_ok_iff]

theorem bind_eq_error_iff : c.bind bindings = .error e ↔ ∃ front p back a,
    c.parameters = front ++ p :: back ∧ p.source = ParameterSource.argument a ∧
      ¬ bindings.Binds a.id ∧ e = .unboundArgument a.name ∧
      ∀ q ∈ front, ∃ b, q.IsSentAs bindings b := by
  simp only [bind, mapM_eq_error_iff, bindParameter_eq_error_iff, bindParameter_eq_ok_iff]
  grind

theorem exists_of_bind (h : c.bind bindings = .ok bound) {n : Nat}
    (hp : c.parameters[n]? = some p) : ∃ b, bound[n]? = some b ∧ p.IsSentAs bindings b := by
  have hall := bind_eq_ok_iff.mp h
  obtain ⟨hn, rfl⟩ := List.getElem?_eq_some_iff.mp hp
  have hn' : n < bound.length := hall.length_eq ▸ hn
  exact ⟨bound[n], List.getElem?_eq_getElem hn', hall.get hn hn'⟩

theorem names_of_bind (h : c.bind bindings = .ok bound) :
    bound.map (·.name) = c.parameters.map (·.name) := by
  have hall := bind_eq_ok_iff.mp h
  generalize c.parameters = ps at hall
  clear h
  induction hall with
  | nil => rfl
  | cons hp _ ih => rw [List.map_cons, List.map_cons, ih, hp.name_eq]

end Compiled

/-- The parameters are for sources that are referred to, and there is one for each of them. -/
structure Compiled.RefersTo (c : Compiled) (sources : Set ParameterSource) : Prop where
  distinct : (c.parameters.map (·.source.id)).Nodup
  sound : ∀ p ∈ c.parameters, p.source ∈ sources
  complete : ∀ s ∈ sources, ∃ p ∈ c.parameters, p.source.id = s.id

namespace Compiled.RefersTo

variable {c : Compiled} {sources : Set ParameterSource} {bindings bindings' : Bindings}
  {bound bound' : List BoundParameter} {a : Argument}

/-- An argument that is referred to has a parameter, perhaps under another name. -/
theorem exists_argument (h : c.RefersTo sources) (ha : .argument a ∈ sources) :
    ∃ p ∈ c.parameters, ∃ a', p.source = .argument a' ∧ a'.id = a.id := by
  obtain ⟨p, hp, hid⟩ := h.complete _ ha
  cases hsource : p.source with
  | value id v =>
    rw [hsource] at hid
    cases hid
  | argument a' =>
    rw [hsource] at hid
    exact ⟨p, hp, a', hsource, SourceId.argument.inj hid⟩

theorem bind_fails_iff (h : c.RefersTo sources) :
    (∃ name, c.bind bindings = .error (.unboundArgument name)) ↔
      ∃ a, .argument a ∈ sources ∧ ¬ bindings.Binds a.id := by
  constructor
  · rintro ⟨name, hbind⟩
    obtain ⟨front, p, back, a, hparameters, hsource, hbinds, -⟩ := bind_eq_error_iff.mp hbind
    exact ⟨a, hsource ▸ h.sound p (by simp [hparameters]), hbinds⟩
  · rintro ⟨a, ha, hbinds⟩
    obtain ⟨p, hp, a', hsource, hid⟩ := h.exists_argument ha
    cases hbind : c.bind bindings with
    | error e =>
      obtain ⟨_, _, _, b, -, -, -, rfl, -⟩ := bind_eq_error_iff.mp hbind
      exact ⟨b.name, rfl⟩
    | ok bound =>
      obtain ⟨n, hn⟩ := List.getElem?_of_mem hp
      obtain ⟨b, -, hb⟩ := exists_of_bind hbind hn
      obtain ⟨_, x, _, rfl, hx, -⟩ := hb.first_of_argument hsource
      exact absurd ⟨x, by simp, hx.trans hid⟩ hbinds

theorem exists_bound (h : c.RefersTo sources)
    (hbinds : ∀ a, .argument a ∈ sources → bindings.Binds a.id) :
    ∃ bound, c.bind bindings = .ok bound ∧
      List.Forall₂ (Parameter.IsSentAs bindings) c.parameters bound := by
  cases hbind : c.bind bindings with
  | error e =>
    obtain ⟨_, _, _, b, -, -, -, rfl, -⟩ := bind_eq_error_iff.mp hbind
    obtain ⟨a, ha, hunbound⟩ := h.bind_fails_iff.mp ⟨b.name, hbind⟩
    exact absurd (hbinds a ha) hunbound
  | ok bound => exact ⟨bound, rfl, bind_eq_ok_iff.mp hbind⟩

theorem bind_congr (h : c.RefersTo sources)
    (hsame : ∀ a, .argument a ∈ sources → bindings.value? a = bindings'.value? a) :
    c.bind bindings = c.bind bindings' := by
  refine mapM_congr fun p hp => ?_
  have hsource := h.sound p hp
  unfold bindParameter
  cases hp : p.source with
  | value id v => rfl
  | argument a => simp only [hsame a (hp ▸ hsource)]

theorem indexOf_eq_ok_iff (h : c.RefersTo sources) {n : Nat} :
    c.indexOf a = .ok n ↔ ∃ p, c.parameters[n]? = some p ∧ p.source.id = .argument a.id := by
  have hfind : c.indexOf a = .ok n ↔
      c.parameters.findIdx? (·.source.id == .argument a.id) = some n := by
    unfold indexOf
    split <;> simp [*]
  rw [hfind, List.findIdx?_eq_some_iff_getElem]
  constructor
  · rintro ⟨hn, hid, -⟩
    exact ⟨_, List.getElem?_eq_getElem hn, by simpa using hid⟩
  · rintro ⟨p, hp, hid⟩
    obtain ⟨hn, rfl⟩ := List.getElem?_eq_some_iff.mp hp
    refine ⟨hn, by simpa using hid, fun j hj hother => ?_⟩
    have heq : c.parameters[j].source.id = c.parameters[n].source.id := by
      rw [hid]
      simpa using hother
    have hj' : j < (c.parameters.map (·.source.id)).length := by
      rw [List.length_map]
      omega
    have hn' : n < (c.parameters.map (·.source.id)).length := by rwa [List.length_map]
    have hsame : j = n :=
      (@List.Nodup.getElem_inj_iff _ _ h.distinct j hj' n hn').mp (by simpa using heq)
    omega

theorem indexOf_of_not_referred (h : c.RefersTo sources)
    (ha : ∀ a', .argument a' ∈ sources → a'.id ≠ a.id) :
    c.indexOf a = .error (.unknownArgument a.name) := by
  unfold indexOf
  split
  next n hfind =>
    obtain ⟨hn, hid, -⟩ := List.findIdx?_eq_some_iff_getElem.mp hfind
    have hsource := h.sound _ (List.getElem_mem hn)
    cases hp : c.parameters[n].source with
    | value => simp [hp, ParameterSource.id] at hid
    | argument a' =>
      rw [hp] at hsource
      exact absurd (by simpa [hp, ParameterSource.id] using hid) (ha a' hsource)
  next => rfl

theorem exists_indexOf (h : c.RefersTo sources) (ha : .argument a ∈ sources)
    (hbound : c.bind bindings = .ok bound) :
    ∃ n b, c.indexOf a = .ok n ∧ bound[n]? = some b ∧ bindings.First a.id b.value := by
  obtain ⟨p, hp, a', hsource, hid⟩ := h.exists_argument ha
  obtain ⟨n, hn⟩ := List.getElem?_of_mem hp
  obtain ⟨b, hb, hsent⟩ := exists_of_bind hbound hn
  refine ⟨n, b, h.indexOf_eq_ok_iff.mpr ⟨p, hn, ?_⟩, hb, hid ▸ hsent.first_of_argument hsource⟩
  rw [hsource, ParameterSource.id, hid]

/-- With other bindings only the parameters of arguments are others. -/
theorem differ_at_arguments (h : c.RefersTo sources) (hbound : c.bind bindings = .ok bound)
    (hbound' : c.bind bindings' = .ok bound') {n : Nat} (hne : bound[n]? ≠ bound'[n]?) :
    ∃ a, .argument a ∈ sources ∧ c.indexOf a = .ok n := by
  cases hn : c.parameters[n]? with
  | none =>
    have hnone : ∀ {bindings : Bindings} {bound : List BoundParameter},
        c.bind bindings = .ok bound → bound[n]? = none := by
      intro bindings bound hbound
      rwa [List.getElem?_eq_none_iff, ← (bind_eq_ok_iff.mp hbound).length_eq,
        ← List.getElem?_eq_none_iff]
    exact absurd ((hnone hbound).trans (hnone hbound').symm) hne
  | some p =>
    obtain ⟨b, hb, hsent⟩ := exists_of_bind hbound hn
    obtain ⟨b', hb', hsent'⟩ := exists_of_bind hbound' hn
    rw [hb, hb'] at hne
    cases hsource : p.source with
    | value id v =>
      rw [hsent.eq_of_value hsource, hsent'.eq_of_value hsource] at hne
      exact absurd rfl hne
    | argument a =>
      refine ⟨a, hsource ▸ h.sound p (List.mem_of_getElem? hn),
        h.indexOf_eq_ok_iff.mpr ⟨p, hn, ?_⟩⟩
      rw [hsource, ParameterSource.id]

end Compiled.RefersTo

end DeclarativeSql
