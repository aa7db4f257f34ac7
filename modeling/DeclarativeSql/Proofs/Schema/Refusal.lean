import DeclarativeSql.Proofs.Schema.DeclarationOrder
import DeclarativeSql.Proofs.Schema.Sharing

/-!
# Refused columns

A column is registered and then bound, and either may be refused. If its binding is refused, the
definition that it brought along stays in the registry. Definitions made before keep their places,
but the name of the new one has a type from then on, and this is all that later declarations notice.
-/
namespace DeclarativeSql

namespace Registry

/-- The definition is new to the registry, and nothing speaks against it. -/
structure TakesIn (r : Registry) (d : ColumnDef) : Prop where
  agrees : ¬ r.Conflicts d
  counts : ¬ d.CountsInVain
  new : d ∉ r.definitions

variable {r next : Registry} {d : ColumnDef} {defined : Defined} {ds : List ColumnDef}

theorem TakesIn.valid (h : r.TakesIn d) : d.validate = .ok () :=
  not_not.mp (mt ColumnDef.countsInVain_iff.mpr h.counts)

theorem IsSound.takesIn_iff (h : r.IsSound) : r.TakesIn d ↔
    ∃ defined, r.define d.name d.sqlType d.flags = (.ok defined, ⟨r.definitions ++ [d]⟩) := by
  constructor
  · intro ht
    have hagrees : r.AgreesOn [d] := not_not.mp (mt h.conflicts_iff.mpr ht.agrees)
    obtain ⟨defined, next, hdefine⟩ := h.exists_define_iff.mpr ⟨hagrees, ht.valid⟩
    rcases (h.define_cases hdefine).2 with ⟨-, hfound⟩ | ⟨rfl, -, -⟩
    · exact absurd (List.mem_of_getElem? hfound) ht.new
    · exact ⟨defined, hdefine⟩
  · rintro ⟨defined, hdefine⟩
    obtain ⟨hagrees, hvalid⟩ := h.exists_define_iff.mp ⟨_, _, hdefine⟩
    refine ⟨mt h.conflicts_iff.mp (not_not.mpr hagrees),
      mt ColumnDef.countsInVain_iff.mp (not_not.mpr hvalid), ?_⟩
    rcases (h.define_cases hdefine).2 with ⟨hsame, -⟩ | ⟨-, -, hnew⟩
    · simpa using congrArg (fun next => next.definitions.length) hsame
    · exact hnew

theorem agreesOn_cons_iff_of_agrees (h : r.AgreesOn [d]) : r.AgreesOn (d :: ds) ↔
    r.AgreesOn ds ∧ ∀ o ∈ ds, o.name = d.name → o.sqlType = d.sqlType := by
  constructor
  · intro hall
    refine ⟨hall.mono (List.subset_cons_self d ds), fun o ho hname => ?_⟩
    exact hall d.name _ _ (.inr ⟨o, List.mem_cons_of_mem d ho, hname, rfl⟩)
      (.inr ⟨d, List.mem_cons_self, rfl, rfl⟩)
  · rintro ⟨hrest, hname⟩
    -- what is asked for is asked for by the rest or by the first definition
    have hsplit : ∀ name t, r.Asks (d :: ds) name t ↔
        r.Asks ds name t ∨ d.name = name ∧ d.sqlType = t := by
      intro name t
      simp only [Asks, List.mem_cons, or_and_right, exists_or, exists_eq_left, or_assoc]
      exact or_congr_right or_comm
    have hmixed : ∀ name t, r.Asks ds name t → d.name = name → t = d.sqlType := by
      rintro name t (ht | ⟨o, ho, rfl, rfl⟩) hd
      · exact agreesOn_singleton_iff.mp h t (hd ▸ ht)
      · exact hname o ho hd.symm
    intro name t u ht hu
    rcases (hsplit name t).mp ht with ht | ⟨hd, rfl⟩ <;>
      rcases (hsplit name u).mp hu with hu | ⟨hd', rfl⟩
    · exact hrest name t u ht hu
    · exact hmixed name t ht hd'
    · exact (hmixed name u hu hd).symm
    · rfl

/-- Beside what was registered, the registry agrees on what agrees with the new definition. -/
theorem IsSound.agreesOn_append_iff (h : r.IsSound) (ht : r.TakesIn d) :
    AgreesOn ⟨r.definitions ++ [d]⟩ ds ↔
      r.AgreesOn ds ∧ ∀ o ∈ ds, o.name = d.name → o.sqlType = d.sqlType := by
  obtain ⟨defined, hdefine⟩ := h.takesIn_iff.mp ht
  have hagrees := (h.exists_define_iff.mp ⟨_, _, hdefine⟩).1
  rw [agreesOn_cons_iff (h.define hdefine).2.2, agreesOn_cons_iff_of_agrees hagrees]

end Registry

namespace TableDraft

variable {draft next : TableDraft} {q : ColumnRequest} {e : ConstructionError}

/-- The draft beside another registry. -/
def withRegistry (draft : TableDraft) (registry : Registry) : TableDraft := { draft with registry }

theorem IsSound.withRegistry (h : draft.IsSound) (registry : Registry) :
    (draft.withRegistry registry).IsSound := ⟨h.members, h.names, h.valid, h.owned⟩

theorem checkBind_of_bind {member : String} {d : ColumnDef}
    (h : draft.bind member d = (.error e, next)) : draft.checkBind member d = .error e := by
  unfold bind at h
  split at h
  next hcheck => rw [hcheck, (Except.error.inj (Prod.mk.inj h).1)]
  next => cases h

theorem checkBind_of_valid {member : String} {d : ColumnDef} (hvalid : d.validate = .ok ())
    (h : draft.checkBind member d = .error e) :
    member ∈ draft.columns.map Column.member ∧ e = .duplicateColumn draft.name member ∨
      d.name ∈ draft.columns.map Column.name ∧ e = .duplicateColumn draft.name d.name := by
  unfold checkBind at h
  split at h
  next hmember => exact .inl ⟨by simpa using hmember, (Except.error.inj h).symm⟩
  next =>
    split at h
    next hname => exact .inr ⟨by simpa using hname, (Except.error.inj h).symm⟩
    next =>
      rw [hvalid] at h
      cases h

/-- What a refused column leaves behind. -/
theorem refused_cases (hr : draft.registry.IsSound) (h : draft.step q.step = (.error e, next)) :
    (draft.registry.TakesIn q.definition ∧
        next = draft.withRegistry ⟨draft.registry.definitions ++ [q.definition]⟩ ∧
        draft.checkBind q.member q.definition = .error e) ∨
      ¬ draft.registry.TakesIn q.definition ∧ next = draft := by
  have hcolumn : draft.registry.column q.name q.fieldType q.flags =
      draft.registry.define q.definition.name q.definition.sqlType q.definition.flags := rfl
  simp only [ColumnRequest.step, step, column, hcolumn] at h
  split at h
  next refusal registry hdefine =>
    have hkept := Registry.define_of_error (congrArg Prod.fst hdefine)
    rw [hdefine] at hkept
    obtain rfl : registry = draft.registry := hkept
    refine .inr ⟨fun ht => ?_, (Prod.mk.inj h).2.symm⟩
    obtain ⟨defined, hok⟩ := hr.takesIn_iff.mp ht
    rw [hdefine] at hok
    cases hok
  next defined registry hdefine =>
    have hnext := bind_of_refused h
    have hcheck := checkBind_of_bind h
    obtain ⟨hsame, ⟨rfl, hfound⟩ | ⟨rfl, -, -⟩⟩ := hr.define_cases hdefine
    · exact .inr ⟨fun ht => ht.new (List.mem_of_getElem? hfound), hnext⟩
    · rw [hsame] at hcheck
      exact .inl ⟨hr.takesIn_iff.mpr ⟨defined, hdefine⟩, hnext, hcheck⟩

/-- Columns are bound beside one registry as beside another one that agrees on as much. -/
theorem accepts_withRegistry_iff {r s : Registry} {P : Prop} {qs : List ColumnRequest}
    (h : r.AgreesOn (qs.map ColumnRequest.definition) ↔
      s.AgreesOn (qs.map ColumnRequest.definition) ∧ P) :
    (draft.withRegistry r).Accepts qs ↔ (draft.withRegistry s).Accepts qs ∧ P := by
  constructor
  · intro ha
    obtain ⟨htypes, hp⟩ := h.mp ha.types
    exact ⟨⟨ha.members, ha.names, ha.valid, htypes⟩, hp⟩
  · rintro ⟨ha, hp⟩
    exact ⟨ha.members, ha.names, ha.valid, h.mpr ⟨ha.types, hp⟩⟩

/-- The draft of a table after any steps, over a registry after any requests. -/
def IsReached (draft : TableDraft) : Prop :=
  ∃ requests id name steps,
    draft = attempt ⟨(Registry.empty.answerAll requests).2, id, name, []⟩ steps

theorem IsReached.isSound (h : draft.IsReached) : draft.IsSound ∧ draft.registry.IsSound := by
  obtain ⟨requests, id, name, steps, rfl⟩ := h
  exact ⟨(isSound_new _ id name).attempt steps,
    isSound_registry_attempt (Registry.isShared_empty.answerAll requests).1.toIsSound steps⟩

/-- A refused column changes no bound column. It changes the registry only if its definition was
taken in and then a member or a name was bound twice: the definition is last in the registry, and
declarations that ask for its name must ask for its type. All others fare as without the refusal. -/
theorem IsReached.refused_column (hdraft : draft.IsReached)
    (h : draft.column q.member q.name q.fieldType q.flags = (.error e, next)) :
    ((draft.registry.TakesIn q.definition ∧
          next = draft.withRegistry ⟨draft.registry.definitions ++ [q.definition]⟩ ∧
          (q.member ∈ draft.columns.map Column.member ∧ e = .duplicateColumn draft.name q.member ∨
            q.name ∈ draft.columns.map Column.name ∧ e = .duplicateColumn draft.name q.name)) ∨
        ¬ draft.registry.TakesIn q.definition ∧ next = draft) ∧
      ∀ other : TableDraft, other.IsReached → ∀ qs : List ColumnRequest,
        (∃ last, ((other.withRegistry next.registry).run (qs.map ColumnRequest.step)).2 =
            .ok last) ↔
          (∃ last, ((other.withRegistry draft.registry).run (qs.map ColumnRequest.step)).2 =
            .ok last) ∧
          (draft.registry.TakesIn q.definition → ∀ o ∈ qs, o.name = q.name →
            o.fieldType.sqlType = q.fieldType.sqlType) := by
  have hr := hdraft.isSound.2
  have hcases := refused_cases hr h
  refine ⟨?_, fun other hother qs => ?_⟩
  · rcases hcases with ⟨ht, hnext, hcheck⟩ | hunchanged
    · exact .inl ⟨ht, hnext, checkBind_of_valid ht.valid hcheck⟩
    · exact .inr hunchanged
  · have hnext : next.registry.IsSound := by
      have hstep := isSound_registry_step hr q.step
      rwa [show draft.step q.step = (.error e, next) from h] at hstep
    have hlater : ∀ {registry : Registry}, registry.IsSound →
        ((∃ last, ((other.withRegistry registry).run (qs.map ColumnRequest.step)).2 = .ok last) ↔
          (other.withRegistry registry).Accepts qs) :=
      fun hregistry => exists_run_iff hregistry (hother.isSound.1.withRegistry _)
    rw [hlater hnext, hlater hr]
    refine accepts_withRegistry_iff ?_
    rcases hcases with ⟨ht, rfl, -⟩ | ⟨ht, rfl⟩
    · rw [withRegistry, hr.agreesOn_append_iff ht]
      refine and_congr_right fun _ => ?_
      simp only [ht, true_imp_iff, List.forall_mem_map]
      rfl
    · exact (and_iff_left fun hnew => absurd hnew ht).symm

/-- A table with one member. -/
def single : TableDraft :=
  attempt ⟨(Registry.empty.answerAll []).2, ⟨0⟩, "t", []⟩
    [.column "A" "a" (.scalar .int32) .empty]

theorem isReached_single : single.IsReached := ⟨[], ⟨0⟩, "t", _, rfl⟩

/-- Another column for the same member. -/
def again : ColumnRequest := ⟨"A", "b", .scalar .int32, .empty⟩

theorem single_refused_column : ∃ next,
    single.column again.member again.name again.fieldType again.flags =
        (.error (.duplicateColumn "t" "A"), next) ∧
      next = single.withRegistry ⟨single.registry.definitions ++ [again.definition]⟩ ∧
      ∀ qs : List ColumnRequest,
        (∃ last, ((single.withRegistry next.registry).run (qs.map ColumnRequest.step)).2 =
            .ok last) ↔
          (∃ last, (single.run (qs.map ColumnRequest.step)).2 = .ok last) ∧
          ∀ o ∈ qs, o.name = "b" → o.fieldType.sqlType = .scalar .int32 := by
  obtain ⟨next, h⟩ : ∃ next, single.column again.member again.name again.fieldType again.flags =
      (.error (.duplicateColumn "t" "A"), next) := ⟨_, rfl⟩
  have ht : single.registry.TakesIn again.definition :=
    isReached_single.isSound.2.takesIn_iff.mpr ⟨_, rfl⟩
  obtain ⟨hcases, hlater⟩ := isReached_single.refused_column h
  refine ⟨next, h, (hcases.resolve_right fun hout => hout.1 ht).2.1, fun qs => ?_⟩
  have hqs := hlater single isReached_single qs
  rwa [forall_prop_of_true ht] at hqs

/-- The refused column settles the type of its name, which another table wants otherwise. -/
theorem refused_column_takes_name : ∃ next,
    single.column again.member again.name again.fieldType again.flags =
        (.error (.duplicateColumn "t" "A"), next) ∧
      next.registry ≠ single.registry ∧
      (∃ last, (run ⟨single.registry, ⟨1⟩, "u", []⟩
        [.column "B" "b" (.scalar .text) .empty]).2 = .ok last) ∧
      (run ⟨next.registry, ⟨1⟩, "u", []⟩ [.column "B" "b" (.scalar .text) .empty]).2 =
        .error (.conflictingColumnDef "b" (.scalar .int32) (.scalar .text)) := by
  refine ⟨_, rfl, fun hsame => ?_, ⟨_, rfl⟩, rfl⟩
  have hlength := congrArg (fun r => r.definitions.length) hsame
  revert hlength
  decide

end TableDraft

end DeclarativeSql
