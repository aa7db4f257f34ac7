import DeclarativeSql.Proofs.Schema.Builder

/-!
# Tables that are being declared

A step binds one column or none. Whatever steps a declaration takes, and whether or not it goes on
after a refusal, the draft has no member and no column name twice, its columns are its own, and
each of them may be as it is.
-/
namespace DeclarativeSql

namespace TableDraft

theorem checkBind_eq_ok_iff {draft : TableDraft} {member : String} {d : ColumnDef} :
    draft.checkBind member d = .ok () ↔ member ∉ draft.columns.map Column.member ∧
      d.name ∉ draft.columns.map Column.name ∧ d.validate = .ok () := by
  have hmember : (draft.columns.any (·.member == member)) = true ↔
      member ∈ draft.columns.map Column.member := by simp
  have hname : (draft.columns.any (·.name == d.name)) = true ↔
      d.name ∈ draft.columns.map Column.name := by simp
  unfold checkBind
  split
  next h => simp [hmember.mp h]
  next h =>
    split
    next hn => simp [hname.mp hn]
    next hn => simp only [mt hmember.mpr h, mt hname.mpr hn, not_false_eq_true, true_and]

/-- The column that a binding makes. -/
def bound (draft : TableDraft) (member : String) (d : ColumnDef) : Column :=
  ⟨d, member, draft.id, draft.name⟩

theorem columns_bind (draft : TableDraft) (member : String) (d : ColumnDef) :
    (draft.bind member d).2.columns = draft.columns ∨ draft.checkBind member d = .ok () ∧
      (draft.bind member d).2.columns = draft.columns ++ [draft.bound member d] := by
  unfold bind
  cases h : draft.checkBind member d with
  | error e => exact .inl rfl
  | ok u => exact .inr ⟨rfl, rfl⟩

theorem columns_step (draft : TableDraft) (s : DeclareStep) :
    (draft.step s).2.columns = draft.columns ∨ ∃ member d, draft.checkBind member d = .ok () ∧
      (draft.step s).2.columns = draft.columns ++ [draft.bound member d] := by
  cases s with
  | column member name t flags =>
    simp only [step, column]
    split
    · exact .inl rfl
    next defined registry _ =>
      rcases columns_bind { draft with registry } member defined.definition with h | h
      · exact .inl h
      · exact .inr ⟨member, _, h⟩
  | bind member d =>
    rcases draft.columns_bind member d with h | h
    · exact .inl h
    · exact .inr ⟨member, d, h⟩
  | lookup member => exact .inl rfl

theorem bind_frame (draft : TableDraft) (member : String) (d : ColumnDef) :
    (draft.bind member d).2 = { draft with columns := (draft.bind member d).2.columns } := by
  unfold bind
  split <;> rfl

theorem id_step (draft : TableDraft) (s : DeclareStep) : (draft.step s).2.id = draft.id := by
  cases s with
  | column member name t flags =>
    simp only [step, column]
    split
    · rfl
    · rw [bind_frame]
  | bind member d => rw [step, bind_frame]
  | lookup member => rfl

structure IsSound (draft : TableDraft) : Prop where
  members : (draft.columns.map Column.member).Nodup
  names : (draft.columns.map Column.name).Nodup
  valid : ∀ c ∈ draft.columns, c.definition.validate = .ok ()
  owned : ∀ c ∈ draft.columns, c.table = draft.id

theorem isSound_new (registry : Registry) (id : TableId) (name : String) :
    IsSound ⟨registry, id, name, []⟩ := by
  constructor <;> simp

theorem IsSound.step {draft : TableDraft} (h : draft.IsSound) (s : DeclareStep) :
    (draft.step s).2.IsSound := by
  have hid := draft.id_step s
  rcases draft.columns_step s with hsame | ⟨member, d, hcheck, hadded⟩
  · constructor <;> rw [hsame]
    · exact h.members
    · exact h.names
    · exact h.valid
    · rw [hid]
      exact h.owned
  · obtain ⟨hmember, hname, hvalid⟩ := checkBind_eq_ok_iff.mp hcheck
    constructor <;> rw [hadded]
    · rw [List.map_append, List.map_singleton, ← List.concat_eq_append]
      exact h.members.concat hmember
    · rw [List.map_append, List.map_singleton, ← List.concat_eq_append]
      exact h.names.concat hname
    · intro c hc
      rcases List.mem_append.mp hc with hc | hc
      · exact h.valid c hc
      · rwa [List.mem_singleton.mp hc]
    · intro c hc
      rw [hid]
      rcases List.mem_append.mp hc with hc | hc
      · exact h.owned c hc
      · rw [List.mem_singleton.mp hc]
        rfl

theorem IsSound.attempt {draft : TableDraft} (h : draft.IsSound) (steps : List DeclareStep) :
    (draft.attempt steps).IsSound := by
  induction steps generalizing draft with
  | nil => exact h
  | cons s steps ih => exact ih (h.step s)

end TableDraft

/-- Every table of a builder is a finished draft. -/
theorem SchemaBuilder.IsBuilt.exists_draft {b : SchemaBuilder} (h : b.IsBuilt) :
    ∀ t ∈ b.tables, ∃ draft : TableDraft, draft.IsSound ∧ t = draft.finish := by
  induction h with
  | new => simp [SchemaBuilder.new]
  | define _ _ _ _ ih => exact ih
  | @declare b table draft steps _ henter ih =>
    obtain ⟨-, rfl⟩ := enter_eq_ok_iff.mp henter
    intro t ht
    rcases List.mem_append.mp ht with ht | ht
    · exact ih t ht
    · exact ⟨_, (TableDraft.isSound_new _ _ _).attempt steps, List.mem_singleton.mp ht⟩

end DeclarativeSql
