import DeclarativeSql.Proofs.Schema.DeclarationOrder
import DeclarativeSql.Proofs.Schema.Sharing

/-!
# Constraints from flags

The key, the indices and the uniques of a declared table are read off the flags of its columns: nine
bits ask for them and one more for the method of an index. The columns that have a bit set are
listed in the order of declaration, tiers come in ascending order, and no other bit matters.
-/
namespace DeclarativeSql

namespace ColumnFlags

theorem contains_primaryKey (a : ColumnFlags) : a.contains .primaryKey = a.has 1 :=
  contains_bit a (by decide)

theorem mem_tiers_iff {tier : Nat} : tier ∈ tiers ↔ 1 ≤ tier ∧ tier ≤ 4 := by
  simp only [tiers, List.mem_cons, List.not_mem_nil, or_false]
  omega

theorem contains_indexTier (a : ColumnFlags) {tier : Nat} (h : tier ∈ tiers) :
    a.contains (.indexTier tier) = a.has (3 + tier) :=
  contains_bit a (by rw [mem_tiers_iff] at h; omega)

theorem contains_uniqueTier (a : ColumnFlags) {tier : Nat} (h : tier ∈ tiers) :
    a.contains (.uniqueTier tier) = a.has (7 + tier) :=
  contains_bit a (by rw [mem_tiers_iff] at h; omega)

theorem contains_gin (a : ColumnFlags) : a.contains .gin = a.has 62 :=
  contains_bit a (by decide)

/-- The bits of the key, the index tiers, the unique tiers and the inverted method. -/
def constraintBits : List Nat := [1, 4, 5, 6, 7, 8, 9, 10, 11, 62]

theorem indexTier_mem_constraintBits {tier : Nat} (h : tier ∈ tiers) :
    3 + tier ∈ constraintBits := by
  revert tier
  decide

theorem uniqueTier_mem_constraintBits {tier : Nat} (h : tier ∈ tiers) :
    7 + tier ∈ constraintBits := by
  revert tier
  decide

end ColumnFlags

open ColumnFlags (tiers constraintBits)

/-- The columns with bit `n` set, in the order of declaration. -/
def marked (definitions : List ColumnDef) (n : Nat) : List ColumnDef :=
  definitions.filter (·.flags.has n)

/-- Of the tiers, whose bits follow on bit `base`, those that some column has set have one
constraint each, over all columns that have it set. Constraints are in the order of the tiers. -/
def OnePerTier {α : Type} (definitions : List ColumnDef) (base : Nat) (columns : α → List ColumnDef)
    (constraints : List α) : Prop :=
  ∃ carried : List Nat, carried.Pairwise (· < ·) ∧
    (∀ tier, tier ∈ carried ↔ (1 ≤ tier ∧ tier ≤ 4) ∧
      ∃ d ∈ definitions, d.flags.has (base + tier) = true) ∧
    List.Forall₂ (fun tier c => columns c = marked definitions (base + tier)) carried constraints

/-- The constraints of the table are the ones that the flags of the columns ask for. -/
structure Table.FollowsFlags (t : Table) (definitions : List ColumnDef) : Prop where
  hasKey : (∃ k, t.primaryKey = some k) ↔ ∃ d ∈ definitions, d.flags.has 1 = true
  keyColumns : ∀ k, t.primaryKey = some k → k.columns = marked definitions 1
  indices : OnePerTier definitions 3 Index.columns t.indices
  methods : ∀ i ∈ t.indices, i.method = .gin ↔ ∃ d ∈ i.columns, d.flags.has 62 = true
  uniques : OnePerTier definitions 7 Key.columns t.uniques

theorem forall₂_filterMap {α β : Type} {f : α → Option β} {R : α → β → Prop} {xs : List α}
    (h : ∀ x ∈ xs, ∀ y, f x = some y → R x y) :
    List.Forall₂ R (xs.filter fun x => (f x).isSome) (xs.filterMap f) := by
  induction xs with
  | nil => exact .nil
  | cons x xs ih =>
    have hrest := ih fun z hz => h z (List.mem_cons_of_mem x hz)
    cases hx : f x with
    | none => simpa [hx] using hrest
    | some y =>
      have hfirst := h x List.mem_cons_self y hx
      simpa [hx] using And.intro hfirst hrest

section

variable {definitions : List ColumnDef}

theorem carrying_eq_marked {flag : ColumnFlags} {n : Nat}
    (h : ∀ a : ColumnFlags, a.contains flag = a.has n) :
    Table.carrying definitions flag = marked definitions n :=
  List.filter_congr fun d _ => h d.flags

theorem onePerTier_filterMap {α : Type} {base : Nat} {columns : α → List ColumnDef}
    {flag : Nat → ColumnFlags} {constraint : Nat → Option α}
    (hflag : ∀ tier ∈ tiers, ∀ a : ColumnFlags, a.contains (flag tier) = a.has (base + tier))
    (hasked : ∀ tier, (∃ c, constraint tier = some c) ↔
      ∃ d ∈ definitions, d.flags.contains (flag tier) = true)
    (hcolumns : ∀ tier c, constraint tier = some c →
      columns c = Table.carrying definitions (flag tier)) :
    OnePerTier definitions base columns (tiers.filterMap constraint) := by
  have htiers : tiers.Pairwise (· < ·) := by decide
  refine ⟨_, htiers.filter _, fun tier => ?_, forall₂_filterMap fun tier htier c hc => ?_⟩
  · rw [List.mem_filter, Option.isSome_iff_exists, hasked, ← ColumnFlags.mem_tiers_iff]
    exact and_congr_right fun htier => by simp only [hflag tier htier]
  · rw [hcolumns tier c hc, carrying_eq_marked (hflag tier htier)]

theorem exists_primaryKeyOf_iff {table : String} :
    (∃ k, Table.primaryKeyOf table definitions = some k) ↔
      ∃ d ∈ definitions, d.flags.contains .primaryKey = true := by
  rw [← carrying_ne_nil_iff]
  unfold Table.primaryKeyOf
  cases Table.carrying definitions .primaryKey <;> simp

theorem Table.followsFlags_ofColumns (id : TableId) (name : String) (columns : List Column) :
    (ofColumns id name columns).FollowsFlags (columns.map (·.definition)) where
  hasKey := by
    change (∃ k, primaryKeyOf name _ = some k) ↔ _
    simp only [exists_primaryKeyOf_iff, ColumnFlags.contains_primaryKey]
  keyColumns k hk := by
    rw [columns_primaryKeyOf hk, carrying_eq_marked ColumnFlags.contains_primaryKey]
  indices := onePerTier_filterMap (fun _ h a => a.contains_indexTier h)
    (fun _ => exists_indexOf_iff) fun _ _ => columns_indexOf
  methods i hi := by
    obtain ⟨tier, -, hi⟩ := List.mem_filterMap.mp hi
    rw [method_indexOf hi]
    simp [ColumnFlags.contains_gin]
  uniques := onePerTier_filterMap (fun _ h a => a.contains_uniqueTier h)
    (fun _ => exists_uniqueOf_iff) fun _ _ => columns_uniqueOf

end

section

variable (flags : ColumnDef → ColumnFlags)

/-- The definition with its flags exchanged. -/
def ColumnDef.reflagged (d : ColumnDef) : ColumnDef := { d with flags := flags d }

def Column.reflagged (c : Column) : Column := { c with definition := c.definition.reflagged flags }

def Key.reflagged (k : Key) : Key := { k with columns := k.columns.map (·.reflagged flags) }

def Index.reflagged (i : Index) : Index := { i with columns := i.columns.map (·.reflagged flags) }

/-- The table with the flags of its columns exchanged, and its constraints over the same columns. -/
def Table.reflagged (t : Table) : Table :=
  { t with
    columns := t.columns.map (·.reflagged flags)
    primaryKey := t.primaryKey.map (·.reflagged flags)
    indices := t.indices.map (·.reflagged flags)
    uniques := t.uniques.map (·.reflagged flags) }

def TableDraft.reflagged (draft : TableDraft) : TableDraft :=
  { draft with columns := draft.columns.map (·.reflagged flags) }

theorem constraintName_reflagged (kind table : String) (columns : List ColumnDef) :
    constraintName kind table (columns.map (·.reflagged flags)) =
      constraintName kind table columns := by
  simp [constraintName, ColumnDef.reflagged, Function.comp_def]

theorem Key.primary_reflagged (table : String) (columns : List ColumnDef) :
    primary table (columns.map (·.reflagged flags)) =
      (primary table columns).reflagged flags := by
  rw [primary, constraintName_reflagged]
  rfl

theorem Key.unique_reflagged (table : String) (columns : List ColumnDef) :
    unique table (columns.map (·.reflagged flags)) = (unique table columns).reflagged flags := by
  rw [unique, constraintName_reflagged]
  rfl

theorem Index.forTable_reflagged (table : String) (method : IndexMethod)
    (columns : List ColumnDef) :
    forTable table method (columns.map (·.reflagged flags)) =
      (forTable table method columns).reflagged flags := by
  rw [forTable, constraintName_reflagged]
  rfl

end

/-- The bits that ask for constraints are as they were. -/
def KeepsConstraints (definitions : List ColumnDef) (flags : ColumnDef → ColumnFlags) : Prop :=
  ∀ d ∈ definitions, ∀ n ∈ constraintBits, (flags d).has n = d.flags.has n

section

variable {definitions : List ColumnDef} {flags : ColumnDef → ColumnFlags}

namespace KeepsConstraints

variable (h : KeepsConstraints definitions flags)

include h

theorem carrying {flag : ColumnFlags} {n : Nat} (hn : n ∈ constraintBits)
    (hflag : ∀ a : ColumnFlags, a.contains flag = a.has n) :
    Table.carrying (definitions.map (·.reflagged flags)) flag =
      (Table.carrying definitions flag).map (·.reflagged flags) := by
  rw [Table.carrying, Table.carrying, List.filter_map]
  refine congrArg _ (List.filter_congr fun d hd => ?_)
  simp only [Function.comp_apply, ColumnDef.reflagged, hflag]
  exact h d hd n hn

theorem primaryKeyOf (table : String) :
    Table.primaryKeyOf table (definitions.map (·.reflagged flags)) =
      (Table.primaryKeyOf table definitions).map (·.reflagged flags) := by
  unfold Table.primaryKeyOf
  rw [h.carrying (by decide) ColumnFlags.contains_primaryKey]
  cases Table.carrying definitions .primaryKey with
  | nil => rfl
  | cons d ds => exact congrArg some (Key.primary_reflagged flags table (d :: ds))

theorem uniqueOf (table : String) {tier : Nat} (htier : tier ∈ tiers) :
    Table.uniqueOf table (definitions.map (·.reflagged flags)) tier =
      (Table.uniqueOf table definitions tier).map (·.reflagged flags) := by
  unfold Table.uniqueOf
  rw [h.carrying (ColumnFlags.uniqueTier_mem_constraintBits htier)
    fun a => a.contains_uniqueTier htier]
  cases Table.carrying definitions (.uniqueTier tier) with
  | nil => rfl
  | cons d ds => exact congrArg some (Key.unique_reflagged flags table (d :: ds))

theorem any_gin {columns : List ColumnDef} (hsub : columns ⊆ definitions) :
    ((columns.map (·.reflagged flags)).any fun d => d.flags.contains .gin) =
      columns.any fun d => d.flags.contains .gin := by
  rw [Bool.eq_iff_iff, List.any_map, List.any_eq_true, List.any_eq_true]
  refine exists_congr fun d => and_congr_right fun hd => ?_
  simp only [Function.comp_apply, ColumnDef.reflagged, ColumnFlags.contains_gin]
  rw [h d (hsub hd) 62 (by decide)]

theorem indexOf (table : String) {tier : Nat} (htier : tier ∈ tiers) :
    Table.indexOf table (definitions.map (·.reflagged flags)) tier =
      (Table.indexOf table definitions tier).map (·.reflagged flags) := by
  unfold Table.indexOf
  rw [h.carrying (ColumnFlags.indexTier_mem_constraintBits htier)
    fun a => a.contains_indexTier htier]
  have hsub : Table.carrying definitions (.indexTier tier) ⊆ definitions :=
    List.filter_subset_self _
  cases hcarrying : Table.carrying definitions (.indexTier tier) with
  | nil => rfl
  | cons d ds =>
    have hgin := h.any_gin (hcarrying ▸ hsub)
    rw [List.map_cons] at hgin ⊢
    simp only [hgin]
    exact congrArg some (Index.forTable_reflagged flags table _ (d :: ds))

end KeepsConstraints

/-- The constraints are the same, over columns whose flags are exchanged. -/
theorem KeepsConstraints.ofColumns {columns : List Column}
    (h : KeepsConstraints (columns.map (·.definition)) flags) (id : TableId) (name : String) :
    Table.ofColumns id name (columns.map (·.reflagged flags)) =
      (Table.ofColumns id name columns).reflagged flags := by
  have hdefinitions : (columns.map (·.reflagged flags)).map (·.definition) =
      (columns.map (·.definition)).map (·.reflagged flags) := by
    simp [Column.reflagged]
  have hindices : ∀ tier ∈ tiers, _ := fun tier htier => h.indexOf name htier
  have huniques : ∀ tier ∈ tiers, _ := fun tier htier => h.uniqueOf name htier
  simp only [Table.ofColumns, Table.reflagged, hdefinitions, h.primaryKeyOf, List.map_filterMap,
    List.filterMap_congr hindices, List.filterMap_congr huniques]

end

/-- The definition that a step binds. -/
def DeclareStep.definition? : DeclareStep → Option ColumnDef
  | .column _ name t flags => some ⟨name, t.sqlType, flags ||| t.implied⟩
  | .bind _ d => some d
  | .lookup _ => none

namespace TableDraft

variable {draft next last : TableDraft}

theorem definitions_of_bind {member : String} {d : ColumnDef} {c : Column}
    (h : draft.bind member d = (.ok c, next)) :
    next.columns.map (·.definition) = draft.columns.map (·.definition) ++ [d] := by
  unfold bind at h
  split at h
  next => cases h
  next =>
    obtain ⟨-, rfl⟩ := Prod.mk.inj h
    simp

theorem definitions_of_step (hr : draft.registry.IsSound) {s : DeclareStep} {c : Column}
    (h : draft.step s = (.ok c, next)) : next.columns.map (·.definition) =
      draft.columns.map (·.definition) ++ s.definition?.toList := by
  cases s with
  | column member name t flags =>
    have hq : draft.step (ColumnRequest.step ⟨member, name, t, flags⟩) = (.ok c, next) := h
    rw [(hasBound_of_step hr hq).columns]
    simp [bound, ColumnRequest.definition, DeclareStep.definition?]
  | bind member d => exact definitions_of_bind h
  | lookup member =>
    obtain ⟨-, rfl⟩ := Prod.mk.inj h
    simp [DeclareStep.definition?]

theorem definitions_of_run (hr : draft.registry.IsSound) {steps : List DeclareStep}
    (h : (draft.run steps).2 = .ok last) : last.columns.map (·.definition) =
      draft.columns.map (·.definition) ++ steps.filterMap DeclareStep.definition? := by
  induction steps generalizing draft with
  | nil =>
    obtain rfl : draft = last := Except.ok.inj h
    simp
  | cons s steps ih =>
    rw [run] at h
    split at h
    next c next hstep =>
      have hnext : next.registry.IsSound := by
        have := isSound_registry_step hr s
        rwa [hstep] at this
      rw [ih hnext h, definitions_of_step hr hstep, List.append_assoc, List.filterMap_cons]
      cases s.definition? <;> rfl
    next => cases h

/-- The constraints of a declared table are the ones that the flags of its columns ask for, and no
other flag changes them. A declaration that is accepted binds the columns of its steps. -/
theorem finish_follows_flags (draft : TableDraft) :
    draft.finish.FollowsFlags (draft.columns.map (·.definition)) ∧
      (∀ flags, KeepsConstraints (draft.columns.map (·.definition)) flags →
        (draft.reflagged flags).finish = draft.finish.reflagged flags) ∧
      ∀ requests id name steps,
        (run ⟨(Registry.empty.answerAll requests).2, id, name, []⟩ steps).2 = .ok draft →
          draft.columns.map (·.definition) = steps.filterMap DeclareStep.definition? := by
  refine ⟨Table.followsFlags_ofColumns _ _ _, fun flags h => h.ofColumns _ _, ?_⟩
  intro requests id name steps hrun
  have hr := (Registry.isShared_empty.answerAll requests).1.toIsSound
  exact definitions_of_run hr hrun

/-- A key of two columns, several tiers, and an index that one of its two columns makes inverted. -/
def accountSteps : List DeclareStep :=
  [.column "Id" "id" (.scalar .int64) (.primaryKey ||| .indexTier 3),
    .column "Login" "login" (.scalar .text) (.uniqueTier 2 ||| .uniqueTier 4),
    .column "Realm" "realm" (.scalar .int32) (.primaryKey ||| .uniqueTier 2 ||| .indexTier 1),
    .lookup "Id",
    .column "Roles" "roles" (.list (.scalar .text)) (.indexTier 3 ||| .gin ||| .bit 20)]

theorem account_follows_flags : ∃ draft,
    (run ⟨(Registry.empty.answerAll []).2, ⟨0⟩, "account", []⟩ accountSteps).2 = .ok draft ∧
      draft.finish.FollowsFlags (accountSteps.filterMap DeclareStep.definition?) ∧
      (draft.reflagged fun d => d.flags ||| .nullable ||| .bit 20).finish =
        draft.finish.reflagged fun d => d.flags ||| .nullable ||| .bit 20 := by
  obtain ⟨draft, hrun⟩ : ∃ draft,
      (run ⟨(Registry.empty.answerAll []).2, ⟨0⟩, "account", []⟩ accountSteps).2 = .ok draft :=
    ⟨_, rfl⟩
  obtain ⟨hfollows, hkept, hsteps⟩ := finish_follows_flags draft
  have hdefinitions := hsteps [] ⟨0⟩ "account" accountSteps hrun
  refine ⟨draft, hrun, hdefinitions ▸ hfollows, hkept _ ?_⟩
  unfold KeepsConstraints
  rw [hdefinitions]
  decide

end TableDraft

end DeclarativeSql
