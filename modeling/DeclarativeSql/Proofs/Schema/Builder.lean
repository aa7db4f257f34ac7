import DeclarativeSql.Proofs.Migration.Conflicts
import DeclarativeSql.Proofs.Migration.Sameness
import DeclarativeSql.Proofs.Schema.Listing
import Mathlib.Data.List.Pairwise

/-!
# Built databases

A builder refuses a name that is taken, but not two tiers over the same columns, which ask for one
index or one unique twice. A built database differs in nothing from itself exactly if its tables
tell their tiers apart; otherwise the difference is refused.
-/
namespace DeclarativeSql

open ColumnFlags (tiers)

namespace TableDraft

/-- A declaration decides itself whether it goes on after a refused step. -/
def attempt (draft : TableDraft) (steps : List DeclareStep) : TableDraft :=
  steps.foldl (fun d s => (d.step s).2) draft

theorem attempt_of_run {steps : List DeclareStep} {draft last : TableDraft}
    (h : (draft.run steps).2 = .ok last) : draft.attempt steps = last := by
  induction steps generalizing draft with
  | nil => exact Except.ok.inj h
  | cons s steps ih =>
    unfold run at h
    split at h
    next hstep =>
      rw [attempt, List.foldl_cons, hstep]
      exact ih h
    next => cases h

theorem bind_of_refused {draft next : TableDraft} {member : String} {d : ColumnDef}
    {e : ConstructionError} (h : draft.bind member d = (.error e, next)) : next = draft := by
  unfold bind at h
  split at h
  · exact (Prod.mk.inj h).2.symm
  · cases h

/-- A refused step binds nothing. What it registered stays. -/
theorem columns_of_refused {draft next : TableDraft} {s : DeclareStep} {e : ConstructionError}
    (h : draft.step s = (.error e, next)) : next.columns = draft.columns := by
  cases s with
  | column member name t flags =>
    simp only [step, column] at h
    split at h
    · rw [← (Prod.mk.inj h).2]
    · rw [bind_of_refused h]
  | bind member d => rw [bind_of_refused h]
  | lookup member => rw [← (Prod.mk.inj h).2]

theorem NamesOnce.attempt {draft : TableDraft} (h : draft.NamesOnce) (steps : List DeclareStep) :
    (draft.attempt steps).NamesOnce := by
  induction steps generalizing draft with
  | nil => exact h
  | cons s steps ih =>
    rw [TableDraft.attempt, List.foldl_cons]
    apply ih
    cases hs : draft.step s with
    | mk result next =>
      cases result with
      | ok c => exact h.step hs
      | error e => rwa [NamesOnce, columns_of_refused hs]

theorem name_step (draft : TableDraft) (s : DeclareStep) : (draft.step s).2.name = draft.name := by
  have hbind : ∀ (d : TableDraft) member definition,
      (d.bind member definition).2.name = d.name := by
    intro d member definition
    unfold bind
    split <;> rfl
  cases s with
  | column member name t flags =>
    simp only [step, column]
    split
    · rfl
    · exact hbind _ _ _
  | bind member d => exact hbind _ _ _
  | lookup member => rfl

theorem name_attempt (draft : TableDraft) (steps : List DeclareStep) :
    (draft.attempt steps).name = draft.name := by
  induction steps generalizing draft with
  | nil => rfl
  | cons s steps ih =>
    rw [attempt, List.foldl_cons]
    exact (ih _).trans (name_step draft s)

end TableDraft

namespace SchemaBuilder

/-- What a builder can be after definitions, refused ones included, and declarations. -/
inductive IsBuilt : SchemaBuilder → Prop
  | new (name : String) (first : TableId) : IsBuilt (new name first)
  | define {b : SchemaBuilder} (name : String) (sqlType : SqlType) (flags : ColumnFlags) :
      IsBuilt b → IsBuilt (b.define name sqlType flags).2
  | declare {b : SchemaBuilder} {table : String} {draft : TableDraft} (steps : List DeclareStep) :
      IsBuilt b → b.enter table = .ok draft → IsBuilt (b.leave (draft.attempt steps))

theorem IsBuilt.declared {b next : SchemaBuilder} (h : b.IsBuilt) {table : String}
    {steps : List DeclareStep} (hdeclare : b.declare table steps = .ok next) : next.IsBuilt := by
  unfold SchemaBuilder.declare at hdeclare
  split at hdeclare
  next => cases hdeclare
  next draft hdraft =>
    split at hdeclare
    next => cases hdeclare
    next last hrun =>
      obtain rfl := Except.ok.inj hdeclare
      rw [← TableDraft.attempt_of_run hrun]
      exact .declare steps h hdraft

theorem enter_eq_ok_iff {b : SchemaBuilder} {table : String} {draft : TableDraft} :
    b.enter table = .ok draft ↔
      table ∉ b.tables.map Table.name ∧ draft = ⟨b.registry, b.next, table, []⟩ := by
  unfold enter
  by_cases h : b.tables.any (·.name == table) = true
  · rw [if_pos h]
    have hmem : table ∈ b.tables.map Table.name := by simpa using h
    simp [hmem]
  · rw [if_neg h]
    have hmem : table ∉ b.tables.map Table.name := by simpa using h
    simp only [hmem, not_false_eq_true, true_and, Except.ok.injEq]
    exact eq_comm

/-- No name of a table is taken twice. -/
theorem IsBuilt.names {b : SchemaBuilder} (h : b.IsBuilt) : (b.tables.map Table.name).Nodup := by
  induction h with
  | new => exact List.nodup_nil
  | define _ _ _ _ ih => exact ih
  | declare steps _ henter ih =>
    obtain ⟨hnew, rfl⟩ := enter_eq_ok_iff.mp henter
    rw [leave, List.map_append, List.map_singleton, ← List.concat_eq_append]
    apply ih.concat
    rwa [TableDraft.finish, Table.ofColumns, TableDraft.name_attempt]

theorem IsBuilt.ofColumns {b : SchemaBuilder} (h : b.IsBuilt) : ∀ t ∈ b.tables,
    ∃ id name columns, t = .ofColumns id name columns ∧ (columns.map Column.name).Nodup := by
  induction h with
  | new => simp [SchemaBuilder.new]
  | define _ _ _ _ ih => exact ih
  | @declare b table draft steps _ henter ih =>
    obtain ⟨-, rfl⟩ := enter_eq_ok_iff.mp henter
    intro t ht
    rcases List.mem_append.mp ht with ht | ht
    · exact ih t ht
    · have hempty : TableDraft.NamesOnce ⟨b.registry, b.next, table, []⟩ := List.nodup_nil
      exact ⟨_, _, _, List.mem_singleton.mp ht, hempty.attempt steps⟩

/-- All constraints of a declared database can be named. -/
theorem IsBuilt.listsFirst {b : SchemaBuilder} (h : b.IsBuilt) : b.build.ListsFirst := by
  intro t ht
  obtain ⟨id, name, columns, rfl, hnames⟩ := h.ofColumns t ht
  exact Table.listsFirst_ofColumns hnames id name

end SchemaBuilder

/-- Some column carries the first flag, and the columns that carry it are those that carry the
second one. -/
def Table.CarriesTogether (t : Table) (f g : ColumnFlags) : Prop :=
  (∃ d ∈ t.definitions, d.flags.contains f = true) ∧
    ∀ d ∈ t.definitions, d.flags.contains f = d.flags.contains g

/-- No two index tiers, and no two unique tiers, stand for the same columns. -/
structure Table.TellsTiersApart (t : Table) : Prop where
  indices : ∀ i ∈ tiers, ∀ j ∈ tiers, i ≠ j → ¬ t.CarriesTogether (.indexTier i) (.indexTier j)
  uniques : ∀ i ∈ tiers, ∀ j ∈ tiers, i ≠ j → ¬ t.CarriesTogether (.uniqueTier i) (.uniqueTier j)

theorem nodup_map_filterMap_iff {α β κ : Type} {xs : List α} (hxs : xs.Nodup) {f : α → Option β}
    {key : β → κ} : ((xs.filterMap f).map key).Nodup ↔
      ∀ i ∈ xs, ∀ j ∈ xs, i ≠ j → ∀ x ∈ f i, ∀ y ∈ f j, key x ≠ key y := by
  rw [List.Nodup, List.pairwise_map, List.pairwise_filterMap]
  have hsymm : Std.Symm fun i j => ∀ x ∈ f i, ∀ y ∈ f j, key x ≠ key y :=
    ⟨fun _ _ h y hy x hx => (h x hx y hy).symm⟩
  constructor
  · intro h i hi j hj hij
    exact List.Pairwise.forall h hi hj hij
  · intro h
    exact hxs.pairwise_of_forall_ne fun i hi j hj hij => h i hi j hj hij

section Carrying

variable {definitions : List ColumnDef} {f g : ColumnFlags}

theorem mem_carrying {d : ColumnDef} :
    d ∈ Table.carrying definitions f ↔ d ∈ definitions ∧ d.flags.contains f = true :=
  List.mem_filter

theorem carrying_congr
    (h : ∀ d ∈ definitions, d.flags.contains f = d.flags.contains g) :
    Table.carrying definitions f = Table.carrying definitions g :=
  List.filter_congr h

/-- Names tell columns apart, so a signature tells which columns it lists. -/
theorem signatureOf_carrying_eq_iff (h : (definitions.map ColumnDef.name).Nodup) :
    signatureOf (Table.carrying definitions f) = signatureOf (Table.carrying definitions g) ↔
      ∀ d ∈ definitions, d.flags.contains f = d.flags.contains g := by
  constructor
  · intro hsig d hd
    have hnames := names_eq_of_signatureOf hsig
    have htransfer : ∀ {f g}, (Table.carrying definitions f).map ColumnDef.name =
        (Table.carrying definitions g).map ColumnDef.name →
        d.flags.contains f = true → d.flags.contains g = true := by
      intro f g hnames hf
      have hmem : d.name ∈ (Table.carrying definitions g).map ColumnDef.name := by
        rw [← hnames]
        exact List.mem_map_of_mem (mem_carrying.mpr ⟨hd, hf⟩)
      obtain ⟨o, ho, hname⟩ := List.mem_map.mp hmem
      obtain ⟨homem, hog⟩ := mem_carrying.mp ho
      rwa [← List.inj_on_of_nodup_map h homem hd hname]
    exact Bool.eq_iff_iff.mpr ⟨htransfer hnames, htransfer hnames.symm⟩
  · intro hflags
    rw [carrying_congr hflags]

theorem nodup_tiers_iff {α σ : Type} (h : (definitions.map ColumnDef.name).Nodup)
    {flag : Nat → ColumnFlags} {constraint : Nat → Option α} {sig : α → σ}
    (hasked : ∀ i, (∃ x, constraint i = some x) ↔
      ∃ d ∈ definitions, d.flags.contains (flag i) = true)
    (hsig : ∀ i j x y, constraint i = some x → constraint j = some y → (sig x = sig y ↔
      signatureOf (Table.carrying definitions (flag i)) =
        signatureOf (Table.carrying definitions (flag j)))) :
    ((tiers.filterMap constraint).map sig).Nodup ↔ ∀ i ∈ tiers, ∀ j ∈ tiers, i ≠ j →
      ¬ ((∃ d ∈ definitions, d.flags.contains (flag i) = true) ∧
        ∀ d ∈ definitions, d.flags.contains (flag i) = d.flags.contains (flag j)) := by
  rw [nodup_map_filterMap_iff (by decide)]
  refine forall₂_congr fun i _ => forall₂_congr fun j _ => imp_congr_right fun _ => ?_
  constructor
  · rintro hne ⟨hcarried, hflags⟩
    have hcarried' : ∃ d ∈ definitions, d.flags.contains (flag j) = true := by
      obtain ⟨d, hd, hi⟩ := hcarried
      exact ⟨d, hd, by rw [← hflags d hd, hi]⟩
    obtain ⟨x, hx⟩ := (hasked i).mpr hcarried
    obtain ⟨y, hy⟩ := (hasked j).mpr hcarried'
    exact hne x hx y hy
      ((hsig i j x y hx hy).mpr ((signatureOf_carrying_eq_iff h).mpr hflags))
  · intro hnot x hx y hy hxy
    exact hnot ⟨(hasked i).mp ⟨x, hx⟩,
      (signatureOf_carrying_eq_iff h).mp ((hsig i j x y hx hy).mp hxy)⟩

theorem carrying_ne_nil_iff : Table.carrying definitions f ≠ [] ↔
    ∃ d ∈ definitions, d.flags.contains f = true := by
  simp [Table.carrying]

theorem exists_indexOf_iff {table : String} {tier : Nat} :
    (∃ i, Table.indexOf table definitions tier = some i) ↔
      ∃ d ∈ definitions, d.flags.contains (.indexTier tier) = true := by
  rw [← carrying_ne_nil_iff]
  unfold Table.indexOf
  cases Table.carrying definitions (.indexTier tier) <;> simp

theorem exists_uniqueOf_iff {table : String} {tier : Nat} :
    (∃ k, Table.uniqueOf table definitions tier = some k) ↔
      ∃ d ∈ definitions, d.flags.contains (.uniqueTier tier) = true := by
  rw [← carrying_ne_nil_iff]
  unfold Table.uniqueOf
  cases Table.carrying definitions (.uniqueTier tier) <;> simp

theorem method_indexOf {table : String} {tier : Nat} {i : Index}
    (h : Table.indexOf table definitions tier = some i) :
    i.method = if i.columns.any fun d => d.flags.contains .gin then .gin else .standard := by
  unfold Table.indexOf at h
  split at h
  · cases h
  · rw [← Option.some.inj h]
    rfl

/-- The method of an index follows from its columns. -/
theorem signature_indexOf_eq_iff (h : (definitions.map ColumnDef.name).Nodup) {table : String}
    {i j : Nat} {x y : Index} (hx : Table.indexOf table definitions i = some x)
    (hy : Table.indexOf table definitions j = some y) : x.signature = y.signature ↔
      signatureOf (Table.carrying definitions (.indexTier i)) =
        signatureOf (Table.carrying definitions (.indexTier j)) := by
  have hxcolumns := Table.columns_indexOf hx
  have hycolumns := Table.columns_indexOf hy
  constructor
  · intro hsig
    rw [← hxcolumns, ← hycolumns]
    exact Index.signatureOf_eq hsig
  · intro hsig
    have hcarrying := carrying_congr ((signatureOf_carrying_eq_iff h).mp hsig)
    have hcolumns : x.columns = y.columns := by rw [hxcolumns, hycolumns, hcarrying]
    rw [Index.signature, Index.signature, method_indexOf hx, method_indexOf hy, hcolumns]

end Carrying

theorem Table.isUnambiguous_ofColumns_iff {columns : List Column}
    (h : (columns.map Column.name).Nodup) (id : TableId) (name : String) :
    (ofColumns id name columns).IsUnambiguous ↔ (ofColumns id name columns).TellsTiersApart := by
  have hnames : ((columns.map (·.definition)).map ColumnDef.name).Nodup := by
    rwa [List.map_map]
  have hindices : ((ofColumns id name columns).indices.map Index.signature).Nodup ↔ _ :=
    nodup_tiers_iff hnames (fun _ => exists_indexOf_iff)
      fun _ _ _ _ hx hy => signature_indexOf_eq_iff hnames hx hy
  have huniques : ((ofColumns id name columns).uniques.map Key.signature).Nodup ↔ _ :=
    nodup_tiers_iff hnames (fun _ => exists_uniqueOf_iff) fun _ _ _ _ hx hy => by
      rw [Key.signature, Key.signature, columns_uniqueOf hx, columns_uniqueOf hy]
  exact ⟨fun hu => ⟨hindices.mp hu.indices, huniques.mp hu.uniques⟩,
    fun ht => ⟨hnames, hindices.mpr ht.indices, huniques.mpr ht.uniques⟩⟩

theorem mem_of_firstRepeat {α κ : Type} [DecidableEq κ] {key : α → κ} {seen : List κ} {xs : List α}
    {x : α} (h : firstRepeat key seen xs = some x) : x ∈ xs := by
  obtain ⟨front, back, rfl, -, -⟩ := exists_of_firstRepeat h
  exact List.mem_append_right _ List.mem_cons_self

/-- What is ambiguous in a table whose columns are told apart is a constraint. -/
theorem Table.constraint_of_ambiguity? {t : Table} (h : (t.definitions.map ColumnDef.name).Nodup)
    {a : Ambiguity} (ha : t.ambiguity? = some a) :
    (∃ i ∈ t.indices, a = .indexTwice i.name) ∨ ∃ k ∈ t.uniques, a = .uniqueTwice k.name := by
  have hcolumns : firstRepeat ColumnDef.name [] t.definitions = none :=
    firstRepeat_eq_none_iff.mpr ⟨h, by simp⟩
  simp only [ambiguity?, hcolumns] at ha
  split at ha
  next i hi => exact .inl ⟨i, mem_of_firstRepeat hi, (Option.some.inj ha).symm⟩
  next =>
    split at ha
    next k hk => exact .inr ⟨k, mem_of_firstRepeat hk, (Option.some.inj ha).symm⟩
    next => cases ha

/-- A table whose name is taken once is ambiguous in itself. -/
theorem exists_of_firstAmbiguous {seen : List String} {ts : List Table}
    (hnames : (ts.map Table.name).Nodup) (hseen : ∀ t ∈ ts, t.name ∉ seen) {name : String}
    {a : Ambiguity} (h : firstAmbiguous seen ts = some (name, a)) :
    ∃ t ∈ ts, t.name = name ∧ t.ambiguity? = some a := by
  obtain ⟨done, t, rest, rfl, hname, -, ht⟩ := exists_of_firstAmbiguous_eq_some h
  have hmem : t ∈ done ++ t :: rest := List.mem_append_right _ List.mem_cons_self
  cases ht with
  | name hearlier =>
    rw [List.mem_append, List.mem_reverse] at hearlier
    rcases hearlier with hdone | hgiven
    · exact absurd hdone (notMem_map_of_nodup hnames).1
    · exact absurd hgiven (hseen t hmem)
  | inner _ hrepeats => exact ⟨t, hmem, hname, Table.ambiguity?_eq_some_iff.mpr hrepeats⟩

namespace SchemaBuilder

variable {b : SchemaBuilder}

theorem IsBuilt.isUnambiguous_table_iff (h : b.IsBuilt) {t : Table} (ht : t ∈ b.tables) :
    t.IsUnambiguous ↔ t.TellsTiersApart := by
  obtain ⟨id, name, columns, rfl, hnames⟩ := h.ofColumns t ht
  exact Table.isUnambiguous_ofColumns_iff hnames id name

theorem IsBuilt.isUnambiguous_iff (h : b.IsBuilt) :
    b.build.IsUnambiguous ↔ ∀ t ∈ b.tables, t.TellsTiersApart :=
  ⟨fun hu t ht => (h.isUnambiguous_table_iff ht).mp (hu.tables t ht),
    fun ht => ⟨h.names, fun t hmem => (h.isUnambiguous_table_iff hmem).mpr (ht t hmem)⟩⟩

/-- A built database differs in nothing from itself, unless one of its tables has two index tiers
or two unique tiers over the same columns. Such a table is refused for a constraint of its own. -/
theorem IsBuilt.diff_self (h : b.IsBuilt) :
    ((∀ t ∈ b.tables, t.TellsTiersApart) →
      ∃ delta, diff b.build b.build = .ok delta ∧ delta.isEmpty = true) ∧
    ((∃ t ∈ b.tables, ¬ t.TellsTiersApart) → ∃ t ∈ b.tables, ¬ t.TellsTiersApart ∧
      ∃ a, diff b.build b.build = .error (.diffConflict .current t.name a) ∧
        ((∃ i ∈ t.indices, a = .indexTwice i.name) ∨
          ∃ k ∈ t.uniques, a = .uniqueTwice k.name)) := by
  constructor
  · intro hapart
    exact diff_self_isEmpty (h.isUnambiguous_iff.mpr hapart)
  · rintro ⟨o, ho, hnot⟩
    cases ha : b.build.ambiguity? with
    | none =>
      have hu := Database.ambiguity?_eq_none_iff.mp ha
      exact absurd (h.isUnambiguous_iff.mp hu o ho) hnot
    | some found =>
      obtain ⟨t, ht, hname, hfound⟩ := exists_of_firstAmbiguous h.names (by simp) ha
      have hambiguous : ¬ t.TellsTiersApart := by
        rw [← h.isUnambiguous_table_iff ht, ← Table.ambiguity?_eq_none_iff, hfound]
        exact Option.some_ne_none _
      have hdiff : diff b.build b.build = .error (.diffConflict .current t.name found.2) := by
        unfold diff
        rw [ha, hname]
      have hcolumns : (t.definitions.map ColumnDef.name).Nodup := by
        obtain ⟨id, name, columns, rfl, hnodup⟩ := h.ofColumns t ht
        rwa [Table.definitions_ofColumns, List.map_map]
      exact ⟨t, ht, hambiguous, found.2, hdiff, Table.constraint_of_ambiguity? hcolumns hfound⟩

/-- A table of one column, which carries the given flags. -/
def ofFlags (flags : ColumnFlags) : Except ConstructionError SchemaBuilder :=
  (new "app" ⟨0⟩).declare "users" [.column "Id" "id" (.scalar .int64) flags]

theorem isBuilt_of_ofFlags {flags : ColumnFlags} {b : SchemaBuilder} (h : ofFlags flags = .ok b) :
    b.IsBuilt := (IsBuilt.new "app" ⟨0⟩).declared h

/-- An index and a unique over the same column. -/
theorem indexedUnique_diff_self : ∃ b, ofFlags (.indexTier 1 ||| .uniqueTier 1) = .ok b ∧
    ∃ delta, diff b.build b.build = .ok delta ∧ delta.isEmpty = true := by
  obtain ⟨b, hb⟩ : ∃ b, ofFlags (.indexTier 1 ||| .uniqueTier 1) = .ok b := ⟨_, rfl⟩
  refine ⟨b, hb, (isBuilt_of_ofFlags hb).diff_self.1 ?_⟩
  cases hb
  intro t ht
  obtain rfl := List.mem_singleton.mp ht
  constructor <;> unfold Table.CarriesTogether <;> decide

/-- The same index twice. -/
theorem indexedTwice_refused : ∃ b, ofFlags (.indexTier 1 ||| .indexTier 2) = .ok b ∧
    b.IsBuilt ∧ ¬ ∃ delta, diff b.build b.build = .ok delta ∧ delta.isEmpty = true := by
  obtain ⟨b, hb⟩ : ∃ b, ofFlags (.indexTier 1 ||| .indexTier 2) = .ok b := ⟨_, rfl⟩
  refine ⟨b, hb, isBuilt_of_ofFlags hb, ?_⟩
  cases hb
  rintro ⟨delta, hdelta, -⟩
  cases hdelta

end SchemaBuilder

end DeclarativeSql
