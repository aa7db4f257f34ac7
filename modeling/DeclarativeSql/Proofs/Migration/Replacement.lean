import DeclarativeSql.Proofs.Migration.Matching

/-!
# Replaced columns

A difference collects the names of replaced columns in one pass over the current table and settles
both of its halves with them. Where names tell the columns apart a pass over the target would
collect the same ones. So what one half drops and what the other one adds can be described by one
rule, which looks from its own table at the other one.
-/
namespace DeclarativeSql

namespace ColumnDef

/-- What a stored column is told apart by. -/
def shape (d : ColumnDef) : String × SqlType × ColumnFlags :=
  (d.name, d.sqlType, d.flags.structural)

theorem sameShape_iff_shape {a b : ColumnDef} : a.sameShape b = true ↔ a.shape = b.shape := by
  simp [sameShape_iff, shape]

theorem name_eq_of_shape {a b : ColumnDef} (h : a.shape = b.shape) : a.name = b.name :=
  congrArg Prod.fst h

end ColumnDef

namespace Table

def columnNames (t : Table) : List String := t.definitions.map ColumnDef.name

theorem columns_map_name (t : Table) : t.columns.map Column.name = t.columnNames := by
  rw [columnNames, definitions, List.map_map]
  rfl

theorem nodup_shapes {t : Table} (h : t.columnNames.Nodup) :
    (t.definitions.map ColumnDef.shape).Nodup := by
  rw [columnNames] at h
  have := h.of_map
  refine List.Nodup.of_map Prod.fst ?_
  rwa [List.map_map]

theorem columnByName?_eq_none_iff {t : Table} {name : String} :
    t.columnByName? name = none ↔ name ∉ t.columnNames := by
  rw [← columns_map_name]
  exact find?_eq_none_iff_key

theorem exists_columnByName?_iff {t : Table} (h : t.columnNames.Nodup) {name : String}
    {d : ColumnDef} : (∃ c, t.columnByName? name = some c ∧ c.definition = d) ↔
      d ∈ t.definitions ∧ d.name = name := by
  have hfind : ∀ c, t.columnByName? name = some c ↔ c ∈ t.columns ∧ c.name = name := fun c =>
    find?_eq_some_iff_of_nodup (by rwa [columns_map_name])
  simp only [hfind, definitions, List.mem_map]
  constructor
  · rintro ⟨c, ⟨hc, rfl⟩, rfl⟩
    exact ⟨⟨c, hc, rfl⟩, rfl⟩
  · rintro ⟨⟨c, hc, rfl⟩, hn⟩
    exact ⟨c, ⟨hc, hn⟩, rfl⟩

theorem lacks_eq_false_iff {t : Table} (h : t.columnNames.Nodup) {d : ColumnDef} :
    t.lacks d = false ↔ d.shape ∈ t.definitions.map ColumnDef.shape := by
  unfold lacks
  cases hc : t.columnByName? d.name with
  | none =>
    have hn := columnByName?_eq_none_iff.mp hc
    simp only [Bool.true_eq_false, false_iff, List.mem_map, not_exists, not_and]
    intro o ho hs
    exact hn (List.mem_map.mpr ⟨o, ho, ColumnDef.name_eq_of_shape hs⟩)
  | some c =>
    obtain ⟨hd, hn⟩ := (exists_columnByName?_iff h).mp ⟨c, hc, rfl⟩
    simp only [Bool.not_eq_false', ColumnDef.sameShape_iff_shape, List.mem_map]
    constructor
    · intro hs
      exact ⟨c.definition, hd, hs.symm⟩
    · rintro ⟨o, ho, hs⟩
      have ho' : o.name = c.definition.name := (ColumnDef.name_eq_of_shape hs).trans hn.symm
      rw [← List.inj_on_of_nodup_map h ho hd ho', hs]

end Table

/-- The column is in both tables, with different shapes. -/
def isReplaced (a b : Table) (name : String) : Bool :=
  match a.columnByName? name, b.columnByName? name with
  | some c, some o => !c.definition.sameShape o.definition
  | _, _ => false

def coversReplaced (own other : Table) (columns : List ColumnDef) : Bool :=
  columns.any fun d => isReplaced own other d.name

/-- Columns of one table that the other one lacks. -/
def columnsNotIn (own other : Table) : List ColumnDef := own.definitions.filter other.lacks

def primaryKeyChanged (current target : Table) : Bool :=
  match current.primaryKey, target.primaryKey with
  | none, none => false
  | some c, some t => c.signature != t.signature || coversReplaced current target c.columns
  | _, _ => true

theorem ColumnDef.sameShape_comm (a b : ColumnDef) : a.sameShape b = b.sameShape a := by
  rw [Bool.eq_iff_iff, sameShape_iff_shape, sameShape_iff_shape, eq_comm]

theorem isReplaced_comm (a b : Table) (name : String) :
    isReplaced a b name = isReplaced b a name := by
  unfold isReplaced
  cases a.columnByName? name <;> cases b.columnByName? name <;>
    simp [ColumnDef.sameShape_comm]

theorem coversReplaced_eq_any (a b : Table) (columns : List ColumnDef) :
    coversReplaced a b columns = (columns.map ColumnDef.name).any (isReplaced a b) := by
  rw [coversReplaced, List.any_map]
  rfl

theorem names_eq_of_signatureOf {xs ys : List ColumnDef} (h : signatureOf xs = signatureOf ys) :
    xs.map ColumnDef.name = ys.map ColumnDef.name := by
  have := congrArg (List.map Prod.fst) h
  simpa [signatureOf, Function.comp_def] using this

/-- Both sides agree on which of two matching constraints cover a replaced column. -/
theorem coversReplaced_congr {a b : Table} {xs ys : List ColumnDef}
    (h : signatureOf xs = signatureOf ys) : coversReplaced a b xs = coversReplaced b a ys := by
  rw [coversReplaced_eq_any, coversReplaced_eq_any, names_eq_of_signatureOf h]
  exact congrArg _ (funext fun name => isReplaced_comm a b name)

theorem isReplaced_of_lacks {own other : Table} (h : own.columnNames.Nodup) {d : ColumnDef}
    (hd : d ∈ own.definitions) (hl : other.lacks d = true) (hn : d.name ∈ other.columnNames) :
    isReplaced own other d.name = true := by
  obtain ⟨c, hc, hcd⟩ := (Table.exists_columnByName?_iff h).mpr ⟨hd, rfl⟩
  unfold Table.lacks at hl
  unfold isReplaced
  cases ho : other.columnByName? d.name with
  | none => exact absurd hn (Table.columnByName?_eq_none_iff.mp ho)
  | some o =>
    rw [ho] at hl
    simpa [hc, hcd] using hl

theorem exists_lacks_of_isReplaced {own other : Table} {name : String}
    (h : isReplaced own other name = true) :
    ∃ d ∈ own.definitions, d.name = name ∧ other.lacks d = true := by
  unfold isReplaced at h
  split at h
  next c o hc ho =>
    have hn : c.definition.name = name := by simpa [Column.name] using List.find?_some hc
    refine ⟨c.definition, List.mem_map_of_mem (List.mem_of_find?_eq_some hc), hn, ?_⟩
    unfold Table.lacks
    rw [hn, ho]
    exact h
  next => cases h

theorem coversReplaced_eq_false {own other : Table}
    (h : ∀ d ∈ own.definitions, other.lacks d = false) (columns : List ColumnDef) :
    coversReplaced own other columns = false := by
  rw [coversReplaced, List.any_eq_false]
  intro d _ hr
  obtain ⟨o, ho, -, hl⟩ := exists_lacks_of_isReplaced hr
  rw [h o ho] at hl
  cases hl

theorem mem_replacedNames_iff {current target : Table} (h : current.columnNames.Nodup)
    {name : String} :
    name ∈ replacedNames current target ↔ isReplaced current target name = true := by
  simp only [replacedNames, List.mem_map, List.mem_filter, Bool.and_eq_true]
  constructor
  · rintro ⟨d, ⟨hd, hfound, hlacks⟩, rfl⟩
    refine isReplaced_of_lacks h hd hlacks ?_
    by_contra hnone
    rw [Table.columnByName?_eq_none_iff.mpr hnone] at hfound
    cases hfound
  · intro hreplaced
    obtain ⟨d, hd, rfl, hlacks⟩ := exists_lacks_of_isReplaced hreplaced
    refine ⟨d, ⟨hd, ?_, hlacks⟩, rfl⟩
    by_contra hnone
    rw [Bool.not_eq_true, Option.isSome_eq_false_iff, Option.isNone_iff_eq_none] at hnone
    simp [isReplaced, hnone] at hreplaced

theorem coversAny_replacedNames {current target : Table} (h : current.columnNames.Nodup)
    (columns : List ColumnDef) :
    coversAny columns (replacedNames current target) = coversReplaced current target columns := by
  unfold coversAny coversReplaced
  congr 1
  funext d
  rw [Bool.eq_iff_iff, decide_eq_true_iff, mem_replacedNames_iff h]

theorem keyChanged_replacedNames {current target : Table} (h : current.columnNames.Nodup) :
    keyChanged (replacedNames current target) current target =
      primaryKeyChanged current target := by
  unfold keyChanged primaryKeyChanged
  cases current.primaryKey <;> cases target.primaryKey <;> simp [coversAny_replacedNames h]

section Constraints

variable {α σ : Type} [BEq σ]

/-- A constraint that is dropped, or added: it has no counterpart or covers a replaced column. -/
def isUnmatched (sig : α → σ) (columns : α → List ColumnDef) (own other : Table) (others : List α)
    (x : α) : Bool :=
  !(others.any fun o => sig o == sig x) || coversReplaced own other (columns x)

/-- It does not matter from which of the two tables the replaced columns are looked at. -/
theorem isUnmatched_comm (sig : α → σ) (columns : α → List ColumnDef) (a b : Table)
    (others : List α) :
    isUnmatched sig columns a b others = isUnmatched sig columns b a others := by
  funext x
  unfold isUnmatched
  rw [coversReplaced_congr (a := a) (b := b) rfl]

theorem unmatched_replacedNames {sig : α → σ} {columns : α → List ColumnDef}
    {current target : Table} (h : current.columnNames.Nodup) (own others : List α) :
    unmatched sig columns (replacedNames current target) own others =
      own.filter (isUnmatched sig columns current target others) := by
  unfold unmatched isUnmatched
  simp only [coversAny_replacedNames h]

variable [LawfulBEq σ]

theorem isUnmatched_eq_false_iff {sig : α → σ} {columns : α → List ColumnDef} {own other : Table}
    {others : List α} {x : α} : isUnmatched sig columns own other others x = false ↔
      sig x ∈ others.map sig ∧ coversReplaced own other (columns x) = false := by
  simp [isUnmatched]

theorem kept_append_unmatched_perm {sig : α → σ} {columns : α → List ColumnDef}
    (hsig : ∀ x y, sig x = sig y → signatureOf (columns x) = signatureOf (columns y))
    (current target : Table) {xs ys : List α} (hx : (xs.map sig).Nodup)
    (hy : (ys.map sig).Nodup) :
    ((xs.filter (!isUnmatched sig columns current target ys ·) ++
        ys.filter (isUnmatched sig columns target current xs)).map sig).Perm (ys.map sig) := by
  refine kept_append_added_perm hx hy (fun x _ h => (isUnmatched_eq_false_iff.mp h).1)
    (fun y _ h => (isUnmatched_eq_false_iff.mp h).1) fun x hx y hy hk => ?_
  have hx' : sig x ∈ ys.map sig := List.mem_map.mpr ⟨y, hy, hk.symm⟩
  have hy' : sig y ∈ xs.map sig := List.mem_map.mpr ⟨x, hx, hk⟩
  rw [Bool.eq_iff_iff, ← Bool.not_eq_false, ← Bool.not_eq_false, isUnmatched_eq_false_iff,
    isUnmatched_eq_false_iff, coversReplaced_congr (hsig x y hk)]
  simp [hx', hy']

theorem filter_isUnmatched_eq_nil {sig : α → σ} {columns : α → List ColumnDef}
    {own other : Table} {xs ys : List α} (h : ∀ d ∈ own.definitions, other.lacks d = false)
    (hsig : xs.map sig ⊆ ys.map sig) :
    xs.filter (isUnmatched sig columns own other ys) = [] := by
  rw [List.filter_eq_nil_iff]
  intro x hx
  rw [Bool.not_eq_true, isUnmatched_eq_false_iff]
  exact ⟨hsig (List.mem_map_of_mem hx), coversReplaced_eq_false h _⟩

theorem perm_of_filter_isUnmatched_eq_nil {sig : α → σ} {columns : α → List ColumnDef}
    (hcolumns : ∀ x y, sig x = sig y → signatureOf (columns x) = signatureOf (columns y))
    {current target : Table} {xs ys : List α} (hx : (xs.map sig).Nodup) (hy : (ys.map sig).Nodup)
    (hdrop : xs.filter (isUnmatched sig columns current target ys) = [])
    (hadd : ys.filter (isUnmatched sig columns target current xs) = []) :
    (xs.map sig).Perm (ys.map sig) := by
  have h := kept_append_unmatched_perm hcolumns current target hx hy
  have hkept : xs.filter (!isUnmatched sig columns current target ys ·) = xs := by
    simpa [List.filter_eq_self] using hdrop
  rwa [hkept, hadd, List.append_nil] at h

end Constraints

theorem Index.signatureOf_eq {i j : Index} (h : i.signature = j.signature) :
    signatureOf i.columns = signatureOf j.columns := congrArg Prod.fst h

/-- An index is dropped. -/
def Index.isDropped (current target : Table) (i : Index) : Bool :=
  isUnmatched Index.signature Index.columns current target target.indices i

def Key.isDropped (current target : Table) (k : Key) : Bool :=
  isUnmatched Key.signature Key.columns current target target.uniques k

def indicesNotIn (own other : Table) : List Index := own.indices.filter (Index.isDropped own other)

def uniquesNotIn (own other : Table) : List Key := own.uniques.filter (Key.isDropped own other)

/-- A column comes from the target if the current table lacks it, as it does with one that is
replaced. -/
theorem columnsNotIn_eq_of_replacedNames {current target : Table} (hc : current.columnNames.Nodup)
    (ht : target.columnNames.Nodup) : columnsNotIn target current = target.definitions.filter
      fun d => (current.columnByName? d.name).isNone || d.name ∈ replacedNames current target := by
  refine List.filter_congr fun d hd => ?_
  obtain ⟨o, ho, hod⟩ := (Table.exists_columnByName?_iff ht).mpr ⟨hd, rfl⟩
  rw [Bool.eq_iff_iff, Bool.or_eq_true, decide_eq_true_iff, mem_replacedNames_iff hc, Table.lacks,
    isReplaced, ho]
  cases current.columnByName? d.name with
  | none => simp
  | some c => simp [hod, ColumnDef.sameShape_comm]

/-- Seen from either table, the difference is what the other one does not have. -/
theorem diffTable_eq {current target : Table} (hc : current.columnNames.Nodup)
    (ht : target.columnNames.Nodup) : diffTable current target =
      { name := target.name
        columnsToDrop := columnsNotIn current target
        columnsToAdd := columnsNotIn target current
        primaryKeyToDrop :=
          if primaryKeyChanged current target then current.primaryKey else none
        primaryKeyToAdd :=
          if primaryKeyChanged current target then target.primaryKey else none
        indicesToDrop := indicesNotIn current target
        indicesToAdd := indicesNotIn target current
        uniquesToDrop := uniquesNotIn current target
        uniquesToAdd := uniquesNotIn target current } := by
  have hindices : indicesNotIn target current = target.indices.filter
      (isUnmatched Index.signature Index.columns current target current.indices) := by
    rw [isUnmatched_comm]
    rfl
  have huniques : uniquesNotIn target current = target.uniques.filter
      (isUnmatched Key.signature Key.columns current target current.uniques) := by
    rw [isUnmatched_comm]
    rfl
  rw [columnsNotIn_eq_of_replacedNames hc ht, hindices, huniques]
  simp only [diffTable, keyChanged_replacedNames hc, unmatched_replacedNames hc]
  rfl

end DeclarativeSql
