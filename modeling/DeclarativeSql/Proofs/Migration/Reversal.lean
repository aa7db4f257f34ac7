import DeclarativeSql.Proofs.Migration.Structure

/-!
# Reversed differences

The difference back undoes the difference there: what one of them drops the other one adds, list by
list.
-/
namespace DeclarativeSql

namespace TableDelta

/-- What was to be dropped is to be added, and the other way round. -/
def reversed (d : TableDelta) : TableDelta :=
  { name := d.name
    columnsToDrop := d.columnsToAdd
    columnsToAdd := d.columnsToDrop
    primaryKeyToDrop := d.primaryKeyToAdd
    primaryKeyToAdd := d.primaryKeyToDrop
    indicesToDrop := d.indicesToAdd
    indicesToAdd := d.indicesToDrop
    uniquesToDrop := d.uniquesToAdd
    uniquesToAdd := d.uniquesToDrop }

theorem reversed_reversed (d : TableDelta) : d.reversed.reversed = d := rfl

theorem isEmpty_reversed (d : TableDelta) : d.reversed.isEmpty = d.isEmpty := by
  rw [Bool.eq_iff_iff]
  simp only [isEmpty, reversed, Bool.and_eq_true]
  tauto

end TableDelta

theorem primaryKeyChanged_comm (a b : Table) :
    primaryKeyChanged a b = primaryKeyChanged b a := by
  unfold primaryKeyChanged
  cases a.primaryKey with
  | none => cases b.primaryKey <;> rfl
  | some k =>
    cases b.primaryKey with
    | none => rfl
    | some o =>
      by_cases hsig : k.signature = o.signature
      · have hcovers : coversReplaced a b k.columns = coversReplaced b a o.columns :=
          coversReplaced_congr hsig
        simp [hsig, hcovers]
      · simp [bne, beq_eq_false_iff_ne.mpr hsig, beq_eq_false_iff_ne.mpr (Ne.symm hsig)]

theorem diffTable_reversed {a b : Table} (ha : a.columnNames.Nodup) (hb : b.columnNames.Nodup)
    (hname : a.name = b.name) : diffTable b a = (diffTable a b).reversed := by
  rw [diffTable_eq ha hb, diffTable_eq hb ha]
  simp only [TableDelta.reversed, primaryKeyChanged_comm b a, hname]

section Databases

variable {a b : Database}

theorem mem_modified_iff (ha : a.IsUnambiguous) {d : TableDelta} :
    d ∈ b.tables.filterMap (modified? a) ↔
      ∃ s ∈ a.tables, ∃ t ∈ b.tables, s.name = t.name ∧ diffTable s t = d ∧ d.isEmpty = false := by
  simp only [List.mem_filterMap, modified?]
  constructor
  · rintro ⟨t, ht, hd⟩
    split at hd
    next => cases hd
    next s hs =>
      obtain ⟨hsm, hn⟩ := ha.table?_eq_some_iff.mp hs
      obtain ⟨hne, rfl⟩ := Option.ite_none_left_eq_some.mp hd |>.imp_right Option.some.inj
      exact ⟨s, hsm, t, ht, hn, rfl, by simpa using hne⟩
  · rintro ⟨s, hs, t, ht, hn, rfl, hne⟩
    refine ⟨t, ht, ?_⟩
    rw [ha.table?_eq_some_iff.mpr ⟨hs, hn⟩]
    simp [hne]

theorem name_of_modified {t : Table} {d : TableDelta} (h : modified? a t = some d) :
    d.name = t.name := by
  unfold modified? at h
  split at h
  next => cases h
  next =>
    obtain ⟨-, rfl⟩ := Option.ite_none_left_eq_some.mp h |>.imp_right Option.some.inj
    rfl

theorem nodup_modified (hb : b.IsUnambiguous) : (b.tables.filterMap (modified? a)).Nodup := by
  have hnames := hb.names
  rw [List.nodup_iff_pairwise_ne, List.pairwise_map] at hnames
  refine hnames.filterMap _ fun t u hne d hd e he hde => hne ?_
  rw [← name_of_modified hd, ← name_of_modified he, hde]

/-- Each table that differs is modified on both ways, and what happens to it is reversed. -/
theorem modified_perm (ha : a.IsUnambiguous) (hb : b.IsUnambiguous) :
    (a.tables.filterMap (modified? b)).Perm
      ((b.tables.filterMap (modified? a)).map TableDelta.reversed) := by
  have hinj : Function.Injective TableDelta.reversed :=
    Function.LeftInverse.injective TableDelta.reversed_reversed
  refine (List.perm_ext_iff_of_nodup (nodup_modified ha) ((nodup_modified hb).map hinj)).mpr ?_
  have hback : ∀ s ∈ a.tables, ∀ t ∈ b.tables, s.name = t.name →
      diffTable t s = (diffTable s t).reversed := fun s hs t ht =>
    diffTable_reversed (ha.tables s hs).columns (hb.tables t ht).columns
  intro d
  simp only [List.mem_map, mem_modified_iff ha, mem_modified_iff hb]
  constructor
  · rintro ⟨t, ht, s, hs, hn, rfl, hne⟩
    rw [hback s hs t ht hn.symm] at hne ⊢
    exact ⟨_, ⟨s, hs, t, ht, hn.symm, rfl, by rwa [TableDelta.isEmpty_reversed] at hne⟩, rfl⟩
  · rintro ⟨_, ⟨s, hs, t, ht, hn, rfl, hne⟩, rfl⟩
    rw [← hback s hs t ht hn]
    refine ⟨t, ht, s, hs, hn.symm, rfl, ?_⟩
    rwa [hback s hs t ht hn, TableDelta.isEmpty_reversed]

end Databases

/-- Two databases can be compared in one direction exactly if they can in the other. What one
difference drops the other one adds: the tables in the same order, and for every table that is
modified its columns, keys, indices and uniques list by list. -/
theorem diff_reversed (a b : Database) :
    ((∃ delta, diff a b = .ok delta) ↔ ∃ back, diff b a = .ok back) ∧
    ∀ delta back, diff a b = .ok delta → diff b a = .ok back →
      back.tablesToDrop = delta.tablesToAdd ∧ back.tablesToAdd = delta.tablesToDrop ∧
        back.tablesToModify.Perm (delta.tablesToModify.map TableDelta.reversed) := by
  constructor
  · simp only [diff_eq_ok_iff, exists_and_left, exists_eq, and_true]
    exact and_comm
  · intro delta back hdelta hback
    obtain ⟨ha, hb, rfl⟩ := diff_eq_ok_iff.mp hdelta
    obtain ⟨-, -, rfl⟩ := diff_eq_ok_iff.mp hback
    exact ⟨rfl, rfl, modified_perm ha hb⟩

namespace Readings

def column (name : String) (scalar : Scalar) : ColumnDef := ⟨name, .scalar scalar, .empty⟩

/-- The key covers the column `a`, and the index covers it together with `b`. -/
def table (counter : Scalar) : Table :=
  .withConstraints ⟨1⟩ "readings" [column "a" counter, column "b" .text]
    (some (Key.primary "readings" [column "a" counter]))
    [Index.forTable "readings" .standard [column "a" counter, column "b" .text]] []

def database (counter : Scalar) (other : String) : Database :=
  ⟨"app", [table counter, .withConstraints ⟨2⟩ other [column "b" .text] none [] []]⟩

/-- One table goes, one comes, and one loses what stands over its column. -/
theorem diff_reversed_of_column : ∃ delta back,
    diff (database .int32 "notes") (database .int64 "people") = .ok delta ∧
      diff (database .int64 "people") (database .int32 "notes") = .ok back ∧
      back.tablesToDrop = delta.tablesToAdd ∧ back.tablesToAdd = delta.tablesToDrop ∧
        back.tablesToModify.Perm (delta.tablesToModify.map TableDelta.reversed) :=
  ⟨_, _, rfl, rfl,
    (diff_reversed (database .int32 "notes") (database .int64 "people")).2 _ _ rfl rfl⟩

end Readings

end DeclarativeSql
