import DeclarativeSql.Postgres.Catalog
import DeclarativeSql.Proofs.Results
import Mathlib.Data.List.Forall2
import Mathlib.Data.List.Nodup

/-!
# Rows of the catalogue

How a server describes columns and constraints in rows, and that the rows are read back as what they
describe. Of the flags of a column only the structural ones are described.
-/
namespace DeclarativeSql

/-- The column as the catalogue knows it. -/
def ColumnDef.stored (d : ColumnDef) : ColumnDef := { d with flags := d.flags.structural }

@[simp] theorem ColumnDef.name_stored (d : ColumnDef) : d.stored.name = d.name := rfl

namespace ColumnFlags

theorem structural_structural (a : ColumnFlags) : a.structural.structural = a.structural := by
  refine ext_has fun n _ => ?_
  simp [structural]

theorem structural_eq (a : ColumnFlags) : a.structural =
    (if a.contains nullable then nullable else empty) |||
      ((if a.contains serial then serial else empty) |||
        (if a.contains defaultNow then defaultNow else empty)) := by
  have hite : ∀ (b : Bool) (f : ColumnFlags) (n : Nat),
      (if b then f else empty).has n = (b && f.has n) := by
    intro b f n
    cases b <;> simp
  refine ext_has fun n hn => ?_
  simp only [has_or, hite, structural, structuralMask, has_and, nullable, serial, defaultNow,
    contains_bit _ (show 0 < 64 by decide), contains_bit _ (show 2 < 64 by decide),
    contains_bit _ (show 63 < 64 by decide), has_bit, hn, decide_true, Bool.true_and]
  by_cases h0 : 0 = n
  · simp [← h0]
  · by_cases h2 : 2 = n
    · simp [← h2]
    · by_cases h63 : 63 = n <;> simp [h0, h2, h63]

end ColumnFlags

namespace Postgres

/-- The default expressions that a column may have in the catalogue. -/
inductive CatalogDefault (d : ColumnDef) : Value → Prop
  | serial (rest : String) (h : d.isSerial = true) : CatalogDefault d (.text ("nextval(" ++ rest))
  | now (h : d.isDefaultNow = true) : CatalogDefault d (.text "CURRENT_TIMESTAMP")
  | none (hserial : d.isSerial = false) (hnow : d.isDefaultNow = false) : CatalogDefault d .null

/-- The row of a column of the named table. -/
inductive ColumnRow : String × ColumnDef → Row → Prop
  | row (table : String) (d : ColumnDef) (default : Value) (h : CatalogDefault d default) :
    ColumnRow (table, d) ⟨[.text table, .text d.name, .text d.sqlType.catalogName,
      .text (if d.isNullable then "YES" else "NO"), default]⟩

/-- The row of one column of a key. -/
inductive KeyRow : ConstraintRows → Row → Prop
  | primaryKey (table name column : String) : KeyRow ⟨.primaryKey, table, name, [column]⟩
      ⟨[.text "PRIMARY KEY", .text table, .text name, .text column]⟩
  | unique (table name column : String) : KeyRow ⟨.unique, table, name, [column]⟩
      ⟨[.text "UNIQUE", .text table, .text name, .text column]⟩

/-- The row of one column of an index. Servers have many access methods that are standard here. -/
inductive IndexRow : ConstraintRows → Row → Prop
  | gin (table name column : String) : IndexRow ⟨.index .gin, table, name, [column]⟩
      ⟨[.text table, .text name, .text "gin", .text column]⟩
  | standard (table name column method : String) (h : method ≠ "gin") :
    IndexRow ⟨.index .standard, table, name, [column]⟩
      ⟨[.text table, .text name, .text method, .text column]⟩

/-- A row for each column, as one server would write it. -/
def columnRow (c : String × ColumnDef) : Row :=
  let default :=
    if c.2.isSerial then Value.text ("nextval(" ++ "'" ++ c.2.name ++ "_seq'::regclass)")
    else if c.2.isDefaultNow then .text "CURRENT_TIMESTAMP"
    else .null
  ⟨[.text c.1, .text c.2.name, .text c.2.sqlType.catalogName,
    .text (if c.2.isNullable then "YES" else "NO"), default]⟩

def keyRow (m : ConstraintRows) : Row :=
  let kind := if m.kind = .primaryKey then "PRIMARY KEY" else "UNIQUE"
  ⟨[Value.text kind, .text m.table, .text m.name] ++ m.columns.map .text⟩

def indexRow (m : ConstraintRows) : Row :=
  let method := if m.kind = .index .gin then "gin" else "btree"
  ⟨[Value.text m.table, .text m.name, .text method] ++ m.columns.map .text⟩

theorem columnRow_columnRow (c : String × ColumnDef) : ColumnRow c (columnRow c) := by
  refine .row c.1 c.2 _ ?_
  split
  next h =>
    simp only [String.append_assoc]
    exact .serial _ h
  next hserial =>
    split
    next h => exact .now h
    next hnow => exact .none (by simpa using hserial) (by simpa using hnow)

theorem defaultFlags_serial (rest : String) :
    defaultFlags (some ("nextval(" ++ rest)) = .serial := by
  have hprefix : isSequence (lowered ("nextval(" ++ rest)) = true := by
    simp only [isSequence, lowered, String.toList_append, List.map_append]
    rfl
  simp [defaultFlags, hprefix]

theorem columnFlags_eq_structural {d : ColumnDef} {default : Option String}
    (h : CatalogDefault d ((default.map Value.text).getD .null))
    (hone : ¬(d.isSerial = true ∧ d.isDefaultNow = true)) :
    columnFlags (if d.isNullable then "YES" else "NO") default = d.flags.structural := by
  have hnullable : (if lowered (if d.isNullable then "YES" else "NO") = "yes".toList then
      ColumnFlags.nullable else .empty) = if d.isNullable then .nullable else .empty := by
    cases d.isNullable <;> rfl
  have hdefault : defaultFlags default = (if d.isSerial then ColumnFlags.serial else .empty) |||
      (if d.isDefaultNow then .defaultNow else .empty) := by
    generalize hv : (default.map Value.text).getD .null = v at h
    cases h with
    | serial rest hserial =>
      have hnow : d.isDefaultNow = false := by simpa [hserial] using hone
      cases default with
      | none => cases hv
      | some s =>
        obtain rfl : s = "nextval(" ++ rest := by simpa using hv
        rw [defaultFlags_serial, hserial, hnow]
        rfl
    | now hnow =>
      have hserial : d.isSerial = false := by simpa [hnow] using hone
      cases default with
      | none => cases hv
      | some s =>
        obtain rfl : s = "CURRENT_TIMESTAMP" := by simpa using hv
        rw [hserial, hnow]
        rfl
    | none hserial hnow =>
      cases default with
      | none => rw [hserial, hnow]; rfl
      | some s => cases hv
  rw [columnFlags, hnullable, hdefault]
  exact d.flags.structural_eq.symm

theorem readColumn_of_columnRow {table : String} {d : ColumnDef} {row : Row}
    (h : ColumnRow (table, d) row) (hone : ¬(d.isSerial = true ∧ d.isDefaultNow = true)) :
    readColumn row = .ok (table, d.stored) := by
  cases h with
  | row _ _ default h =>
    have hread : ∀ default' : Option String, default = (default'.map Value.text).getD .null →
        readColumn ⟨[.text table, .text d.name, .text d.sqlType.catalogName,
          .text (if d.isNullable then "YES" else "NO"), default]⟩ = .ok (table, d.stored) := by
      rintro default' rfl
      have hflags := columnFlags_eq_structural h hone
      cases default' <;>
        simp [readColumn, textAt, textOrNullAt, Row.text?, Row.get?, Value.text?, ok_bind,
          SqlType.ofCatalogName?_catalogName, hflags, ColumnDef.stored, pure, Except.pure]
    cases h with
    | serial rest _ => exact hread (some _) rfl
    | now _ => exact hread (some _) rfl
    | none _ _ => exact hread none rfl

theorem readMember_of_keyRow {m : ConstraintRows} {row : Row} (h : KeyRow m row) :
    readMember row = .ok m := by
  cases h <;> rfl

theorem readIndexMember_of_indexRow {m : ConstraintRows} {row : Row} (h : IndexRow m row) :
    readIndexMember row = .ok m := by
  cases h with
  | gin => rfl
  | standard table name column method hm =>
    simp [readIndexMember, textAt, Row.text?, Row.get?, Value.text?, ok_bind,
      ConstraintKind.ofMethod, hm, pure, Except.pure]

namespace ConstraintRows

/-- The rows of one constraint, one for each column. -/
def members (c : ConstraintRows) : List ConstraintRows :=
  c.columns.map fun column => { c with columns := [column] }

/-- What neighbours are joined by. -/
def key (c : ConstraintRows) : String × String := (c.table, c.name)

end ConstraintRows

/-- The rows of a constraint are joined again if another constraint comes next. -/
theorem joinRows_members_append {c : ConstraintRows} (hne : c.columns ≠ [])
    {rest : List ConstraintRows} (hnext : ∀ next ∈ (joinRows rest).head?, next.key ≠ c.key) :
    joinRows (c.members ++ rest) = c :: joinRows rest := by
  obtain ⟨kind, table, name, columns⟩ := c
  induction columns with
  | nil => exact absurd rfl hne
  | cons column columns ih =>
    show joinRows (⟨kind, table, name, [column]⟩ ::
      (ConstraintRows.members ⟨kind, table, name, columns⟩ ++ rest)) = _
    cases columns with
    | nil =>
      rw [ConstraintRows.members, List.map_nil, List.nil_append, joinRows]
      cases hrest : joinRows rest with
      | nil => rfl
      | cons next groups =>
        rw [hrest] at hnext
        have hkey : ¬(next.table = table ∧ next.name = name) := fun ⟨ht, hn⟩ =>
          hnext next rfl (Prod.ext ht hn)
        simp only [if_neg hkey]
    | cons other columns =>
      rw [joinRows, ih (by simp) hnext]
      simp

theorem joinRows_flatMap_members {cs : List ConstraintRows} (hne : ∀ c ∈ cs, c.columns ≠ [])
    (hkeys : (cs.map ConstraintRows.key).Nodup) :
    joinRows (cs.flatMap ConstraintRows.members) = cs := by
  induction cs with
  | nil => rfl
  | cons c cs ih =>
    rw [List.map_cons, List.nodup_cons] at hkeys
    have hrest := ih (fun d hd => hne d (by simp [hd])) hkeys.2
    rw [List.flatMap_cons, joinRows_members_append (hne c (by simp)), hrest]
    intro next hnext he
    rw [hrest] at hnext
    exact hkeys.1 (he ▸ List.mem_map_of_mem (List.mem_of_head? hnext))

end Postgres

end DeclarativeSql
