import DeclarativeSql.Proofs.Migration.RoundTrip

/-!
# Nothing to migrate

A difference looks tables, columns and constraints up in both directions. The comparison of
structures counts them and looks them up in one direction only. As nothing is ambiguous, as many
tables of distinct names, each of them found on the other side, are all tables of the other side,
and so the two come to the same verdict.
-/
namespace DeclarativeSql

theorem modified?_eq_none_iff {current : Database} {t : Table} :
    modified? current t = none ↔
      ∀ c, current.table? t.name = some c → (diffTable c t).isEmpty = true := by
  unfold modified?
  cases current.table? t.name with
  | none => simp
  | some c => by_cases h : (diffTable c t).isEmpty = true <;> simp [h]

namespace Table

theorem isEmpty_diffTable_iff_sameStructure {a b : Table} (ha : a.IsUnambiguous)
    (hb : b.IsUnambiguous) (hname : a.name = b.name) :
    (diffTable a b).isEmpty = true ↔ a.sameStructure b = true := by
  rw [isEmpty_diffTable_iff ha hb, sameStructure_iff ha.columns hb.columns]
  exact (and_iff_right hname).symm

end Table

namespace Database

variable {a b : Database}

theorem tablesNotIn_eq_nil_iff : tablesNotIn a b = [] ↔
    a.tables.map Table.name ⊆ b.tables.map Table.name := by
  simp only [tablesNotIn, List.filter_eq_nil_iff, Option.isNone_iff_eq_none, table?_eq_none_iff,
    not_not]
  constructor
  · intro h name hname
    obtain ⟨t, ht, rfl⟩ := List.mem_map.mp hname
    exact h t ht
  · intro h t ht
    exact h (List.mem_map_of_mem ht)

theorem sameStructure_iff_agrees (ha : a.IsUnambiguous) (hb : b.IsUnambiguous) :
    a.sameStructure b = true ↔ a.Agrees b :=
  sameStructure_iff ha.hasDistinctNames hb.hasDistinctNames

/-- Tables that are looked up in both directions, and compared from the target's side. -/
theorem isEmpty_delta_iff_agrees (ha : a.IsUnambiguous) (hb : b.IsUnambiguous)
    {delta : DatabaseDelta} (hdelta : diff a b = .ok delta) :
    delta.isEmpty = true ↔ a.Agrees b := by
  constructor
  · obtain ⟨-, -, rfl⟩ := diff_eq_ok_iff.mp hdelta
    simp only [DatabaseDelta.isEmpty, Bool.and_eq_true, List.isEmpty_iff, tablesNotIn_eq_nil_iff,
      List.filterMap_eq_nil_iff, modified?_eq_none_iff]
    rintro ⟨⟨hdropped, hadded⟩, hmodified⟩
    have hnames : (a.tables.map Table.name).Perm (b.tables.map Table.name) :=
      (List.perm_ext_iff_of_nodup ha.names hb.names).mpr fun name =>
        ⟨fun h => hdropped h, fun h => hadded h⟩
    refine agrees_of_names ha.hasDistinctNames hb.hasDistinctNames hnames fun t ht o ho hname => ?_
    have hempty := hmodified o ho t (ha.table?_eq_some_iff.mpr ⟨ht, hname⟩)
    exact (Table.isEmpty_diffTable_iff_sameStructure (ha.tables t ht) (hb.tables o ho) hname).mp
      hempty
  · intro hagrees
    obtain ⟨other, hother, hempty⟩ := hagrees.exists_diff hb
    rw [hdelta] at hother
    cases hother
    exact hempty

end Database

/-- Whenever two databases can be compared, there is nothing to migrate exactly if they have the
same structure. -/
theorem diff_isEmpty_iff_sameStructure {a b : Database} {delta : DatabaseDelta}
    (h : diff a b = .ok delta) : delta.isEmpty = true ↔ a.sameStructure b = true := by
  obtain ⟨ha, hb, -⟩ := diff_eq_ok_iff.mp h
  rw [Database.isEmpty_delta_iff_agrees ha hb h, Database.sameStructure_iff_agrees ha hb]

namespace Numbers

/-- The same indices under other names and in another order. -/
theorem diff_isEmpty_iff_reordered : ∃ delta,
    diff (database [index "x" "a", index "y" "b"]) (database [index "v" "b", index "w" "a"]) =
        .ok delta ∧
      (delta.isEmpty = true ↔
        (database [index "x" "a", index "y" "b"]).sameStructure
          (database [index "v" "b", index "w" "a"]) = true) :=
  ⟨_, rfl, diff_isEmpty_iff_sameStructure rfl⟩

end Numbers

theorem diff_self_isEmpty {db : Database} (h : db.IsUnambiguous) :
    ∃ delta, diff db db = .ok delta ∧ delta.isEmpty = true :=
  (Database.Agrees.refl db).exists_diff h

end DeclarativeSql
