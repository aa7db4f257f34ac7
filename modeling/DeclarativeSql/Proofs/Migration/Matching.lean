import DeclarativeSql.Migration.Delta
import Mathlib.Data.List.Nodup
import Mathlib.Data.List.Perm.Basic

/-!
# Matching

A difference looks tables and columns up by name and constraints by signature. Where these tell the
elements of a list apart, equal structure is equality of the shapes and signatures up to order.
-/
namespace DeclarativeSql

section Keys

variable {α κ : Type} {key : α → κ} {xs ys : List α}

theorem find?_eq_some_iff_of_nodup [DecidableEq κ] (h : (xs.map key).Nodup) {k : κ} {x : α} :
    xs.find? (key · == k) = some x ↔ x ∈ xs ∧ key x = k := by
  constructor
  · intro hx
    exact ⟨List.mem_of_find?_eq_some hx, by simpa using List.find?_some hx⟩
  · rintro ⟨hx, rfl⟩
    cases hf : xs.find? (key · == key x) with
    | none => simpa using List.find?_eq_none.mp hf x hx
    | some y =>
      have hy : key y = key x := by simpa using List.find?_some hf
      rw [List.inj_on_of_nodup_map h (List.mem_of_find?_eq_some hf) hx hy]

theorem find?_eq_none_iff_key [DecidableEq κ] {k : κ} :
    xs.find? (key · == k) = none ↔ k ∉ xs.map key := by
  simp [List.find?_eq_none]

theorem notMem_map_of_nodup {x : α} (h : ((xs ++ x :: ys).map key).Nodup) :
    key x ∉ xs.map key ∧ key x ∉ ys.map key := by
  rw [List.map_append, List.map_cons, List.nodup_middle, List.nodup_cons, List.mem_append,
    not_or] at h
  exact h.1

/-- Elements that are kept match those of the other list that are not added. -/
theorem kept_append_added_perm {removed added : α → Bool} (hx : (xs.map key).Nodup)
    (hy : (ys.map key).Nodup)
    (hremoved : ∀ x ∈ xs, removed x = false → key x ∈ ys.map key)
    (hadded : ∀ y ∈ ys, added y = false → key y ∈ xs.map key)
    (hagree : ∀ x ∈ xs, ∀ y ∈ ys, key x = key y → removed x = added y) :
    ((xs.filter (!removed ·) ++ ys.filter added).map key).Perm (ys.map key) := by
  rw [List.perm_ext_iff_of_nodup ?_ hy]
  · intro k
    simp only [List.map_append, List.mem_append, List.mem_map, List.mem_filter,
      Bool.not_eq_true']
    constructor
    · rintro (⟨x, ⟨hx, hr⟩, rfl⟩ | ⟨y, ⟨hy, -⟩, rfl⟩)
      · exact List.mem_map.mp (hremoved x hx hr)
      · exact ⟨y, hy, rfl⟩
    · rintro ⟨y, hy, rfl⟩
      cases ha : added y with
      | true => exact .inr ⟨y, ⟨hy, ha⟩, rfl⟩
      | false =>
        obtain ⟨x, hx, hk⟩ := List.mem_map.mp (hadded y hy ha)
        exact .inl ⟨x, ⟨hx, (hagree x hx y hy hk).trans ha⟩, hk⟩
  · rw [List.map_append]
    refine List.Nodup.append (hx.sublist (List.filter_sublist.map key))
      (hy.sublist (List.filter_sublist.map key)) ?_
    intro k hk hk'
    obtain ⟨x, hx, rfl⟩ := List.mem_map.mp hk
    obtain ⟨y, hy, he⟩ := List.mem_map.mp hk'
    rw [List.mem_filter] at hx hy
    have := hagree x hx.1 y hy.1 he.symm
    rw [hy.2] at this
    simp [this] at hx

end Keys

/-- Names tell the columns apart, and signatures the indices and the uniques. -/
structure Table.IsUnambiguous (t : Table) : Prop where
  columns : (t.definitions.map ColumnDef.name).Nodup
  indices : (t.indices.map Index.signature).Nodup
  uniques : (t.uniques.map Key.signature).Nodup

structure Database.IsUnambiguous (db : Database) : Prop where
  names : (db.tables.map Table.name).Nodup
  tables : ∀ t ∈ db.tables, t.IsUnambiguous

theorem Table.ambiguity?_eq_none_iff {t : Table} : t.ambiguity? = none ↔ t.IsUnambiguous := by
  have hrepeat : ∀ {α κ : Type} [DecidableEq κ] (key : α → κ) (xs : List α),
      firstRepeat key [] xs = none ↔ (xs.map key).Nodup := by
    simp [firstRepeat_eq_none_iff]
  constructor
  · intro h
    unfold ambiguity? at h
    split at h
    · cases h
    next hc =>
      split at h
      · cases h
      next hi =>
        split at h
        · cases h
        next hu => exact ⟨(hrepeat _ _).mp hc, (hrepeat _ _).mp hi, (hrepeat _ _).mp hu⟩
  · intro h
    simp only [ambiguity?, (hrepeat _ _).mpr h.columns, (hrepeat _ _).mpr h.indices,
      (hrepeat _ _).mpr h.uniques]

theorem firstAmbiguous_eq_none_iff {seen : List String} {ts : List Table} :
    firstAmbiguous seen ts = none ↔ (ts.map Table.name).Nodup ∧
      (∀ t ∈ ts, t.name ∉ seen) ∧ ∀ t ∈ ts, t.IsUnambiguous := by
  induction ts generalizing seen with
  | nil => simp [firstAmbiguous]
  | cons t ts ih =>
    unfold firstAmbiguous
    by_cases hs : t.name ∈ seen
    · simp [hs]
    · rw [if_neg hs]
      cases ha : t.ambiguity? with
      | some a =>
        have hn : ¬ t.IsUnambiguous := by
          rw [← Table.ambiguity?_eq_none_iff, ha]
          exact Option.some_ne_none a
        simp [hn]
      | none =>
        have ht := Table.ambiguity?_eq_none_iff.mp ha
        simp only [ih, List.map_cons, List.nodup_cons, List.mem_cons, List.mem_map,
          forall_eq_or_imp, hs, ht]
        grind

theorem Database.ambiguity?_eq_none_iff {db : Database} :
    db.ambiguity? = none ↔ db.IsUnambiguous := by
  rw [ambiguity?, firstAmbiguous_eq_none_iff]
  exact ⟨fun h => ⟨h.1, h.2.2⟩, fun h => ⟨h.1, by simp, h.2⟩⟩

theorem diff_eq_ok_iff {current target : Database} {delta : DatabaseDelta} :
    diff current target = .ok delta ↔
      current.IsUnambiguous ∧ target.IsUnambiguous ∧
        delta = ⟨target.name, tablesNotIn current target, tablesNotIn target current,
          target.tables.filterMap (modified? current)⟩ := by
  rw [← Database.ambiguity?_eq_none_iff, ← Database.ambiguity?_eq_none_iff]
  unfold diff
  split
  · simp [*]
  · simp [*]
  · simp [*, eq_comm]

theorem Database.IsUnambiguous.table?_eq_some_iff {db : Database} (h : db.IsUnambiguous)
    {name : String} {t : Table} : db.table? name = some t ↔ t ∈ db.tables ∧ t.name = name :=
  find?_eq_some_iff_of_nodup h.names

theorem Database.table?_eq_none_iff {db : Database} {name : String} :
    db.table? name = none ↔ name ∉ db.tables.map Table.name :=
  find?_eq_none_iff_key

end DeclarativeSql
