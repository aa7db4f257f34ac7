import DeclarativeSql.Proofs.Results
import DeclarativeSql.Record.Row
import Mathlib.Data.List.Basic

/-!
# Reading back

A field type reads the values of its own form and no others: integers within its range, texts of
one character, NULL only below an optional layer, lists all of whose items have the form of the
element. Apart from floats, and from an optional layer right inside another one, each value of a
type is written in one way, so reading is the inverse of writing. A row then reads as a record
exactly if it begins with the values of the record.
-/
namespace DeclarativeSql

theorem mapM_eq_some_iff {α β : Type} {f : α → Option β} {g : β → α}
    (h : ∀ a b, f a = some b ↔ g b = a) {xs : List α} {ys : List β} :
    xs.mapM f = some ys ↔ ys.map g = xs := by
  induction xs generalizing ys with
  | nil => cases ys <;> simp
  | cons x xs ih =>
    simp only [List.mapM_cons, Option.bind_eq_bind, Option.bind_eq_some_iff, ih, h, Option.pure_def,
      Option.some.injEq]
    constructor
    · rintro ⟨y, rfl, ys, rfl, rfl⟩
      rfl
    · intro hys
      obtain ⟨y, ys, rfl, hy, htail⟩ := List.map_eq_cons_iff.mp hys
      exact ⟨y, hy, ys, htail, rfl⟩

theorem exists_mapM_eq_some_iff {α β : Type} {f : α → Option β} {xs : List α} :
    (∃ ys, xs.mapM f = some ys) ↔ ∀ x ∈ xs, ∃ y, f x = some y := by
  induction xs with
  | nil => simp
  | cons x xs ih =>
    rw [List.forall_mem_cons, ← ih, List.mapM_cons]
    cases f x <;> cases xs.mapM f <;> simp

namespace FieldScalar

/-- The value has the form of the type. A float may be given as an integer. -/
def Fits : FieldScalar → Value → Prop
  | bool, .bool _ => True
  | char, .text s => s.length = 1
  | int16, .int n => -32768 ≤ n.toInt ∧ n.toInt ≤ 32767
  | int32, .int n => -2147483648 ≤ n.toInt ∧ n.toInt ≤ 2147483647
  | int64, .int _ => True
  | float32, .float _ => True
  | float32, .int _ => True
  | float64, .float _ => True
  | float64, .int _ => True
  | text, .text _ => True
  | timestamp, .timestamp _ => True
  | _, _ => False

theorem char?_eq_some_iff {s : String} {c : Char} : char? s = some c ↔ String.singleton c = s := by
  unfold char?
  constructor
  · intro h
    split at h
    next hs =>
      obtain rfl := Option.some.inj h
      rw [← String.toList_inj, hs]
      simp
    next => cases h
  · rintro rfl
    simp

theorem exists_char?_iff {s : String} : (∃ c, char? s = some c) ↔ s.length = 1 := by
  simp only [char?_eq_some_iff, ← String.length_toList, List.length_eq_one_iff,
    ← String.toList_inj, String.toList_singleton]
  exact exists_congr fun c => eq_comm

theorem toInt64_toInt16_iff {n : Int64} :
    n.toInt16.toInt64 = n ↔ -32768 ≤ n.toInt ∧ n.toInt ≤ 32767 := by
  rw [← Int64.toInt_inj, Int16.toInt_toInt64, Int64.toInt_toInt16, Int.bmod_def]
  omega

theorem toInt64_toInt32_iff {n : Int64} :
    n.toInt32.toInt64 = n ↔ -2147483648 ≤ n.toInt ∧ n.toInt ≤ 2147483647 := by
  rw [← Int64.toInt_inj, Int32.toInt_toInt64, Int64.toInt_toInt32, Int.bmod_def]
  omega

/-- An integer that is kept by narrowing it is the one that was widened. -/
theorem narrowed_iff {α : Type} {narrow : Int64 → α} {widen : α → Int64}
    (h : ∀ x, narrow (widen x) = x) {n : Int64} {x : α} :
    widen (narrow n) = n ∧ narrow n = x ↔ widen x = n := by
  constructor
  · rintro ⟨hn, rfl⟩
    exact hn
  · rintro rfl
    simp [h]

theorem exists_ofValue?_iff {s : FieldScalar} {v : Value} :
    (∃ x, s.ofValue? v = some x) ↔ s.Fits v := by
  cases s with
  | char => cases v <;> simp [ofValue?, Fits, exists_char?_iff]
  | int16 => cases v <;> simp [ofValue?, Fits, toInt64_toInt16_iff]
  | int32 => cases v <;> simp [ofValue?, Fits, toInt64_toInt32_iff]
  | float32 | float64 => cases v <;> simp [ofValue?, Fits, float?]
  | bool | int64 | text | timestamp => cases v <;> simp [ofValue?, Fits]

/-- What is read is what would be written. A float may also be read from an integer, or lose
digits. -/
def IsExact (s : FieldScalar) : Prop := s ≠ .float32 ∧ s ≠ .float64

theorem IsExact.ofValue?_eq_some_iff {s : FieldScalar} (h : s.IsExact) {v : Value}
    {x : s.Carrier} : s.ofValue? v = some x ↔ s.toValue x = v := by
  cases s with
  | float32 => exact absurd rfl h.1
  | float64 => exact absurd rfl h.2
  | char => cases v <;> simp [ofValue?, toValue, char?_eq_some_iff]
  | int16 => cases v <;> simp [ofValue?, toValue, narrowed_iff Int16.toInt16_toInt64]
  | int32 => cases v <;> simp [ofValue?, toValue, narrowed_iff Int32.toInt32_toInt64]
  | bool | int64 | text | timestamp => cases v <;> simp [ofValue?, toValue, eq_comm]

end FieldScalar

namespace FieldType

/-- The value has the form of the type. -/
def Fits : FieldType → Value → Prop
  | scalar s, v => s.Fits v
  | optional t, v => v = .null ∨ t.Fits v
  | list t, .array items => ∀ v ∈ items, t.Fits v
  | list _, _ => False

/-- No floats, and no optional layer right inside another one. -/
def IsExact : FieldType → Prop
  | scalar s => s.IsExact
  | optional t => t.IsExact ∧ ∀ u, t ≠ optional u
  | list t => t.IsExact

/-- A type reads a value exactly if the value has its form. -/
theorem exists_ofValue?_iff {t : FieldType} {v : Value} :
    (∃ x, t.ofValue? v = some x) ↔ t.Fits v := by
  induction t generalizing v with
  | scalar s => exact FieldScalar.exists_ofValue?_iff
  | optional t ih =>
    rw [Fits, ← ih]
    cases v <;> simp [ofValue?, Value.isNull]
  | list t ih =>
    cases v with
    | array items => simp only [ofValue?, Fits, exists_mapM_eq_some_iff, ih]
    | _ => simp [ofValue?, Fits]

/-- Only an optional layer writes NULL. -/
theorem toValue_ne_null {t : FieldType} (h : ∀ u, t ≠ optional u) (x : t.Carrier) :
    t.toValue x ≠ .null := by
  cases t with
  | scalar s => cases s <;> exact nofun
  | optional u => exact absurd rfl (h u)
  | list t => exact nofun

theorem IsExact.ofValue?_eq_some_iff {t : FieldType} (h : t.IsExact) {v : Value}
    {x : t.Carrier} : t.ofValue? v = some x ↔ t.toValue x = v := by
  induction t generalizing v with
  | scalar s => exact FieldScalar.IsExact.ofValue?_eq_some_iff h
  | optional t ih =>
    cases x with
    | none => cases v <;> simp [ofValue?, toValue, Value.isNull]
    | some x =>
      have hnull := toValue_ne_null h.2 x
      cases v <;> simp [ofValue?, toValue, Value.isNull, ih h.1, hnull]
  | list t ih =>
    cases v with
    | array items =>
      simp only [ofValue?, toValue, Value.array.injEq]
      exact mapM_eq_some_iff fun a b => ih h
    | _ => simp [ofValue?, toValue]

end FieldType

theorem Row.read_eq_ok_iff {t : FieldType} {row : Row} {index : Nat} {x : t.Carrier} :
    row.read t index = .ok x ↔ ∃ v, row.values[index]? = some v ∧ t.ofValue? v = some x := by
  unfold read readWith get?
  cases row.values[index]? with
  | none => simp
  | some v =>
    simp only [Option.some.injEq, exists_eq_left']
    split <;> simp [*]

theorem cons_prefix_drop_iff {α : Type} {x : α} {xs ys : List α} {n : Nat} :
    x :: xs <+: ys.drop n ↔ ys[n]? = some x ∧ xs <+: ys.drop (n + 1) := by
  rw [← List.head?_drop, ← List.tail_drop]
  cases ys.drop n <;> simp [List.cons_prefix_cons, eq_comm]

namespace Fields

theorem readFrom_eq_ok_iff {ts : List FieldType} (h : ∀ t ∈ ts, t.IsExact) {row : Row}
    {index : Nat} {r : Fields ts} :
    readFrom row ts index = .ok r ↔ toValues ts r <+: row.values.drop index := by
  induction ts generalizing index with
  | nil => exact iff_of_true rfl (List.nil_prefix)
  | cons t ts ih =>
    obtain ⟨x, rest⟩ := r
    have ht := h t List.mem_cons_self
    simp only [readFrom, bind_eq_ok, pure_eq_ok, Row.read_eq_ok_iff, ht.ofValue?_eq_some_iff,
      ih fun u hu => h u (List.mem_cons_of_mem t hu), toValues, cons_prefix_drop_iff]
    constructor
    · rintro ⟨y, ⟨v, hv, rfl⟩, s, hs, hrecord⟩
      obtain ⟨rfl, rfl⟩ := Prod.mk.inj hrecord
      exact ⟨hv, hs⟩
    · rintro ⟨hx, hrest⟩
      exact ⟨x, ⟨_, hx, rfl⟩, rest, hrest, rfl⟩

/-- A record is read from the rows that begin with its values. -/
theorem read_eq_ok_iff {ts : List FieldType} (h : ∀ t ∈ ts, t.IsExact) {row : Row}
    {r : Fields ts} : read ts row = .ok r ↔ toValues ts r <+: row.values := by
  rw [read, readFrom_eq_ok_iff h, List.drop_zero]

/-- A type reads a value exactly if the value has its form. Without floats and optional layers
right inside of others it reads what it would write, and a record is read from its own row and from
no row that begins otherwise. -/
theorem reads_what_it_writes :
    (∀ (t : FieldType) (v : Value), (∃ x, t.ofValue? v = some x) ↔ t.Fits v) ∧
    (∀ t : FieldType, t.IsExact →
      (∀ x, t.ofValue? (t.toValue x) = some x) ∧
      ∀ v x, t.ofValue? v = some x → t.toValue x = v) ∧
    ∀ ts : List FieldType, (∀ t ∈ ts, t.IsExact) → ∀ r : Fields ts,
      read ts (toRow ts r) = .ok r ∧
      ∀ row, read ts row = .ok r → toValues ts r <+: row.values := by
  refine ⟨fun t v => FieldType.exists_ofValue?_iff, fun t ht => ⟨fun x => ?_, fun v x hx => ?_⟩,
    fun ts hts r => ⟨?_, fun row hrow => ?_⟩⟩
  · exact ht.ofValue?_eq_some_iff.mpr rfl
  · exact ht.ofValue?_eq_some_iff.mp hx
  · exact (read_eq_ok_iff hts).mpr List.prefix_rfl
  · exact (read_eq_ok_iff hts).mp hrow

/-- Optional lists of short integers, one of them absent and one at the end of their range. -/
def series : FieldType := .list (.optional (.list (.scalar .int16)))

theorem isExact_series : series.IsExact := by
  simp [series, FieldType.IsExact, FieldScalar.IsExact]

theorem series_reads_what_it_writes :
    series.IsExact ∧
      series.ofValue? (.array [.null, .array [.int (-32768)]]) = some [none, some [-32768]] ∧
      (¬ ∃ x, series.ofValue? (.array [.array [.int 32768]]) = some x) ∧
      (¬ ∃ x, series.ofValue? (.array [.array [.int 1, .null]]) = some x) ∧
      read [series, .scalar .char] ⟨[.array [.null], .text "é"]⟩ = .ok ([none], 'é', ()) ∧
      ∀ row, read [series, .scalar .char] row = .ok ([none], 'é', ()) →
        [.array [.null], .text "é"] <+: row.values := by
  have hread := (reads_what_it_writes.2.1 series isExact_series).1 [none, some [-32768]]
  have hform := reads_what_it_writes.1 series
  have hfields : ∀ t ∈ [series, .scalar .char], t.IsExact := by
    simp [isExact_series, FieldType.IsExact, FieldScalar.IsExact]
  have hrecord := reads_what_it_writes.2.2 [series, .scalar .char] hfields ([none], 'é', ())
  refine ⟨isExact_series, hread, ?_, ?_, hrecord.1, hrecord.2⟩
  · rw [hform]
    simp [series, FieldType.Fits, FieldScalar.Fits]
  · rw [hform]
    simp [series, FieldType.Fits, FieldScalar.Fits]

end Fields

end DeclarativeSql
