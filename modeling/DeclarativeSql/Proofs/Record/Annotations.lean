import DeclarativeSql.Proofs.Results
import DeclarativeSql.Record.Mapping
import Mathlib.Data.List.Basic

/-!
# What annotations ask for

The items of a field are those of its column annotations, one after the other. Of the names among
them the last one counts. Each of the other items asks for one flag, and flags that are asked for
are there, however often and in whatever order they are asked for.
-/
namespace DeclarativeSql

namespace AnnotationItem

/-- The name that the item gives the column. -/
def columnName? (item : AnnotationItem) : Option String :=
  if item.key = "name" then item.text.toOption else none

/-- The flag that the item asks for. -/
def flag? (item : AnnotationItem) : Option ColumnFlags :=
  match item.key with
  | "primary_key" => some .primaryKey
  | "serial" => some .serial
  | "nullable" => some .nullable
  | "gin" => some .gin
  | "default_now" => some .defaultNow
  | "index" => item.tier.toOption.map .indexTier
  | "unique" => item.tier.toOption.map .uniqueTier
  | _ => none

end AnnotationItem

namespace AnnotatedField

variable {τ : Type}

/-- The items of all annotations of the column. -/
def items (field : AnnotatedField τ) : List AnnotationItem :=
  (field.annotations.filter (·.path = "column")).flatMap fun a => a.items.getD []

/-- The last name that is given, or else the name of the field. -/
def columnName (field : AnnotatedField τ) : String :=
  (field.items.filterMap AnnotationItem.columnName?).getLast?.getD field.name

/-- The flags that are asked for. -/
def flags (field : AnnotatedField τ) : List ColumnFlags :=
  field.items.filterMap AnnotationItem.flag?

end AnnotatedField

namespace ColumnAnnotations

variable {c next : ColumnAnnotations} {items more : List AnnotationItem}

/-- What is known after some items is what they ask for. -/
structure Collects (c : ColumnAnnotations) (items : List AnnotationItem) : Prop where
  name : c.name = (items.filterMap AnnotationItem.columnName?).getLast?
  flags : ∀ flag, flag ∈ c.flags ↔ flag ∈ items.filterMap AnnotationItem.flag?

theorem mem_flags_iff {flag : ColumnFlags} : flag ∈ c.flags ↔
    c.isNullable = true ∧ flag = .nullable ∨ c.isPrimaryKey = true ∧ flag = .primaryKey ∨
      c.isSerial = true ∧ flag = .serial ∨ c.isGin = true ∧ flag = .gin ∨
      c.isDefaultNow = true ∧ flag = .defaultNow ∨ (∃ t ∈ c.indexTiers, .indexTier t = flag) ∨
      ∃ t ∈ c.uniqueTiers, .uniqueTier t = flag := by
  have hsingle : ∀ (isSet : Bool) (single : ColumnFlags),
      flag ∈ (if isSet then [single] else []) ↔ isSet = true ∧ flag = single := by
    intro isSet single
    cases isSet <;> simp
  simp only [flags, List.mem_append, hsingle, List.mem_map, or_assoc]

/-- An item gives a name or asks for a flag, and leaves everything else. -/
theorem addItem_eq_ok {item : AnnotationItem} (h : c.addItem item = .ok next) :
    next.name = item.columnName?.or c.name ∧
      ∀ flag, flag ∈ next.flags ↔ flag ∈ c.flags ∨ item.flag? = some flag := by
  unfold addItem at h
  split at h
  case h_1 hkey =>
    obtain ⟨name, hname, rfl⟩ := map_eq_ok.mp h
    have hflag : item.flag? = none := by simp [AnnotationItem.flag?, hkey]
    refine ⟨by simp [AnnotationItem.columnName?, hkey, hname, Except.toOption], fun flag => ?_⟩
    simp only [hflag, mem_flags_iff, reduceCtorEq, or_false]
  case h_9 => cases h
  case h_7 hkey | h_8 hkey =>
    obtain ⟨t, ht, rfl⟩ := map_eq_ok.mp h
    refine ⟨by simp [AnnotationItem.columnName?, hkey], fun flag => ?_⟩
    simp only [AnnotationItem.flag?, hkey, ht, Except.toOption, Option.map_some,
      Option.some.injEq, mem_flags_iff, List.mem_append, List.mem_singleton]
    grind
  all_goals
    rename_i hkey
    obtain ⟨-, -, rfl⟩ := map_eq_ok.mp h
    refine ⟨by simp [AnnotationItem.columnName?, hkey], fun flag => ?_⟩
    simp only [AnnotationItem.flag?, hkey, Option.some.injEq, mem_flags_iff]
    grind

theorem Collects.addItem {item : AnnotationItem} (hc : c.Collects items)
    (h : c.addItem item = .ok next) : next.Collects (items ++ [item]) := by
  obtain ⟨hname, hflags⟩ := addItem_eq_ok h
  constructor
  · rw [hname, hc.name, List.filterMap_append, List.getLast?_append]
    cases hitem : item.columnName? <;> simp [hitem]
  · intro flag
    rw [hflags, hc.flags, List.filterMap_append, List.mem_append]
    cases hitem : item.flag? <;> simp [hitem, eq_comm]

theorem Collects.addItems (hc : c.Collects items) (h : c.addItems more = .ok next) :
    next.Collects (items ++ more) := by
  induction more generalizing c items with
  | nil =>
    obtain rfl := Except.ok.inj h
    rwa [List.append_nil]
  | cons item more ih =>
    rw [ColumnAnnotations.addItems] at h
    split at h
    next => cases h
    next hitem =>
      have hmore := ih (hc.addItem hitem) h
      rwa [List.append_assoc, List.singleton_append] at hmore

theorem Collects.addAll (hc : c.Collects items) {annotations : List Annotation}
    (h : c.addAll annotations = .ok next) : next.Collects (items ++
      (annotations.filter (·.path = "column")).flatMap fun a => a.items.getD []) := by
  induction annotations generalizing c items with
  | nil =>
    obtain rfl := Except.ok.inj h
    rwa [List.filter_nil, List.flatMap_nil, List.append_nil]
  | cons a annotations ih =>
    rw [ColumnAnnotations.addAll] at h
    split at h
    next hpath =>
      rw [List.filter_cons_of_pos (by simpa using hpath), List.flatMap_cons, ← List.append_assoc]
      split at h
      next => cases h
      next hitems => exact ih (hc.addItems hitems) h
    next hpath =>
      rw [List.filter_cons_of_neg (by simpa using hpath)]
      exact ih hc h

theorem collects_empty : empty.Collects [] := by
  constructor
  · rfl
  · simp [mem_flags_iff, empty]

end ColumnAnnotations

/-- The column that a field is mapped to has the name and the flags that are asked for. -/
theorem RecordMapping.columnOf_eq_ok {τ : Type} {field : AnnotatedField τ} {c : MappedColumn τ}
    (h : columnOf field = .ok c) : c.member = field.name ∧ c.column = field.columnName ∧
      c.fieldType = field.fieldType ∧ ∀ flag, flag ∈ c.flags ↔ flag ∈ field.flags := by
  unfold columnOf at h
  split at h
  next => cases h
  next a ha =>
    obtain rfl := Except.ok.inj h
    have hcollects := ColumnAnnotations.collects_empty.addAll ha
    rw [List.nil_append] at hcollects
    exact ⟨rfl, congrArg (Option.getD · field.name) hcollects.name, rfl, hcollects.flags⟩

end DeclarativeSql
