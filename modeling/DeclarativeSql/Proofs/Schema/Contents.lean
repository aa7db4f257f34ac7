import DeclarativeSql.Migration.Delta

/-!
# Contents of tables

Copies of a table differ in identity only. Differences read what tables say and never who they are.
-/
namespace DeclarativeSql

/-- What a table says, whatever its identity is. -/
structure TableContent where
  name : String
  members : List (String × ColumnDef)
  primaryKey : Option Key
  indices : List Index
  uniques : List Key
  deriving DecidableEq

def Table.content (t : Table) : TableContent :=
  ⟨t.name, t.columns.map fun c => (c.member, c.definition), t.primaryKey, t.indices, t.uniques⟩

def Database.contents (db : Database) : List TableContent := db.tables.map Table.content

/-- A difference whose tables have no identity. -/
structure DeltaContent where
  name : String
  tablesToDrop : List TableContent
  tablesToAdd : List TableContent
  tablesToModify : List TableDelta
  deriving DecidableEq

def DatabaseDelta.content (d : DatabaseDelta) : DeltaContent :=
  ⟨d.name, d.tablesToDrop.map Table.content, d.tablesToAdd.map Table.content, d.tablesToModify⟩

@[simp] theorem Table.content_aliased (t : Table) (id : TableId) :
    (t.aliased id).content = t.content := by
  simp [content, aliased, bindAll, Function.comp_def]

theorem Table.definitions_eq_members (t : Table) :
    t.definitions = t.content.members.map Prod.snd := by
  simp [definitions, content, Function.comp_def]

section

variable {a a' b b' : Table}

theorem Table.definitions_congr (h : a.content = a'.content) : a.definitions = a'.definitions := by
  rw [definitions_eq_members, definitions_eq_members, h]

theorem Table.definition_columnByName? (t : Table) (name : String) :
    (t.columnByName? name).map (·.definition) = t.definitions.find? (·.name == name) := by
  rw [definitions, List.find?_map]
  rfl

theorem Table.definition_columnByName?_congr (h : a.content = a'.content) (name : String) :
    (a.columnByName? name).map (·.definition) = (a'.columnByName? name).map (·.definition) := by
  rw [definition_columnByName?, definition_columnByName?, definitions_congr h]

theorem Table.isNone_columnByName?_congr (h : a.content = a'.content) (name : String) :
    (a.columnByName? name).isNone = (a'.columnByName? name).isNone := by
  rw [← Option.isNone_map (f := (·.definition)), definition_columnByName?_congr h,
    Option.isNone_map]

theorem Table.lacks_eq (t : Table) (d : ColumnDef) : t.lacks d =
    match (t.columnByName? d.name).map (·.definition) with
    | none => true
    | some o => !d.sameShape o := by
  unfold lacks
  cases t.columnByName? d.name <;> rfl

theorem Table.lacks_congr (h : a.content = a'.content) : a.lacks = a'.lacks := by
  funext d
  rw [lacks_eq, lacks_eq, definition_columnByName?_congr h]

theorem replacedNames_congr (ha : a.content = a'.content) (hb : b.content = b'.content) :
    replacedNames a b = replacedNames a' b' := by
  simp only [replacedNames, Table.definitions_congr ha, Table.lacks_congr hb,
    ← Option.not_isNone, Table.isNone_columnByName?_congr hb]

theorem diffTable_congr (ha : a.content = a'.content) (hb : b.content = b'.content) :
    diffTable a b = diffTable a' b' := by
  have hname : b.name = b'.name := congrArg TableContent.name hb
  have hkey : ∀ {t t' : Table}, t.content = t'.content → t.primaryKey = t'.primaryKey :=
    congrArg TableContent.primaryKey
  have hindices : ∀ {t t' : Table}, t.content = t'.content → t.indices = t'.indices :=
    congrArg TableContent.indices
  have huniques : ∀ {t t' : Table}, t.content = t'.content → t.uniques = t'.uniques :=
    congrArg TableContent.uniques
  have hchanged : ∀ names, keyChanged names a b = keyChanged names a' b' := fun names => by
    rw [keyChanged, keyChanged, hkey ha, hkey hb]
  simp only [diffTable, hchanged, replacedNames_congr ha hb, Table.definitions_congr ha,
    Table.definitions_congr hb, Table.lacks_congr hb, Table.isNone_columnByName?_congr ha, hname,
    hkey ha, hkey hb, hindices ha, hindices hb, huniques ha, huniques hb]

theorem Table.ambiguity?_congr (h : a.content = a'.content) : a.ambiguity? = a'.ambiguity? := by
  have hindices : a.indices = a'.indices := congrArg TableContent.indices h
  have huniques : a.uniques = a'.uniques := congrArg TableContent.uniques h
  rw [ambiguity?, ambiguity?, definitions_congr h, hindices, huniques]

end

theorem filterMap_eq_of_map_eq {α β γ : Type} {key : α → β} {f g : α → Option γ} {xs ys : List α}
    (h : xs.map key = ys.map key) (hfg : ∀ x ∈ xs, ∀ y ∈ ys, key x = key y → f x = g y) :
    xs.filterMap f = ys.filterMap g := by
  induction xs generalizing ys with
  | nil =>
    obtain rfl : ys = [] := by simpa using h.symm
    rfl
  | cons x xs ih =>
    cases ys with
    | nil => cases h
    | cons y ys =>
      obtain ⟨hkey, hrest⟩ := List.cons.inj h
      have htail := ih hrest fun x hx y hy => hfg x (by simp [hx]) y (by simp [hy])
      rw [List.filterMap_cons, List.filterMap_cons, hfg x (by simp) y (by simp) hkey, htail]

theorem firstAmbiguous_congr {ts us : List Table} (h : ts.map Table.content = us.map Table.content)
    (seen : List String) : firstAmbiguous seen ts = firstAmbiguous seen us := by
  induction ts generalizing us seen with
  | nil =>
    obtain rfl : us = [] := by simpa using h.symm
    rfl
  | cons t ts ih =>
    cases us with
    | nil => cases h
    | cons u us =>
      obtain ⟨hcontent, hrest⟩ := List.cons.inj h
      have hname : t.name = u.name := congrArg TableContent.name hcontent
      rw [firstAmbiguous, firstAmbiguous, hname, Table.ambiguity?_congr hcontent, ih hrest]

section

variable {a a' b b' : Database}

theorem Database.ambiguity?_congr (h : a.contents = a'.contents) :
    a.ambiguity? = a'.ambiguity? := firstAmbiguous_congr h []

theorem Database.content_table? (db : Database) (name : String) :
    (db.table? name).map Table.content = db.contents.find? (·.name == name) := by
  rw [contents, List.find?_map]
  rfl

theorem Database.content_table?_congr (h : a.contents = a'.contents) (name : String) :
    (a.table? name).map Table.content = (a'.table? name).map Table.content := by
  rw [content_table?, content_table?, h]

theorem tablesNotIn_content_congr (ha : a.contents = a'.contents) (hb : b.contents = b'.contents) :
    (tablesNotIn a b).map Table.content = (tablesNotIn a' b').map Table.content := by
  have hname : ∀ db : Database, ∀ name : String,
      (db.table? name).isNone = ((db.table? name).map Table.content).isNone := by
    intro db name
    cases db.table? name <;> rfl
  have hfilter : ∀ own other : Database, (tablesNotIn own other).map Table.content =
      own.contents.filter fun c =>
        ((other.table? c.name).map Table.content).isNone := by
    intro own other
    rw [Database.contents, List.filter_map]
    simp only [tablesNotIn, hname]
    rfl
  rw [hfilter, hfilter, ha]
  simp only [Database.content_table?_congr hb]

theorem modified?_congr (h : a.contents = a'.contents) {t t' : Table}
    (ht : t.content = t'.content) : modified? a t = modified? a' t' := by
  have hname : t.name = t'.name := congrArg TableContent.name ht
  have hfind := Database.content_table?_congr h t.name
  unfold modified?
  rw [hname] at hfind ⊢
  cases hc : a.table? t'.name with
  | none =>
    cases hc' : a'.table? t'.name with
    | none => rfl
    | some c' => rw [hc, hc'] at hfind; cases hfind
  | some c =>
    cases hc' : a'.table? t'.name with
    | none => rw [hc, hc'] at hfind; cases hfind
    | some c' =>
      rw [hc, hc'] at hfind
      simp only [diffTable_congr (Option.some.inj hfind) ht]

/-- Databases whose tables say the same differ in the same from any other one. -/
theorem diff_content_congr (ha : a.contents = a'.contents) (hname : b.name = b'.name)
    (hb : b.contents = b'.contents) :
    (diff a b).map DatabaseDelta.content = (diff a' b').map DatabaseDelta.content := by
  have hmodified : b.tables.filterMap (modified? a) = b'.tables.filterMap (modified? a') :=
    filterMap_eq_of_map_eq hb fun _ _ _ _ h => modified?_congr ha h
  unfold diff
  rw [Database.ambiguity?_congr ha, Database.ambiguity?_congr hb]
  split
  case h_3 =>
    simp only [Except.map, DatabaseDelta.content, tablesNotIn_content_congr ha hb,
      tablesNotIn_content_congr hb ha, hmodified, hname]
  all_goals rfl

end

end DeclarativeSql
