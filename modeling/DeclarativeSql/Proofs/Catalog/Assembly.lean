import DeclarativeSql.Proofs.Catalog.Rows
import DeclarativeSql.Proofs.Migration.Matching
import DeclarativeSql.Proofs.Schema.Listing

/-!
# Putting tables together

Columns go to the table of their name, whatever the order is in which tables alternate. Constraints
go to the table that they name and leave every other table as it is.
-/
namespace DeclarativeSql.Postgres

/-- The definitions that belong to the named table. -/
def definitionsOf (columns : List (String × ColumnDef)) (table : String) : List ColumnDef :=
  (columns.filter (·.1 = table)).map (·.2)

theorem definitionsOf_append (xs ys : List (String × ColumnDef)) (table : String) :
    definitionsOf (xs ++ ys) table = definitionsOf xs table ++ definitionsOf ys table := by
  simp [definitionsOf]

theorem definitionsOf_singleton (table : String) (d : ColumnDef) :
    definitionsOf [(table, d)] table = [d] := by
  simp [definitionsOf]

theorem definitionsOf_singleton_of_ne {name table : String} (h : name ≠ table) (d : ColumnDef) :
    definitionsOf [(table, d)] name = [] := by
  simp [definitionsOf, Ne.symm h]

/-- There is one table for every name, and it has the columns of its name. -/
structure Gathers (columns : List (String × ColumnDef)) (ts : List TableParts) : Prop where
  nodup : (ts.map TableParts.name).Nodup
  names : ∀ name, name ∈ ts.map TableParts.name ↔ name ∈ columns.map Prod.fst
  parts : ∀ t ∈ ts, t = ⟨t.name, definitionsOf columns t.name, none, [], []⟩

theorem addColumn_of_notMem {ts : List TableParts} {table : String}
    (h : table ∉ ts.map TableParts.name) (d : ColumnDef) :
    addColumn ts table d = ts ++ [⟨table, [d], none, [], []⟩] := by
  induction ts with
  | nil => rfl
  | cons t ts ih =>
    simp only [List.map_cons, List.mem_cons, not_or] at h
    rw [addColumn, if_neg (Ne.symm h.1), ih h.2]
    rfl

theorem addColumn_of_mem {ts : List TableParts} {table : String}
    (hnodup : (ts.map TableParts.name).Nodup) (h : table ∈ ts.map TableParts.name) (d : ColumnDef) :
    addColumn ts table d =
      ts.map fun t => if t.name = table then { t with columns := t.columns ++ [d] } else t := by
  induction ts with
  | nil => cases h
  | cons t ts ih =>
    rw [List.map_cons, List.nodup_cons] at hnodup
    rw [addColumn, List.map_cons]
    split
    next ht =>
      have hrest : ∀ u ∈ ts, u.name ≠ table := fun u hu he =>
        hnodup.1 (ht ▸ he ▸ List.mem_map_of_mem hu)
      rw [List.map_congr_left fun u hu => if_neg (hrest u hu), List.map_id']
    next ht =>
      rcases List.mem_cons.mp h with he | h
      · exact absurd he.symm ht
      · rw [ih hnodup.2 h]

namespace Gathers

variable {columns : List (String × ColumnDef)} {ts : List TableParts} {table : String}

theorem snoc_of_mem (h : Gathers columns ts) (hmem : table ∈ ts.map TableParts.name)
    (d : ColumnDef) : Gathers (columns ++ [(table, d)]) (addColumn ts table d) := by
  have hnames : (addColumn ts table d).map TableParts.name = ts.map TableParts.name := by
    rw [addColumn_of_mem h.nodup hmem, List.map_map]
    refine List.map_congr_left fun t _ => ?_
    simp only [Function.comp_apply]
    split <;> rfl
  exact {
    nodup := hnames ▸ h.nodup
    names := by
      intro name
      rw [hnames, h.names, List.map_append, List.mem_append]
      constructor
      · exact .inl
      · rintro (hn | hn)
        · exact hn
        · rw [List.mem_singleton.mp hn]
          exact (h.names table).mp hmem
    parts := by
      rw [addColumn_of_mem h.nodup hmem]
      intro u hu
      obtain ⟨t, ht, rfl⟩ := List.mem_map.mp hu
      have hparts := h.parts t ht
      split
      next hn =>
        rw [hparts]
        simp only [definitionsOf_append, hn, definitionsOf_singleton]
      next hn =>
        rw [definitionsOf_append, definitionsOf_singleton_of_ne hn, List.append_nil]
        exact hparts }

theorem snoc_of_notMem (h : Gathers columns ts) (hmem : table ∉ ts.map TableParts.name)
    (d : ColumnDef) : Gathers (columns ++ [(table, d)]) (addColumn ts table d) := by
  have hnone : definitionsOf columns table = [] := by
    rw [h.names, List.mem_map] at hmem
    simp only [definitionsOf, List.map_eq_nil_iff, List.filter_eq_nil_iff, decide_eq_true_eq]
    exact fun c hc he => hmem ⟨c, hc, he⟩
  rw [addColumn_of_notMem hmem]
  exact {
    nodup := by
      rw [List.map_append, List.nodup_append]
      refine ⟨h.nodup, by simp, ?_⟩
      rintro name hname _ hlast rfl
      rw [List.mem_singleton.mp hlast] at hname
      exact hmem hname
    names := by
      intro name
      simp only [List.map_append, List.mem_append, h.names, List.map_cons, List.map_nil]
    parts := by
      intro u hu
      rcases List.mem_append.mp hu with hu | hu
      · have hn : u.name ≠ table := fun he => hmem (he ▸ List.mem_map_of_mem hu)
        rw [definitionsOf_append, definitionsOf_singleton_of_ne hn, List.append_nil]
        exact h.parts u hu
      · rw [List.mem_singleton.mp hu]
        simp only [definitionsOf_append, hnone, definitionsOf_singleton, List.nil_append] }

theorem snoc (h : Gathers columns ts) (table : String) (d : ColumnDef) :
    Gathers (columns ++ [(table, d)]) (addColumn ts table d) := by
  by_cases hmem : table ∈ ts.map TableParts.name
  · exact h.snoc_of_mem hmem d
  · exact h.snoc_of_notMem hmem d

end Gathers

theorem gathers_foldl (columns : List (String × ColumnDef)) :
    Gathers columns (columns.foldl (fun ts (table, d) => addColumn ts table d) []) := by
  have h : ∀ (rest front : List (String × ColumnDef)) (ts : List TableParts), Gathers front ts →
      Gathers (front ++ rest) (rest.foldl (fun ts (table, d) => addColumn ts table d) ts) := by
    intro rest
    induction rest with
    | nil =>
      intro front ts hts
      rwa [List.append_nil]
    | cons c rest ih =>
      intro front ts hts
      have := ih (front ++ [c]) _ (hts.snoc c.1 c.2)
      rwa [List.append_assoc] at this
  exact h columns [] [] ⟨by simp, by simp, by simp⟩

/-- A constraint of the named table. -/
structure TableConstraint where
  kind : ConstraintKind
  table : String
  name : String
  columns : List ColumnDef

namespace TableConstraint

def rows (c : TableConstraint) : ConstraintRows :=
  ⟨c.kind, c.table, c.name, c.columns.map ColumnDef.name⟩

def key? (kind : ConstraintKind) (c : TableConstraint) : Option Key :=
  if c.kind = kind then some ⟨c.name, c.columns.map ColumnDef.stored⟩ else none

def index? (c : TableConstraint) : Option Index :=
  match c.kind with
  | .index method => some ⟨c.name, method, c.columns.map ColumnDef.stored⟩
  | _ => none

end TableConstraint

namespace TableParts

/-- The table with further constraints. -/
def taking (t : TableParts) (cs : List TableConstraint) : TableParts :=
  { t with
    primaryKey := (cs.filterMap (TableConstraint.key? .primaryKey)).getLast?.or t.primaryKey
    indices := t.indices ++ cs.filterMap TableConstraint.index?
    uniques := t.uniques ++ cs.filterMap (TableConstraint.key? .unique) }

theorem add_rows {t : TableParts} {c : TableConstraint}
    (h : t.resolve c.rows = .ok (c.columns.map ColumnDef.stored)) :
    t.add c.rows = .ok (t.taking [c]) := by
  obtain ⟨kind, table, name, columns⟩ := c
  unfold add
  rw [h]
  cases kind <;> simp [TableConstraint.rows, taking, TableConstraint.key?, TableConstraint.index?]

theorem taking_append (t : TableParts) (cs ds : List TableConstraint) :
    (t.taking cs).taking ds = t.taking (cs ++ ds) := by
  simp [taking, List.filterMap_append, List.getLast?_append, Option.or_assoc]

theorem taking_nil (t : TableParts) : t.taking [] = t := by simp [taking]

end TableParts

/-- Only the table that the constraint names is changed. -/
theorem addConstraint_eq_ok {c : ConstraintRows} {ts : List TableParts}
    {f : TableParts → TableParts} (hnodup : (ts.map TableParts.name).Nodup)
    (h : ∀ t ∈ ts, (if t.name = c.table then t.add c else .ok t) = .ok (f t)) :
    addConstraint ts c = .ok (ts.map f) := by
  induction ts with
  | nil => rfl
  | cons t ts ih =>
    rw [List.map_cons, List.nodup_cons] at hnodup
    have ht := h t (by simp)
    have hts := fun u hu => h u (List.mem_cons_of_mem t hu)
    rw [addConstraint, List.map_cons]
    split at ht
    next hn =>
      have hsame : ts.map f = ts := by
        refine (List.map_congr_left fun u hu => ?_).trans (List.map_id' ts)
        have hun : u.name ≠ c.table := fun he =>
          hnodup.1 (hn ▸ he ▸ List.mem_map_of_mem hu)
        have hu := hts u hu
        rw [if_neg hun] at hu
        exact (Except.ok.inj hu).symm
      rw [if_pos hn, ht, hsame]
    next hn => rw [if_neg hn, ih hnodup.2 hts, ← Except.ok.inj ht]

theorem addConstraints_eq_ok {cs : List TableConstraint} {ts : List TableParts}
    (hnodup : (ts.map TableParts.name).Nodup)
    (h : ∀ t ∈ ts, ∀ c ∈ cs, c.table = t.name →
      t.resolve c.rows = .ok (c.columns.map ColumnDef.stored)) :
    addConstraints ts (cs.map TableConstraint.rows) =
      .ok (ts.map fun t => t.taking (cs.filter (·.table = t.name))) := by
  induction cs generalizing ts with
  | nil => simp [addConstraints, TableParts.taking_nil]
  | cons c cs ih =>
    let first (t : TableParts) : TableParts := t.taking ([c].filter (·.table = t.name))
    have hfirst : addConstraint ts c.rows = .ok (ts.map first) := by
      refine addConstraint_eq_ok hnodup fun t ht => ?_
      by_cases hn : c.table = t.name
      · have hadd := TableParts.add_rows (h t ht c (by simp) hn)
        simpa [first, TableConstraint.rows, hn] using hadd
      · simp [first, TableConstraint.rows, hn, Ne.symm hn, TableParts.taking_nil]
    have hnodup' : ((ts.map first).map TableParts.name).Nodup := by rwa [List.map_map]
    have hrest := ih hnodup' (by
      intro u hu d hd hn
      obtain ⟨t, ht, rfl⟩ := List.mem_map.mp hu
      exact h t ht d (by simp [hd]) hn)
    have happend : ∀ t : TableParts, (first t).taking (cs.filter (·.table = (first t).name)) =
        t.taking ((c :: cs).filter (·.table = t.name)) := by
      intro t
      rw [TableParts.taking_append]
      exact congrArg _ (List.filter_append ..).symm
    rw [List.map_cons, addConstraints, hfirst]
    simpa only [List.map_map, Function.comp_def, happend] using hrest

namespace TableParts

/-- The columns that the constraints list. -/
def listedColumns (t : TableParts) : List ColumnDef :=
  t.primaryKey.toList.flatMap Key.columns ++ t.indices.flatMap Index.columns ++
    t.uniques.flatMap Key.columns

/-- Every column that a constraint lists is the first one of its name. -/
def ListsFirst (t : TableParts) : Prop := ∀ d ∈ t.listedColumns, t.column? d.name = some d

theorem ListsFirst.table {t : TableParts} (h : t.ListsFirst) (id : TableId) :
    (t.table id).ListsFirst := by
  have hdefinitions : (t.table id).definitions = t.columns := by
    simp [TableParts.table, Table.withConstraints, Table.definitions, Table.bindAll,
      Function.comp_def]
  intro d hd
  rw [hdefinitions]
  exact h d hd

theorem column?_of_resolve {t : TableParts} {c : ConstraintRows} {columns : List ColumnDef}
    (h : t.resolve c = .ok columns) {d : ColumnDef} (hd : d ∈ columns) :
    t.column? d.name = some d := by
  obtain ⟨name, -, hname⟩ := exists_of_mem_mapM h hd
  split at hname
  next o ho =>
    obtain rfl := Except.ok.inj hname
    exact find?_name_of_find? ho
  next => cases hname

theorem ListsFirst.add {t u : TableParts} (h : t.ListsFirst) {c : ConstraintRows}
    (hadd : t.add c = .ok u) : u.ListsFirst := by
  unfold TableParts.add at hadd
  split at hadd
  next => cases hadd
  next columns hcolumns =>
    have hnew : u.columns = t.columns ∧
        ∀ d ∈ u.listedColumns, d ∈ t.listedColumns ∨ d ∈ columns := by
      split at hadd <;> obtain rfl := Except.ok.inj hadd <;> refine ⟨rfl, fun d hd => ?_⟩ <;>
        simp only [listedColumns, List.flatMap_append, List.flatMap_singleton, Option.toList_some,
          List.mem_append] at hd ⊢ <;> tauto
    intro d hd
    rw [column?, hnew.1]
    rcases hnew.2 d hd with hd | hd
    · exact h d hd
    · exact column?_of_resolve hcolumns hd

end TableParts

section

variable {P : TableParts → Prop} {ts us : List TableParts}

/-- What holds of all tables goes on to hold if it survives the constraint. -/
theorem forall_of_addConstraint {c : ConstraintRows}
    (hadd : ∀ t u, P t → t.add c = .ok u → P u) (hts : ∀ t ∈ ts, P t)
    (h : addConstraint ts c = .ok us) : ∀ u ∈ us, P u := by
  induction ts generalizing us with
  | nil =>
    obtain rfl := Except.ok.inj h
    exact hts
  | cons t ts ih =>
    have hfirst := hts t (by simp)
    have hrest := fun u hu => hts u (List.mem_cons_of_mem t hu)
    unfold addConstraint at h
    split at h
    · split at h
      · cases h
      next u hu =>
        obtain rfl := Except.ok.inj h
        exact List.forall_mem_cons.mpr ⟨hadd t u hfirst hu, hrest⟩
    · split at h
      · cases h
      next hus =>
        obtain rfl := Except.ok.inj h
        exact List.forall_mem_cons.mpr ⟨hfirst, ih hrest hus⟩

theorem forall_of_addConstraints {cs : List ConstraintRows}
    (hadd : ∀ c ∈ cs, ∀ t u, P t → t.add c = .ok u → P u) (hts : ∀ t ∈ ts, P t)
    (h : addConstraints ts cs = .ok us) : ∀ u ∈ us, P u := by
  induction cs generalizing ts with
  | nil =>
    obtain rfl := Except.ok.inj h
    exact hts
  | cons c cs ih =>
    unfold addConstraints at h
    split at h
    · cases h
    next hus =>
      have hfirst := forall_of_addConstraint (hadd c (by simp)) hts hus
      exact ih (fun d hd => hadd d (List.mem_cons_of_mem c hd)) hfirst h

theorem TableParts.columns_of_add {t u : TableParts} {c : ConstraintRows} (h : t.add c = .ok u) :
    u.name = t.name ∧ u.columns = t.columns := by
  unfold TableParts.add at h
  split at h
  · cases h
  · split at h <;> obtain rfl := Except.ok.inj h <;> exact ⟨rfl, rfl⟩

theorem names_of_addConstraint {c : ConstraintRows} (h : addConstraint ts c = .ok us) :
    us.map TableParts.name = ts.map TableParts.name := by
  induction ts generalizing us with
  | nil =>
    obtain rfl := Except.ok.inj h
    rfl
  | cons t ts ih =>
    unfold addConstraint at h
    split at h
    · split at h
      · cases h
      next hadd =>
        obtain rfl := Except.ok.inj h
        rw [List.map_cons, List.map_cons, (TableParts.columns_of_add hadd).1]
    · split at h
      · cases h
      next hus =>
        obtain rfl := Except.ok.inj h
        rw [List.map_cons, List.map_cons, ih hus]

theorem names_of_addConstraints {cs : List ConstraintRows} (h : addConstraints ts cs = .ok us) :
    us.map TableParts.name = ts.map TableParts.name := by
  induction cs generalizing ts with
  | nil =>
    obtain rfl := Except.ok.inj h
    rfl
  | cons c cs ih =>
    unfold addConstraints at h
    split at h
    · cases h
    next hus => rw [ih h, names_of_addConstraint hus]

end

namespace TableParts

/-- The table has columns, and so has each of its constraints. -/
structure IsFilled (t : TableParts) : Prop where
  columns : t.columns ≠ []
  primaryKey : ∀ k ∈ t.primaryKey, k.columns ≠ []
  indices : ∀ i ∈ t.indices, i.columns ≠ []
  uniques : ∀ k ∈ t.uniques, k.columns ≠ []

theorem resolve_ne_nil {t : TableParts} {c : ConstraintRows} {columns : List ColumnDef}
    (hc : c.columns ≠ []) (h : t.resolve c = .ok columns) : columns ≠ [] := by
  unfold resolve at h
  intro hnil
  cases hcolumns : c.columns with
  | nil => exact hc hcolumns
  | cons name names =>
    rw [hcolumns, List.mapM_cons, bind_eq_ok] at h
    obtain ⟨d, -, h⟩ := h
    obtain ⟨ds, -, h⟩ := bind_eq_ok.mp h
    rw [hnil] at h
    cases pure_eq_ok.mp h

theorem IsFilled.add {t u : TableParts} (h : t.IsFilled) {c : ConstraintRows}
    (hc : c.columns ≠ []) (hadd : t.add c = .ok u) : u.IsFilled := by
  unfold TableParts.add at hadd
  split at hadd
  next => cases hadd
  next columns hcolumns =>
    have hne := resolve_ne_nil hc hcolumns
    split at hadd <;> obtain rfl := Except.ok.inj hadd
    · exact { h with primaryKey := fun k hk => Option.some.inj hk ▸ hne }
    · refine { h with uniques := fun k hk => ?_ }
      rcases List.mem_append.mp hk with hk | hk
      · exact h.uniques k hk
      · rwa [List.mem_singleton.mp hk]
    · refine { h with indices := fun i hi => ?_ }
      rcases List.mem_append.mp hi with hi | hi
      · exact h.indices i hi
      · rwa [List.mem_singleton.mp hi]

end TableParts

/-- A table is only made for a column. -/
theorem Gathers.isFilled {columns : List (String × ColumnDef)} {ts : List TableParts}
    (h : Gathers columns ts) : ∀ t ∈ ts, t.IsFilled := by
  intro t ht
  have hparts := h.parts t ht
  obtain ⟨c, hc, hname⟩ := List.mem_map.mp ((h.names t.name).mp (List.mem_map_of_mem ht))
  have hmem : c.2 ∈ definitionsOf columns t.name :=
    List.mem_map_of_mem (List.mem_filter.mpr ⟨hc, by simpa using hname⟩)
  rw [hparts]
  exact ⟨List.ne_nil_of_mem hmem, by simp, by simp, by simp⟩

theorem columns_ne_nil_of_joinRows {rs : List ConstraintRows} (h : ∀ r ∈ rs, r.columns ≠ []) :
    ∀ r ∈ joinRows rs, r.columns ≠ [] := by
  induction rs with
  | nil => exact h
  | cons r rs ih =>
    have hr := h r (by simp)
    have hrest := ih fun s hs => h s (List.mem_cons_of_mem r hs)
    unfold joinRows
    split
    · simpa using hr
    next next groups hgroups =>
      rw [hgroups] at hrest
      split
      · refine List.forall_mem_cons.mpr ⟨?_, (List.forall_mem_cons.mp hrest).2⟩
        exact List.append_ne_nil_of_left_ne_nil hr _
      · exact List.forall_mem_cons.mpr ⟨hr, hrest⟩

theorem columns_readMember {row : Row} {r : ConstraintRows} (h : readMember row = .ok r) :
    r.columns ≠ [] := by
  simp only [readMember, bind_eq_ok, pure_eq_ok] at h
  obtain ⟨_, -, _, -, _, -, column, -, rfl⟩ := h
  exact List.cons_ne_nil column []

theorem columns_readIndexMember {row : Row} {r : ConstraintRows}
    (h : readIndexMember row = .ok r) : r.columns ≠ [] := by
  simp only [readIndexMember, bind_eq_ok, pure_eq_ok] at h
  obtain ⟨_, -, _, -, _, -, column, -, rfl⟩ := h
  exact List.cons_ne_nil column []

/-- Tables as they come out of the rows of the three queries. -/
structure IsPutTogether (ts : List TableParts) : Prop where
  names : (ts.map TableParts.name).Nodup
  listsFirst : ∀ t ∈ ts, t.ListsFirst
  isFilled : ∀ t ∈ ts, t.IsFilled

theorem Gathers.isPutTogether {columns : List (String × ColumnDef)} {ts : List TableParts}
    (h : Gathers columns ts) : IsPutTogether ts where
  names := h.nodup
  listsFirst t ht := by
    rw [h.parts t ht]
    simp [TableParts.ListsFirst, TableParts.listedColumns]
  isFilled := h.isFilled

theorem IsPutTogether.addConstraints {ts us : List TableParts} (h : IsPutTogether ts)
    {rs : List ConstraintRows} (hrs : ∀ r ∈ rs, r.columns ≠ [])
    (hadd : Postgres.addConstraints ts (joinRows rs) = .ok us) : IsPutTogether us where
  names := names_of_addConstraints hadd ▸ h.names
  listsFirst := forall_of_addConstraints (fun _ _ _ _ ht hu => ht.add hu) h.listsFirst hadd
  isFilled := forall_of_addConstraints
    (fun c hc _ _ ht hu => ht.add (columns_ne_nil_of_joinRows hrs c hc) hu) h.isFilled hadd

theorem isPutTogether_tableParts {rows : CatalogRows} {ts : List TableParts}
    (h : rows.tableParts = .ok ts) : IsPutTogether ts := by
  simp only [CatalogRows.tableParts, bind_eq_ok] at h
  obtain ⟨columns, -, keys, hkeys, us, hus, indices, hindices, h⟩ := h
  have hkeyColumns : ∀ r ∈ keys, r.columns ≠ [] := fun r hr =>
    have ⟨_, _, hread⟩ := exists_of_mem_mapM hkeys hr
    columns_readMember hread
  have hindexColumns : ∀ r ∈ indices, r.columns ≠ [] := fun r hr =>
    have ⟨_, _, hread⟩ := exists_of_mem_mapM hindices hr
    columns_readIndexMember hread
  exact ((gathers_foldl columns).isPutTogether.addConstraints hkeyColumns hus).addConstraints
    hindexColumns h

theorem exists_tableParts_of_assemble {rows : CatalogRows} {first : TableId} {name : String}
    {db : Database} (h : rows.assemble first name = .ok db) :
    ∃ parts, rows.tableParts = .ok parts ∧ db.tables.map Table.name = parts.map TableParts.name ∧
      ∀ t ∈ db.tables, ∃ p ∈ parts, ∃ id, t = p.table id := by
  obtain ⟨parts, hparts, h⟩ := bind_eq_ok.mp h
  obtain rfl := pure_eq_ok.mp h
  refine ⟨parts, hparts, ?_, ?_⟩
  · refine List.ext_getElem (by simp) fun i _ _ => ?_
    simp [TableParts.table, Table.withConstraints]
  · intro t ht
    obtain ⟨i, hi, rfl⟩ := List.mem_mapIdx.mp ht
    exact ⟨parts[i], List.getElem_mem hi, _, rfl⟩

/-- Every database that is put together from rows can be saved and loaded. -/
theorem listsFirst_of_assemble {rows : CatalogRows} {first : TableId} {name : String}
    {db : Database} (h : rows.assemble first name = .ok db) : db.ListsFirst := by
  obtain ⟨parts, hparts, -, htables⟩ := exists_tableParts_of_assemble h
  intro t ht
  obtain ⟨p, hp, id, rfl⟩ := htables t ht
  exact ((isPutTogether_tableParts hparts).listsFirst p hp).table id

end DeclarativeSql.Postgres
