import DeclarativeSql.Proofs.Catalog.Assembly
import DeclarativeSql.Proofs.Migration.Reversal
import DeclarativeSql.Text.Quoted

/-!
# Text defaults in the catalogue

The catalogue spells a constant text as a literal, with the name of its type behind it or without.
Flags are read off this spelling. The quote in front keeps it from being taken for a sequence, but
the current time is looked for everywhere, in the literal as well. A column with such a default is
replaced by the same column without one exactly if the current time is found.
-/
namespace DeclarativeSql

section

variable {α : Type} {part xs ys : List α} {x : α}

theorem prefix_append_cons_iff (hx : x ∉ part) : part <+: xs ++ x :: ys ↔ part <+: xs := by
  induction part generalizing xs with
  | nil => simp
  | cons p part ih =>
    rw [List.mem_cons, not_or] at hx
    cases xs with
    | nil => simp [List.cons_prefix_cons, Ne.symm hx.1]
    | cons y xs => rw [List.cons_append, List.cons_prefix_cons, List.cons_prefix_cons, ih hx.2]

/-- A part lies on one side of an element that it does not have. -/
theorem infix_append_cons_iff (hx : x ∉ part) :
    part <:+: xs ++ x :: ys ↔ part <:+: xs ∨ part <:+: ys := by
  induction xs with
  | nil =>
    have hprefix : part <+: [] ++ x :: ys ↔ part <+: [] := prefix_append_cons_iff hx
    rw [List.nil_append] at hprefix ⊢
    rw [List.infix_cons_iff, hprefix, List.prefix_nil, List.infix_nil]
  | cons y xs ih =>
    rw [List.cons_append, List.infix_cons_iff, ih, List.infix_cons_iff, ← List.cons_append,
      prefix_append_cons_iff hx, or_assoc]

theorem infix_cons_iff_of_notMem (hne : part ≠ []) (hx : x ∉ part) :
    part <:+: x :: ys ↔ part <:+: ys := by
  rw [← List.nil_append (x :: ys), infix_append_cons_iff hx, List.infix_nil]
  simp [hne]

end

namespace Quoted

/-- Doubled quotes make no difference to parts without quotes, whatever the other characters are
turned into. -/
theorem infix_map_doubled_iff {mark : Char} {f : Char → Char} {part : List Char} (hne : part ≠ [])
    (hmark : f mark ∉ part) (front s : List Char) :
    part <:+: front ++ (doubled mark s).map f ↔ part <:+: front ++ s.map f := by
  induction s generalizing front with
  | nil => rfl
  | cons c s ih =>
    have hrest := ih []
    by_cases hc : c = mark
    · rw [doubled, if_pos hc, hc, List.map_cons, List.map_cons, List.map_cons,
        infix_append_cons_iff hmark, infix_append_cons_iff hmark,
        infix_cons_iff_of_notMem hne hmark]
      exact or_congr_right hrest
    · have hnext := ih (front ++ [f c])
      rw [List.append_assoc, List.append_assoc] at hnext
      rw [doubled, if_neg hc]
      exact hnext

end Quoted

namespace Postgres

variable {part xs : List Char}

theorem hasInfix_iff : hasInfix part xs = true ↔ part <:+: xs := by
  induction xs with
  | nil => simp [hasInfix]
  | cons c xs ih =>
    rw [hasInfix, Bool.or_eq_true, ih, List.isPrefixOf_iff_prefix, List.infix_cons_iff]

/-- The spelling of a constant text, with the name of its type or without. -/
def constantText (s : String) : Option String → String
  | none => Quoted.literal s
  | some typeName => Quoted.literal s ++ "::" ++ typeName

/-- The current time is spelled somewhere in the text, in capitals or in small letters. -/
def SpellsNow (text : String) : Prop :=
  "current_timestamp".toList <:+: lowered text ∨ "now()".toList <:+: lowered text

theorem isCurrentTime_iff {text : String} :
    isCurrentTime (lowered text) = true ↔ SpellsNow text := by
  rw [isCurrentTime, Bool.or_eq_true, hasInfix_iff, hasInfix_iff, SpellsNow]

theorem lowered_append (s t : String) : lowered (s ++ t) = lowered s ++ lowered t := by
  simp [lowered]

theorem infix_lowered_literal_iff (hne : part ≠ []) (hquote : '\x27' ∉ part) {s : String} :
    part <:+: lowered (Quoted.literal s) ↔ part <:+: lowered s := by
  have hlower : Char.toLower '\x27' = '\x27' := by decide
  rw [lowered, Quoted.literal, Quoted.toList_quote, List.map_cons, List.map_append, List.map_cons,
    hlower, infix_cons_iff_of_notMem hne hquote, infix_append_cons_iff hquote, List.map_nil,
    List.infix_nil, or_iff_left hne]
  exact Quoted.infix_map_doubled_iff hne (by rwa [hlower]) [] s.toList

theorem infix_constantText_iff (hne : part ≠ []) (hquote : '\x27' ∉ part) (hcolon : ':' ∉ part)
    {s : String} {cast : Option String} : part <:+: lowered (constantText s cast) ↔
      part <:+: lowered s ∨ ∃ typeName ∈ cast, part <:+: lowered typeName := by
  cases cast with
  | none => simp [constantText, infix_lowered_literal_iff hne hquote]
  | some typeName =>
    have hcolons : lowered "::" = [':', ':'] := by decide
    rw [constantText, lowered_append, lowered_append, hcolons, List.append_assoc,
      List.cons_append, List.cons_append, List.nil_append, infix_append_cons_iff hcolon,
      infix_cons_iff_of_notMem hne hcolon, infix_lowered_literal_iff hne hquote]
    simp

theorem spellsNow_constantText_iff {s : String} {cast : Option String} :
    SpellsNow (constantText s cast) ↔ SpellsNow s ∨ ∃ typeName ∈ cast, SpellsNow typeName := by
  rw [SpellsNow, infix_constantText_iff (by decide) (by decide) (by decide),
    infix_constantText_iff (by decide) (by decide) (by decide)]
  constructor
  · rintro ((h | ⟨t, ht, h⟩) | (h | ⟨t, ht, h⟩))
    · exact .inl (.inl h)
    · exact .inr ⟨t, ht, .inl h⟩
    · exact .inl (.inr h)
    · exact .inr ⟨t, ht, .inr h⟩
  · rintro ((h | h) | ⟨t, ht, h | h⟩)
    · exact .inl (.inl h)
    · exact .inr (.inl h)
    · exact .inl (.inr ⟨t, ht, h⟩)
    · exact .inr (.inr ⟨t, ht, h⟩)

theorem not_isSequence_constantText (s : String) (cast : Option String) :
    isSequence (lowered (constantText s cast)) = false := by
  have hfirst : ∃ rest, (constantText s cast).toList = '\x27' :: rest := by
    cases cast <;> simp [constantText, Quoted.literal]
  obtain ⟨rest, hrest⟩ := hfirst
  rw [isSequence, lowered, hrest]
  rfl

/-- Flags of a column with a constant text: it may be NULL as the catalogue says, it is not serial,
and it takes the current time if that is spelled. -/
theorem contains_columnFlags_constantText (isNullable s : String) (cast : Option String) :
    (columnFlags isNullable (some (constantText s cast))).contains .nullable =
        decide (lowered isNullable = "yes".toList) ∧
      (columnFlags isNullable (some (constantText s cast))).contains .serial = false ∧
      (columnFlags isNullable (some (constantText s cast))).contains .defaultNow =
        isCurrentTime (lowered (constantText s cast)) := by
  simp only [columnFlags, defaultFlags, not_isSequence_constantText, Bool.false_eq_true, if_false]
  by_cases hyes : lowered isNullable = "yes".toList <;>
    cases isCurrentTime (lowered (constantText s cast)) <;> simp only [hyes, if_true, if_false] <;>
    decide

end Postgres

namespace ColumnFlags

theorem structural_eq_structural_iff {a b : ColumnFlags} : a.structural = b.structural ↔
    a.contains nullable = b.contains nullable ∧ a.contains serial = b.contains serial ∧
      a.contains defaultNow = b.contains defaultNow := by
  constructor
  · intro h
    have hmask : ∀ n ∈ [0, 2, 63], structuralMask.has n = true := by decide
    have hhas : ∀ n ∈ [0, 2, 63], a.has n = b.has n := by
      intro n hn
      have hbit := congrArg (·.has n) h
      simpa only [structural, has_and, hmask n hn, Bool.and_true] using hbit
    simp only [nullable, serial, defaultNow, contains_bit _ (show 0 < 64 by decide),
      contains_bit _ (show 2 < 64 by decide), contains_bit _ (show 63 < 64 by decide)]
    exact ⟨hhas 0 (by simp), hhas 2 (by simp), hhas 63 (by simp)⟩
  · rintro ⟨hnullable, hserial, hnow⟩
    rw [structural_eq, structural_eq, hnullable, hserial, hnow]

end ColumnFlags

/-- The columns that a difference drops and adds again are those with another shape. -/
theorem mem_replaced_iff {current target : Table} (hc : current.columnNames.Nodup)
    (ht : target.columnNames.Nodup) {name : String} :
    (∃ d ∈ (diffTable current target).replaced, d.name = name) ↔
      isReplaced current target name = true := by
  rw [diffTable_eq hc ht]
  simp only [TableDelta.replaced, columnsNotIn, List.mem_filter]
  constructor
  · rintro ⟨d, ⟨⟨hd, hlacks⟩, hcovers⟩, rfl⟩
    simp only [coversName, List.any_eq_true, List.mem_filter, beq_iff_eq] at hcovers
    obtain ⟨o, ⟨ho, -⟩, hname⟩ := hcovers
    apply isReplaced_of_lacks hc hd hlacks
    rw [← hname]
    exact List.mem_map_of_mem ho
  · intro hreplaced
    obtain ⟨d, hd, hname, hlacks⟩ := exists_lacks_of_isReplaced hreplaced
    rw [isReplaced_comm] at hreplaced
    obtain ⟨o, ho, hother, hadded⟩ := exists_lacks_of_isReplaced hreplaced
    refine ⟨d, ⟨⟨hd, hlacks⟩, ?_⟩, hname⟩
    simp only [coversName, List.any_eq_true, List.mem_filter, beq_iff_eq]
    exact ⟨o, ⟨ho, hadded⟩, hother.trans hname.symm⟩

theorem isReplaced_iff {current target : Table} (hc : current.columnNames.Nodup)
    (ht : target.columnNames.Nodup) {o d : ColumnDef} (ho : o ∈ current.definitions)
    (hd : d ∈ target.definitions) (hname : o.name = d.name) :
    isReplaced current target d.name = true ↔ ¬ o.shape = d.shape := by
  obtain ⟨x, hx, rfl⟩ := (Table.exists_columnByName?_iff hc).mpr ⟨ho, hname⟩
  obtain ⟨y, hy, rfl⟩ := (Table.exists_columnByName?_iff ht).mpr ⟨hd, rfl⟩
  rw [isReplaced, hx, hy, ← ColumnDef.sameShape_iff_shape]
  simp

/-- The column is dropped and added again, and loses its data. -/
def DatabaseDelta.Replaces (delta : DatabaseDelta) (table column : String) : Prop :=
  ∃ m ∈ delta.tablesToModify, m.name = table ∧ ∃ d ∈ m.replaced, d.name = column

theorem replaces_iff {current target : Database} {delta : DatabaseDelta}
    (h : diff current target = .ok delta) {c t : Table} (hc : c ∈ current.tables)
    (ht : t ∈ target.tables) (hname : c.name = t.name) {column : String} :
    delta.Replaces t.name column ↔ isReplaced c t column = true := by
  obtain ⟨hcurrent, htarget, rfl⟩ := diff_eq_ok_iff.mp h
  rw [← mem_replaced_iff (hcurrent.tables c hc).columns (htarget.tables t ht).columns]
  simp only [DatabaseDelta.Replaces, mem_modified_iff hcurrent]
  constructor
  · rintro ⟨_, ⟨u, hu, v, hv, huv, rfl, -⟩, hm, hd⟩
    -- names tell the tables of either side apart
    obtain rfl := List.inj_on_of_nodup_map htarget.names hv ht hm
    obtain rfl := List.inj_on_of_nodup_map hcurrent.names hu hc (huv.trans hname.symm)
    exact hd
  · rintro ⟨d, hd, hcolumn⟩
    have hdrop : d ∈ (diffTable c t).columnsToDrop := List.mem_of_mem_filter hd
    have hne : (diffTable c t).isEmpty = false := by
      simp [TableDelta.isEmpty, List.ne_nil_of_mem hdrop]
    exact ⟨_, ⟨c, hc, t, ht, hname, rfl, hne⟩, rfl, d, hd, hcolumn⟩

namespace Postgres

theorem TableParts.definitions_table (t : TableParts) (id : TableId) :
    (t.table id).definitions = t.columns := by
  simp [TableParts.table, Table.withConstraints, Table.definitions, Table.bindAll,
    Function.comp_def]

theorem exists_definition_of_assemble {rows : CatalogRows} {first : TableId} {name : String}
    {db : Database} (h : rows.assemble first name = .ok db) {row : Row} (hrow : row ∈ rows.columns)
    {table : String} {d : ColumnDef} (hread : readColumn row = .ok (table, d)) :
    ∃ t ∈ db.tables, t.name = table ∧ d ∈ t.definitions := by
  obtain ⟨parts, hparts, h⟩ := bind_eq_ok.mp h
  obtain rfl := pure_eq_ok.mp h
  simp only [CatalogRows.tableParts, bind_eq_ok] at hparts
  obtain ⟨columns, hcolumns, _, -, us, hus, _, -, hparts⟩ := hparts
  have hmem := mem_of_mapM hcolumns hrow hread
  have hgathers := gathers_foldl columns
  have hkeeps : ∀ t u : TableParts, t.columns = definitionsOf columns t.name →
      ∀ c, t.add c = .ok u → u.columns = definitionsOf columns u.name := by
    intro t u ht c hadd
    rw [(TableParts.columns_of_add hadd).1, (TableParts.columns_of_add hadd).2, ht]
  have hfirst : ∀ t ∈ us, t.columns = definitionsOf columns t.name := by
    refine forall_of_addConstraints (fun c _ t u ht => hkeeps t u ht c) (fun t ht => ?_) hus
    rw [hgathers.parts t ht]
  have hall : ∀ t ∈ parts, t.columns = definitionsOf columns t.name :=
    forall_of_addConstraints (fun c _ t u ht => hkeeps t u ht c) hfirst hparts
  have hnames : table ∈ parts.map TableParts.name := by
    rw [names_of_addConstraints hparts, names_of_addConstraints hus, hgathers.names]
    exact List.mem_map_of_mem hmem
  obtain ⟨p, hp, rfl⟩ := List.mem_map.mp hnames
  obtain ⟨i, hi, rfl⟩ := List.mem_iff_getElem.mp hp
  refine ⟨_, List.mem_mapIdx.mpr ⟨i, hi, rfl⟩, rfl, ?_⟩
  rw [TableParts.definitions_table, hall _ hp]
  exact List.mem_map_of_mem (List.mem_filter.mpr ⟨hmem, by simp⟩)

/-- The catalogue has the column with this default, and the database declares it without one. -/
structure LosesDefault (rows : CatalogRows) (target : Database) (table : String) (d : ColumnDef)
    (default : String) : Prop where
  row : ∃ row ∈ rows.columns, row.text? 0 = some table ∧ row.text? 1 = some d.name ∧
    (∃ typeName, row.text? 2 = some typeName ∧ SqlType.ofCatalogName? typeName = some d.sqlType) ∧
    row.text? 3 = some (if d.isNullable then "YES" else "NO") ∧ row.text? 4 = some default
  declared : ∃ t ∈ target.tables, t.name = table ∧ d ∈ t.definitions
  serial : d.isSerial = false
  now : d.isDefaultNow = false

theorem get?_of_text? {row : Row} {i : Nat} {s : String} (h : row.text? i = some s) :
    row.get? i = some (.text s) := by
  obtain ⟨v, hv, hs⟩ := Option.bind_eq_some_iff.mp h
  cases v <;> cases hs
  exact hv

theorem readColumn_eq_ok {row : Row} {table name typeName isNullable default : String}
    {sqlType : SqlType} (htable : row.text? 0 = some table) (hname : row.text? 1 = some name)
    (htype : row.text? 2 = some typeName) (hsql : SqlType.ofCatalogName? typeName = some sqlType)
    (hnullable : row.text? 3 = some isNullable) (hdefault : row.text? 4 = some default) :
    readColumn row = .ok (table, ⟨name, sqlType, columnFlags isNullable (some default)⟩) := by
  simp [readColumn, textAt, textOrNullAt, htable, hname, htype, hsql, hnullable,
    get?_of_text? hdefault, ok_bind, pure, Except.pure]

/-- The column as it is read has the shape of its declaration unless it takes the current time. -/
theorem shape_eq_iff_of_constantText {d : ColumnDef} (hserial : d.isSerial = false)
    (hnow : d.isDefaultNow = false) (s : String) (cast : Option String) :
    ColumnDef.shape ⟨d.name, d.sqlType,
        columnFlags (if d.isNullable then "YES" else "NO") (some (constantText s cast))⟩ = d.shape ↔
      ¬ SpellsNow (constantText s cast) := by
  have hyes : decide (lowered (if d.isNullable then "YES" else "NO") = "yes".toList) =
      d.isNullable := by
    cases d.isNullable <;> decide
  obtain ⟨hn, hs, ht⟩ := contains_columnFlags_constantText
    (if d.isNullable then "YES" else "NO") s cast
  have hnullable : d.flags.contains .nullable = d.isNullable := rfl
  rw [ColumnDef.isSerial] at hserial
  rw [ColumnDef.isDefaultNow] at hnow
  simp only [ColumnDef.shape, Prod.mk.injEq, true_and, ColumnFlags.structural_eq_structural_iff]
  rw [hn, hs, ht, hyes, hnullable, hserial, hnow, ← isCurrentTime_iff]
  simp

/-- Of the flags that a default may set, a constant text sets none but the one for the current time,
and sets that one exactly if the literal or the name of its type spells the current time. Exactly
then a difference replaces the column by the same column without a default. -/
theorem constantText_takes_now_iff (s : String) (cast : Option String) :
    (∀ isNullable, (columnFlags isNullable (some (constantText s cast))).contains .serial = false ∧
      ((columnFlags isNullable (some (constantText s cast))).contains .defaultNow = true ↔
        SpellsNow s ∨ ∃ typeName ∈ cast, SpellsNow typeName)) ∧
      ∀ (rows : CatalogRows) (first : TableId) (name : String) (current target : Database)
        (table : String) (d : ColumnDef) (delta : DatabaseDelta),
        rows.assemble first name = .ok current →
        LosesDefault rows target table d (constantText s cast) →
        diff current target = .ok delta →
        (delta.Replaces table d.name ↔ SpellsNow s ∨ ∃ typeName ∈ cast, SpellsNow typeName) := by
  simp only [← spellsNow_constantText_iff]
  constructor
  · intro isNullable
    obtain ⟨-, hserial, hnow⟩ := contains_columnFlags_constantText isNullable s cast
    rw [hserial, hnow, isCurrentTime_iff]
    exact ⟨rfl, Iff.rfl⟩
  · intro rows first name current target table d delta hcurrent hloses hdelta
    obtain ⟨row, hrow, htable, hname, ⟨typeName, htype, hsql⟩, hnullable, hdefault⟩ := hloses.row
    have hread := readColumn_eq_ok htable hname htype hsql hnullable hdefault
    obtain ⟨c, hc, hcname, ho⟩ := exists_definition_of_assemble hcurrent hrow hread
    obtain ⟨t, ht, rfl, hd⟩ := hloses.declared
    obtain ⟨hfirst, hsecond, -⟩ := diff_eq_ok_iff.mp hdelta
    rw [replaces_iff hdelta hc ht hcname,
      isReplaced_iff (hfirst.tables c hc).columns (hsecond.tables t ht).columns ho hd rfl,
      shape_eq_iff_of_constantText hloses.serial hloses.now, not_not]

namespace Notes

/-- One table with one column of texts that have a default. -/
def rows (default : String) : CatalogRows :=
  ⟨[⟨[.text "notes", .text "body", .text "text", .text "NO", .text default]⟩], [], []⟩

def body : ColumnDef := ⟨"body", .scalar .text, .empty⟩

def table (id : Nat) (d : ColumnDef) : Table := .withConstraints ⟨id⟩ "notes" [d] none [] []

def declared : Database := ⟨"app", [table 1 body]⟩

theorem losesDefault (default : String) :
    LosesDefault (rows default) declared "notes" body default where
  row := ⟨_, List.mem_cons_self, rfl, rfl, ⟨"text", rfl, rfl⟩, rfl, rfl⟩
  declared := ⟨_, List.mem_cons_self, rfl, List.mem_cons_self⟩
  serial := by decide
  now := by decide

theorem contraction_takes_no_time :
    (rows "'it''s not now ()'::text").assemble ⟨0⟩ "app" = .ok ⟨"app", [table 0 body]⟩ ∧
      LosesDefault (rows "'it''s not now ()'::text") declared "notes" body
        (constantText "it's not now ()" (some "text")) ∧
      diff ⟨"app", [table 0 body]⟩ declared = .ok ⟨"app", [], [], []⟩ ∧
      ¬ DatabaseDelta.Replaces ⟨"app", [], [], []⟩ "notes" "body" := by
  have htext : constantText "it's not now ()" (some "text") = "'it''s not now ()'::text" := by
    decide +kernel
  have hcurrent : (rows "'it''s not now ()'::text").assemble ⟨0⟩ "app" =
      .ok ⟨"app", [table 0 body]⟩ := by rfl
  have hdelta : diff ⟨"app", [table 0 body]⟩ declared = .ok ⟨"app", [], [], []⟩ := by rfl
  have hloses := losesDefault (constantText "it's not now ()" (some "text"))
  rw [← htext] at hcurrent
  have hreplaces := (constantText_takes_now_iff "it's not now ()" (some "text")).2 _ ⟨0⟩ "app" _ _ _
    _ _ hcurrent hloses hdelta
  have hnow : ¬ (SpellsNow "it's not now ()" ∨ ∃ typeName ∈ some "text", SpellsNow typeName) := by
    unfold SpellsNow
    decide +kernel
  rw [← htext]
  exact ⟨hcurrent, hloses, hdelta, fun h => hnow (hreplaces.mp h)⟩

/-- A constant text that spells a call of the clock: the column with it is dropped and added again
because of the column without. -/
theorem call_is_replaced :
    constantText "now()" (some "text") = "'now()'::text" ∧
      (columnFlags "NO" (some "'now()'::text")).contains .defaultNow = true ∧
      ∃ current delta, (rows "'now()'::text").assemble ⟨0⟩ "app" = .ok current ∧
        LosesDefault (rows "'now()'::text") declared "notes" body "'now()'::text" ∧
        diff current declared = .ok delta ∧ delta.Replaces "notes" "body" := by
  refine ⟨by decide +kernel, by decide +kernel, _, _, rfl, losesDefault _, rfl, ?_⟩
  exact ⟨_, List.mem_cons_self, rfl, _, List.mem_cons_self, rfl⟩

end Notes

end Postgres

end DeclarativeSql
