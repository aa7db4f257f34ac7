import DeclarativeSql.Postgres.Dialect
import DeclarativeSql.Proofs.Quoting.Scanner

/-!
# Tokens of schema changes

With quoted names a statement is scanned as its key words, its type names and its punctuation, and
each name is one identifier. Statements about the server quote their names in either mode, and a
password is one literal. So the tokens of a statement are of the same kinds, whatever its names are.
-/
namespace DeclarativeSql

open Ddl (Token scan opens closes)

def keyWords (words : List String) : List Token := words.map .word

/-- Items in parentheses, with commas between them. -/
def parenthesized (items : List (List Token)) : List Token :=
  .symbol '(' :: [Token.symbol ','].intercalate items ++ [Token.symbol ')']

def SqlType.tokens (serial : Bool) : SqlType → List Token
  | scalar .int32 => [.word (if serial then "serial4" else "int4")]
  | scalar .int64 => [.word (if serial then "serial8" else "int8")]
  | scalar s => [.word s.catalogName]
  | array s => [.word s.catalogName, .symbol '[', .symbol ']']

def ColumnDef.tokens (c : ColumnDef) : List Token :=
  .identifier c.name :: c.sqlType.tokens c.isSerial ++
    keyWords (if c.isNullable then ["NULL"] else ["NOT", "NULL"]) ++
    keyWords (if c.isDefaultNow then ["DEFAULT", "CURRENT_TIMESTAMP"] else [])

def columnTokens (columns : List ColumnDef) : List Token :=
  parenthesized (columns.map fun c => [.identifier c.name])

namespace Statement

def alterTableTokens (table : String) (change : List Token) : List Token :=
  keyWords ["ALTER", "TABLE", "IF", "EXISTS"] ++ .identifier table :: change ++ [Token.symbol ';']

def addConstraintTokens (table : String) (k : Key) (kind : List String) : List Token :=
  alterTableTokens table (keyWords ["ADD", "CONSTRAINT"] ++ .identifier k.name :: keyWords kind ++
    columnTokens k.columns)

def dropConstraintTokens (table name : String) : List Token :=
  alterTableTokens table
    (keyWords ["DROP", "CONSTRAINT", "IF", "EXISTS"] ++ [Token.identifier name])

def tokens : Statement → List Token
  | createTable table columns =>
    keyWords ["CREATE", "TABLE", "IF", "NOT", "EXISTS"] ++ .identifier table ::
      parenthesized (columns.map ColumnDef.tokens) ++ [.symbol ';']
  | dropTable table =>
    keyWords ["DROP", "TABLE", "IF", "EXISTS"] ++ [.identifier table, .symbol ';']
  | addColumn table column =>
    alterTableTokens table (keyWords ["ADD", "COLUMN"] ++ column.tokens)
  | dropColumn table column =>
    alterTableTokens table (keyWords ["DROP", "COLUMN", "IF", "EXISTS"] ++ [.identifier column])
  | addPrimaryKey table key => addConstraintTokens table key ["PRIMARY", "KEY"]
  | dropPrimaryKey table name => dropConstraintTokens table name
  | addIndex table index =>
    keyWords ["CREATE", "INDEX", "IF", "NOT", "EXISTS"] ++ .identifier index.name ::
      keyWords ["ON"] ++ .identifier table ::
      keyWords (match index.method with | .standard => [] | .gin => ["USING", "gin"]) ++
      columnTokens index.columns ++ [.symbol ';']
  | dropIndex _ name =>
    keyWords ["DROP", "INDEX", "IF", "EXISTS"] ++ [.identifier name, .symbol ';']
  | addUnique table unique => addConstraintTokens table unique ["UNIQUE"]
  | dropUnique table name => dropConstraintTokens table name

end Statement

def EnvironmentStatement.tokens : EnvironmentStatement → List Token
  | createRole name password =>
    keyWords ["CREATE", "ROLE"] ++ .identifier name :: keyWords ["PASSWORD"] ++
      .literal password :: keyWords ["LOGIN"] ++ [.symbol ';']
  | createDatabase name owner =>
    keyWords ["CREATE", "DATABASE"] ++ .identifier name :: keyWords ["OWNER"] ++
      [.identifier owner, .symbol ';']

namespace Dialect

variable {d : Dialect} {fs gs : List Fragment} {ts us : List Token} {text : String}

theorem text_cons (f : Fragment) (fs : List Fragment) :
    d.text (f :: fs) = d.fragment f ++ d.text fs := by
  simp [Dialect.text]

theorem text_append (fs gs : List Fragment) : d.text (fs ++ gs) = d.text fs ++ d.text gs := by
  simp [Dialect.text]

/-- The text of the fragments has these tokens. -/
def Reads (d : Dialect) (fs : List Fragment) (ts : List Token) : Prop :=
  scan (d.text fs) = some ts

/-- The fragments have these tokens, and nothing in front of them reaches into their text. -/
structure Follows (d : Dialect) (fs : List Fragment) (ts : List Token) : Prop where
  reads : d.Reads fs ts
  front : opens (d.text fs) = true

theorem Follows.nil : d.Follows [] [] := ⟨rfl, rfl⟩

/-- Any fragment in front of fragments that nothing reaches into. -/
theorem Follows.cons (h : d.Follows fs us) {f : Fragment} (hf : scan (d.fragment f) = some ts) :
    d.Reads (f :: fs) (ts ++ us) := by
  rw [Reads, text_cons]
  exact Ddl.scan_append hf h.reads (.inr h.front)

theorem Reads.fixed_cons (h : d.Reads fs us) (text : String) (ts : List Token)
    (htext : scan text = some ts) (hcloses : closes text = true) :
    d.Reads (.fixed text :: fs) (ts ++ us) := by
  rw [Reads, text_cons]
  exact Ddl.scan_append htext h (.inl hcloses)

theorem Reads.append (h : d.Reads fs ts) (h' : d.Follows gs us) :
    d.Reads (fs ++ gs) (ts ++ us) := by
  rw [Reads, text_append]
  exact Ddl.scan_append h h'.reads (.inr h'.front)

theorem Follows.append (h : d.Follows fs ts) (h' : d.Follows gs us) :
    d.Follows (fs ++ gs) (ts ++ us) := by
  refine ⟨h.reads.append h', ?_⟩
  rw [text_append]
  exact Ddl.opens_append h.front h'.front

theorem Reads.opening (h : d.Reads (.fixed text :: fs) ts) (hopens : opens text = true)
    (hne : text ≠ "") : d.Follows (.fixed text :: fs) ts := by
  refine ⟨h, ?_⟩
  rw [text_cons]
  exact Ddl.opens_append_of_ne_empty hopens hne _

theorem Follows.fixed (htext : scan text = some ts) (hopens : opens text = true)
    (hne : text ≠ "") : d.Follows [.fixed text] ts := by
  have h := Reads.opening (Follows.nil.cons (d := d) (f := .fixed text) htext) hopens hne
  rwa [List.append_nil] at h

theorem reads_separated {α : Type} {fragments : α → List Fragment} {tokens : α → List Token}
    (h : ∀ x, d.Reads (fragments x) (tokens x)) (xs : List α) :
    d.Reads (separated (xs.map fragments)) ([Token.symbol ','].intercalate (xs.map tokens)) := by
  induction xs with
  | nil => rfl
  | cons x xs ih =>
    cases xs with
    | nil => simpa [separated, List.intercalate] using h x
    | cons y ys =>
      have hcomma : d.Reads (.fixed "," :: separated ((y :: ys).map fragments))
          ([Token.symbol ','] ++ [Token.symbol ','].intercalate ((y :: ys).map tokens)) :=
        ih.fixed_cons "," [.symbol ','] rfl (by decide)
      exact (h x).append (hcomma.opening (by decide) (by decide))

/-- Names are written as one token each, and the names of types as the words they are. -/
structure IsQuoted (d : Dialect) : Prop where
  name : ∀ name, scan (d.name name) = some [.identifier name]
  typeName : ∀ serial t, scan (" " ++ d.typeName serial t) = some (t.tokens serial)

namespace IsQuoted

variable (hd : d.IsQuoted)

include hd

theorem reads_name (name : String) : d.Reads [.name name] [.identifier name] :=
  Follows.nil.cons (f := .name name) (hd.name name)

theorem name_cons (name : String) (h : d.Follows fs ts) :
    d.Reads (.name name :: fs) (.identifier name :: ts) :=
  h.cons (f := .name name) (hd.name name)

theorem reads_columnDefinition (c : ColumnDef) : d.Reads (d.columnDefinition c) c.tokens := by
  have hdefault : d.Follows
      (if c.isDefaultNow then [.fixed " DEFAULT CURRENT_TIMESTAMP"] else [])
      (keyWords (if c.isDefaultNow then ["DEFAULT", "CURRENT_TIMESTAMP"] else [])) := by
    cases c.isDefaultNow
    · exact .nil
    · exact .fixed rfl (by decide) (by decide)
  have hnull : d.Follows [.fixed (if c.isNullable then " NULL" else " NOT NULL")]
      (keyWords (if c.isNullable then ["NULL"] else ["NOT", "NULL"])) := by
    cases c.isNullable <;> exact .fixed rfl (by decide) (by decide)
  have htype : d.Follows [.fixed (" " ++ d.typeName c.isSerial c.sqlType)]
      (c.sqlType.tokens c.isSerial) := by
    have hblank : opens " " = true := by decide
    refine .fixed (hd.typeName _ _) (Ddl.opens_append_of_ne_empty hblank (by decide) _) ?_
    simp
  have hname := hd.name_cons c.name ((htype.append hnull).append hdefault)
  rw [columnDefinition, ColumnDef.tokens]
  simpa using hname

theorem follows_columnNames (columns : List ColumnDef) :
    d.Follows (columnNames columns) (columnTokens columns) := by
  have hlist := reads_separated (fun c : ColumnDef => hd.reads_name c.name) columns
  have hend : d.Follows [.fixed ")"] [.symbol ')'] := .fixed rfl (by decide) (by decide)
  have hbegin : d.Reads (columnNames columns) (columnTokens columns) :=
    (hlist.append hend).fixed_cons "(" [.symbol '('] rfl (by decide)
  exact hbegin.opening (by decide) (by decide)

theorem reads_alterTable (table : String) {change : List Fragment} (h : d.Follows change ts) :
    d.Reads (alterTable table change) (Statement.alterTableTokens table ts) := by
  have hend : d.Follows [.fixed ";"] [.symbol ';'] := .fixed rfl (by decide) (by decide)
  have hname := hd.name_cons table (h.append hend)
  exact hname.fixed_cons "ALTER TABLE IF EXISTS " (keyWords ["ALTER", "TABLE", "IF", "EXISTS"]) rfl
    (by decide)

theorem reads_dropConstraint (table name : String) :
    d.Reads (dropConstraint table name) (Statement.dropConstraintTokens table name) := by
  have hdrop := (hd.reads_name name).fixed_cons " DROP CONSTRAINT IF EXISTS "
    (keyWords ["DROP", "CONSTRAINT", "IF", "EXISTS"]) rfl (by decide)
  exact hd.reads_alterTable table (hdrop.opening (by decide) (by decide))

theorem reads_addConstraint (table : String) (k : Key) {kind : String} {words : List String}
    (hkind : scan kind = some (keyWords words)) (hopens : opens kind = true) (hne : kind ≠ "") :
    d.Reads (addConstraint table k kind) (Statement.addConstraintTokens table k words) := by
  have hcolumns := (hd.follows_columnNames k.columns).cons (f := .fixed kind) hkind
  have hname := hd.name_cons k.name (hcolumns.opening hopens hne)
  have hadd : d.Reads (.fixed " ADD CONSTRAINT " :: .name k.name :: .fixed kind ::
        columnNames k.columns)
      (keyWords ["ADD", "CONSTRAINT"] ++ .identifier k.name :: keyWords words ++
        columnTokens k.columns) := by
    rw [List.append_assoc]
    exact hname.fixed_cons " ADD CONSTRAINT " (keyWords ["ADD", "CONSTRAINT"]) rfl (by decide)
  exact hd.reads_alterTable table (hadd.opening (by decide) (by decide))

theorem reads_fragments (s : Statement) : d.Reads (d.fragments s) s.tokens := by
  have hend : d.Follows [.fixed ";"] [.symbol ';'] := .fixed rfl (by decide) (by decide)
  cases s with
  | createTable table columns =>
    have hlist := reads_separated hd.reads_columnDefinition columns
    have hclose : d.Follows [.fixed ");"] [.symbol ')', .symbol ';'] :=
      .fixed rfl (by decide) (by decide)
    have hopen := (hlist.append hclose).fixed_cons "(" [.symbol '('] rfl (by decide)
    have hname := hd.name_cons table (hopen.opening (by decide) (by decide))
    have hall := hname.fixed_cons "CREATE TABLE IF NOT EXISTS "
      (keyWords ["CREATE", "TABLE", "IF", "NOT", "EXISTS"]) rfl (by decide)
    simpa [fragments, Statement.tokens, parenthesized, keyWords] using hall
  | dropTable table =>
    exact (hd.name_cons table hend).fixed_cons "DROP TABLE IF EXISTS "
      (keyWords ["DROP", "TABLE", "IF", "EXISTS"]) rfl (by decide)
  | addColumn table column =>
    have hadd := (hd.reads_columnDefinition column).fixed_cons " ADD COLUMN "
      (keyWords ["ADD", "COLUMN"]) rfl (by decide)
    exact hd.reads_alterTable table (hadd.opening (by decide) (by decide))
  | dropColumn table column =>
    have hdrop := (hd.reads_name column).fixed_cons " DROP COLUMN IF EXISTS "
      (keyWords ["DROP", "COLUMN", "IF", "EXISTS"]) rfl (by decide)
    exact hd.reads_alterTable table (hdrop.opening (by decide) (by decide))
  | addPrimaryKey table key => exact hd.reads_addConstraint table key rfl (by decide) (by decide)
  | dropPrimaryKey table name => exact hd.reads_dropConstraint table name
  | addIndex table index =>
    obtain ⟨name, method, columns⟩ := index
    have hall : ∀ {fs ts}, d.Follows fs ts →
        d.Reads ([Fragment.fixed "CREATE INDEX IF NOT EXISTS ", .name name, .fixed " ON ",
            .name table] ++ fs ++ columnNames columns ++ [Fragment.fixed ";"])
          (keyWords ["CREATE", "INDEX", "IF", "NOT", "EXISTS"] ++ Token.identifier name ::
            keyWords ["ON"] ++ Token.identifier table :: ts ++ columnTokens columns ++
            [Token.symbol ';']) := by
      intro fs ts hmethod
      have hafter := (hmethod.append (hd.follows_columnNames columns)).append hend
      have hon := (hd.name_cons table hafter).fixed_cons " ON " (keyWords ["ON"]) rfl
        (by decide)
      have hname := hd.name_cons name (hon.opening (by decide) (by decide))
      have hall := hname.fixed_cons "CREATE INDEX IF NOT EXISTS "
        (keyWords ["CREATE", "INDEX", "IF", "NOT", "EXISTS"]) rfl (by decide)
      simpa [keyWords] using hall
    cases method with
    | standard => exact hall .nil
    | gin => exact hall (.fixed rfl (by decide) (by decide))
  | dropIndex table name =>
    exact (hd.name_cons name hend).fixed_cons "DROP INDEX IF EXISTS "
      (keyWords ["DROP", "INDEX", "IF", "EXISTS"]) rfl (by decide)
  | addUnique table unique => exact hd.reads_addConstraint table unique rfl (by decide) (by decide)
  | dropUnique table name => exact hd.reads_dropConstraint table name

end IsQuoted

theorem reads_environmentFragments
    (hglobal : ∀ name, scan (d.globalName name) = some [.identifier name])
    (e : EnvironmentStatement) : d.Reads (environmentFragments e) e.tokens := by
  cases e with
  | createRole name password =>
    have hlogin : d.Follows [.fixed " LOGIN;"] [.word "LOGIN", .symbol ';'] :=
      .fixed rfl (by decide) (by decide)
    have hliteral := hlogin.cons (f := .literal password) (Ddl.scan_literal password)
    have hpassword := hliteral.fixed_cons " PASSWORD " (keyWords ["PASSWORD"]) rfl (by decide)
    have hname := (hpassword.opening (by decide) (by decide)).cons (f := .globalName name)
      (hglobal name)
    exact hname.fixed_cons "CREATE ROLE " (keyWords ["CREATE", "ROLE"]) rfl (by decide)
  | createDatabase name owner =>
    have hend : d.Follows [.fixed ";"] [.symbol ';'] := .fixed rfl (by decide) (by decide)
    have howner := (hend.cons (f := .globalName owner) (hglobal owner)).fixed_cons " OWNER "
      (keyWords ["OWNER"]) rfl (by decide)
    have hname := (howner.opening (by decide) (by decide)).cons (f := .globalName name)
      (hglobal name)
    exact hname.fixed_cons "CREATE DATABASE " (keyWords ["CREATE", "DATABASE"]) rfl (by decide)

end Dialect

/-- The kind of a token, and what it says if it is no name and no password. -/
def Ddl.Token.shape : Token → Token
  | .identifier _ => .identifier ""
  | .literal _ => .literal ""
  | t => t

def ColumnDef.nameless (c : ColumnDef) : ColumnDef := { c with name := "" }

def Key.nameless (k : Key) : Key := ⟨"", k.columns.map ColumnDef.nameless⟩

def Index.nameless (i : Index) : Index := ⟨"", i.method, i.columns.map ColumnDef.nameless⟩

/-- The form of a statement with the number of its columns, their types and their flags. -/
def Statement.nameless : Statement → Statement
  | createTable _ columns => createTable "" (columns.map ColumnDef.nameless)
  | dropTable _ => dropTable ""
  | addColumn _ column => addColumn "" column.nameless
  | dropColumn _ _ => dropColumn "" ""
  | addPrimaryKey _ key => addPrimaryKey "" key.nameless
  | dropPrimaryKey _ _ => dropPrimaryKey "" ""
  | addIndex _ index => addIndex "" index.nameless
  | dropIndex _ _ => dropIndex "" ""
  | addUnique _ unique => addUnique "" unique.nameless
  | dropUnique _ _ => dropUnique "" ""

def EnvironmentStatement.nameless : EnvironmentStatement → EnvironmentStatement
  | createRole _ _ => createRole "" ""
  | createDatabase _ _ => createDatabase "" ""

theorem shape_keyWords (words : List String) :
    (keyWords words).map Token.shape = keyWords words := by
  rw [keyWords, List.map_map]
  rfl

theorem map_intercalate {α β : Type} (f : α → β) (x : α) (items : List (List α)) :
    ([x].intercalate items).map f = [f x].intercalate (items.map (List.map f)) := by
  induction items with
  | nil => rfl
  | cons item rest ih =>
    cases rest with
    | nil => simp [List.intercalate]
    | cons next rest =>
      simp only [List.intercalate_cons_cons, List.map_cons, List.map_append] at ih ⊢
      rw [ih, List.map_nil]

theorem shape_parenthesized {α : Type} {f g : α → List Token} (xs : List α)
    (h : ∀ x, (f x).map Token.shape = g x) :
    (parenthesized (xs.map f)).map Token.shape = parenthesized (xs.map g) := by
  simp [parenthesized, map_intercalate, Function.comp_def, h, Token.shape]

theorem SqlType.shape_tokens (serial : Bool) (t : SqlType) :
    (t.tokens serial).map Token.shape = t.tokens serial := by
  cases t with
  | scalar s => cases s <;> rfl
  | array s => rfl

theorem ColumnDef.shape_tokens (c : ColumnDef) :
    c.tokens.map Token.shape = c.nameless.tokens := by
  simp only [ColumnDef.tokens, List.map_append, List.map_cons, shape_keyWords,
    SqlType.shape_tokens]
  rfl

theorem shape_columnTokens (columns : List ColumnDef) :
    (columnTokens columns).map Token.shape = columnTokens (columns.map ColumnDef.nameless) := by
  rw [columnTokens, columnTokens, List.map_map]
  exact shape_parenthesized columns fun _ => rfl

theorem Statement.shape_tokens (s : Statement) :
    s.tokens.map Token.shape = s.nameless.tokens := by
  cases s with
  | createTable table columns =>
    have hcolumns := shape_parenthesized columns ColumnDef.shape_tokens
    simp [Statement.tokens, nameless, shape_keyWords, hcolumns, Function.comp_def, Token.shape]
  | addIndex table index =>
    simp [Statement.tokens, nameless, Index.nameless, shape_keyWords, shape_columnTokens,
      Token.shape]
  | _ =>
    simp [Statement.tokens, nameless, alterTableTokens, addConstraintTokens, dropConstraintTokens,
      Key.nameless, shape_keyWords, shape_columnTokens, ColumnDef.shape_tokens, Token.shape]

theorem EnvironmentStatement.shape_tokens (e : EnvironmentStatement) :
    e.tokens.map Token.shape = e.nameless.tokens := by
  cases e <;> rfl

namespace Postgres

theorem isQuoted_dialect : (dialect true).IsQuoted where
  name := Ddl.scan_identifier
  typeName serial t := by
    cases t with
    | scalar s => cases s <;> cases serial <;> rfl
    | array s =>
      have helement : scan (" " ++ s.catalogName) = some [.word s.catalogName] := by
        cases s <;> rfl
      have hbrackets : scan "[]" = some [.symbol '[', .symbol ']'] := rfl
      have h := Ddl.scan_append helement hbrackets (.inr (by decide))
      rwa [String.append_assoc] at h

/-- A statement with quoted names, and any statement about the server, is scanned as the words and
the punctuation of its form, with each name as one identifier and a password as one literal. But for
what these say, the tokens are those of the statement without names. -/
theorem scan_sql :
    (∀ s, scan ((dialect true).sql s) = some s.tokens) ∧
    (∀ quoted e, scan ((dialect quoted).environmentSql e) = some e.tokens) ∧
    (∀ s, (scan ((dialect true).sql s)).map (List.map Token.shape) =
      scan ((dialect true).sql s.nameless)) ∧
    ∀ quoted e, (scan ((dialect quoted).environmentSql e)).map (List.map Token.shape) =
      scan ((dialect quoted).environmentSql e.nameless) := by
  have hstatement : ∀ s, scan ((dialect true).sql s) = some s.tokens :=
    isQuoted_dialect.reads_fragments
  have henvironment : ∀ quoted e, scan ((dialect quoted).environmentSql e) = some e.tokens :=
    fun quoted => Dialect.reads_environmentFragments Ddl.scan_identifier
  refine ⟨hstatement, henvironment, ?_, ?_⟩
  · intro s
    rw [hstatement, hstatement, Option.map_some, s.shape_tokens]
  · intro quoted e
    rw [henvironment, henvironment, Option.map_some, e.shape_tokens]

/-- A name that tries to end its token and to go on with a statement of its own. -/
example : scan ((dialect true).sql (.dropTable "a\"; DROP TABLE b; --")) =
    some [.word "DROP", .word "TABLE", .word "IF", .word "EXISTS",
      .identifier "a\"; DROP TABLE b; --", .symbol ';'] := by
  decide

end Postgres

end DeclarativeSql
