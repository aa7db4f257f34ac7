import DeclarativeSql.Proofs.Binding.References
import DeclarativeSql.Proofs.Query.Registration
import DeclarativeSql.Proofs.Scoping.Tables

/-!
# Failing statements

How writing a statement can fail. In a forest each child is one that its parent has a place for, and
each node finds its table, so two of the errors in the code that writes statements can not occur: a
clause in a wrong place, and a table that its own node did not register. A column is the only thing
that can be of a table that is unknown.
-/
namespace DeclarativeSql

namespace Part

/-- A refusal is that of an expression without a text. -/
def RefusesForm : Part → Prop
  | refusal e => e.IsUnsupported
  | _ => True

theorem refusesForm_text (token : String) : (text token).RefusesForm := trivial

theorem IsLeaf.refusesForm {p : Part} (h : p.IsLeaf) : p.RefusesForm := by
  cases p <;> first | exact h.elim | exact trivial

end Part

theorem Expr.refusesForm_parts (e : Expr) : ∀ p ∈ e.parts, p.RefusesForm :=
  forall_mem_parts (fun _ _ => trivial) (fun _ h => h) fun p hp =>
    (e.isLeaf_of_mem_leaves p hp).refusesForm

namespace NodeKind

theorem table_mem_leaves_iff {k : NodeKind} {t : Table} :
    .table t ∈ k.leaves ↔ k.table? = some t := by
  have hnone : ∀ es : List Expr, .table t ∉ Expr.leavesOf es := by
    intro es ht
    rw [← Part.mem_tables_iff, Expr.tables_leavesOf] at ht
    cases ht
  have hone : ∀ e : Expr, .table t ∉ e.leaves := by
    intro e ht
    rw [← Part.mem_tables_iff, Expr.tables_leaves] at ht
    cases ht
  cases k <;> simp [leaves, table?, hnone, hone, eq_comm]

end NodeKind

namespace Arena

variable {a b : Arena} {f id : NodeId}

/-- How writing the statement, or the query, at a node can fail. -/
inductive Fails (a : Arena) (f : NodeId) : ConstructionError → Prop
  | expression (what : String) : Fails a f (.unsupportedExpression what)
  | call (what : String) : Fails a f (.unsupportedCall what)
  | count (table : String) (columns values : Nat) :
    Fails a f (.valueCountMismatch table columns values)
  | detached (id : NodeId) : Fails a f (.detachedNode id)
  | argument (name : String) : Fails a f (.unknownArgument name)
  | endless (id : NodeId) : Fails a f (.endlessSubquery id)
  /-- The statement names a column that no registered table owns. -/
  | column {c : Column} (hc : a.Shows f (.column c)) (hnone : ∀ t ∈ a.tables, t.owns c = false) :
    Fails a f (.unregisteredTable c.tableName)

theorem Fails.of_subquery {g : NodeId} {e : ConstructionError} (h : a.Fails g e)
    (hg : a.Shows f (.subquery g)) : a.Fails f e := by
  cases h with
  | column hc hnone => exact .column (.subquery hg hc) hnone
  | expression what => exact .expression what
  | call what => exact .call what
  | count table columns values => exact .count table columns values
  | detached id => exact .detached id
  | argument name => exact .argument name
  | endless id => exact .endless id

theorem fails_of_refusesForm {e : ConstructionError} (h : (Part.refusal e).RefusesForm) :
    a.Fails f e := by
  cases e with
  | unsupportedExpression what => exact .expression what
  | unsupportedCall what => exact .call what
  | _ => cases h

theorem IsForest.fails_of_mem_sourceParts (h : a.IsForest) {e : ConstructionError}
    (he : .refusal e ∈ a.sourceParts id) : a.Fails f e := by
  unfold sourceParts at he
  split at he
  next =>
    cases List.mem_singleton.mp he
    exact .detached _
  next n hn =>
    split at he
    next table hk =>
      obtain ⟨c, hc⟩ := h.exists_ofKinds (hk ▸ kind?_of_node? hn)
      rw [childrenOf_of_node? hn] at hc
      rw [hc] at he
      exact fails_of_refusesForm (Query.forall_mem_selectParts Part.refusesForm_text
        (fun _ => trivial) Expr.refusesForm_parts table c _ he)
    next =>
      cases List.mem_singleton.mp he
      exact .expression _

theorem IsForest.fails_of_mem_statementParts (h : a.IsForest) {e : ConstructionError}
    (he : .refusal e ∈ a.statementParts id) : a.Fails f e := by
  cases h.statementPart_of_mem he with
  | expression what => exact .expression what
  | detached n => exact .detached n
  | count table columns values => exact .count table columns values
  | query he => exact h.fails_of_mem_sourceParts he
  | @head target _ hid he =>
    exact fails_of_refusesForm (Query.forall_mem_insertHeadParts Part.refusesForm_text target _ he)
  | @values target _ items _ hid hchild hitems he =>
    exact fails_of_refusesForm (Query.forall_mem_insertValuesParts Part.refusesForm_text
      (fun _ => trivial) Expr.refusesForm_parts target items _ he)
  | inserted hid hchild hsource he => exact h.fails_of_mem_sourceParts he

theorem IsRegistered.mem_ids_of_shows (h : a.IsRegistered) {t : Table}
    (ht : a.Shows f (.table t)) : t.id ∈ a.tables.map Table.id := by
  obtain ⟨n, hn, hleaf⟩ := List.mem_flatMap.mp (mem_leaves_of_shows ht)
  obtain ⟨id, hid⟩ := List.mem_iff_getElem?.mp hn
  exact h.own (kind?_of_node? hid) (NodeKind.table_mem_leaves_iff.mp hleaf)

theorem IsRegistered.fails_of_part (h : a.IsRegistered) {depth : Nat} {p : Part}
    {e : ConstructionError} (hp : a.Shows f p ∨ p.IsWording)
    (hrefusal : ∀ e, p = .refusal e → a.Fails f e)
    (hbelow : ∀ g e, a.selectPieces depth g = .error e → a.Fails g e)
    (he : p.pieces (a.surroundings depth) = .error e) : a.Fails f e := by
  cases p with
  | text token => cases he
  | source s => cases he
  | code id => cases he
  | refusal e' =>
    cases he
    exact hrefusal e rfl
  | column c =>
    simp only [Part.pieces, surroundings, columnReference] at he
    split at he
    next => cases he
    next hnone =>
      cases he
      refine .column (hp.resolve_right id) fun t ht => ?_
      have hne : t.id ≠ c.table := fun hid =>
        alias?_eq_none_iff.mp hnone (hid ▸ List.mem_map_of_mem ht)
      simpa [Table.owns] using hne.symm
  | table t =>
    simp only [Part.pieces, surroundings, introduce] at he
    split at he
    next => cases he
    next hnone =>
      exact absurd (h.mem_ids_of_shows (hp.resolve_right id)) (alias?_eq_none_iff.mp hnone)
  | command c =>
    rw [Part.pieces] at he
    cases hc : Piece.ofCommand c with
    | ok piece =>
      rw [hc] at he
      cases he
    | error e' =>
      rw [hc] at he
      cases he
      obtain ⟨name, rfl⟩ := Piece.eq_unknownArgument_of_ofCommand hc
      exact .argument name
  | subquery g =>
    rw [Part.pieces] at he
    rcases a.ownerOf_cases g with howner | hdetached
    · rw [subquery_of_owned depth howner] at he
      exact (hbelow g e he).of_subquery (hp.resolve_right id)
    · rw [subquery_of_detached depth hdetached] at he
      cases he
      exact .detached g

theorem IsForest.fails_of_selectPieces (h : a.IsForest) (hregistered : a.IsRegistered) {depth : Nat}
    {e : ConstructionError} (he : a.selectPieces depth f = .error e) : a.Fails f e := by
  induction depth generalizing f e with
  | zero =>
    cases he
    exact .endless f
  | succ depth ih =>
    rw [selectPieces_succ] at he
    obtain ⟨p, hp, hpe⟩ := Part.exists_of_piecesOf_eq_error he
    refine hregistered.fails_of_part (h.shows_of_mem_sourceParts hp) ?_ (fun g e => ih) hpe
    rintro e rfl
    exact h.fails_of_mem_sourceParts hp

theorem IsForest.fails_of_build (h : a.IsForest) (hregistered : a.IsRegistered)
    {e : ConstructionError} (he : a.build id = .error e) : a.Fails id e := by
  rcases pieces_of_build_eq_error he with hpieces | ⟨name, rfl⟩
  · rw [pieces_eq] at hpieces
    obtain ⟨p, hp, hpe⟩ := Part.exists_of_piecesOf_eq_error hpieces
    refine hregistered.fails_of_part (h.shows_of_mem_statementParts hp) ?_
      (fun g e => h.fails_of_selectPieces hregistered) hpe
    rintro e rfl
    exact h.fails_of_mem_statementParts hp
  · exact .argument name

/-- What can be relied on when `a` has become `b`. -/
structure RegistersTables (a b : Arena) : Prop where
  /-- Tables are put behind those that are there, and none is there twice. -/
  appended : a.tables <+: b.tables
  distinct : (a.tables.map Table.id).Nodup
  /-- An alias stays that of its table, and no other table has it. -/
  kept : ∀ t name, a.alias? t = some name → b.alias? t = some name
  single : ∀ t u name, a.alias? t = some name → a.alias? u = some name → t = u
  /-- A node introduces its own table, by the position at which it is registered. -/
  own : ∀ id k t, a.kind? id = some k → k.table? = some t →
    ∃ (i : Nat) (found : Table), a.tables[i]? = some found ∧ found.id = t.id ∧
      a.introduce t = .ok [.text t.name, .text (aliasName i)]
  /-- A column is written with the position of the table that owns it, or not at all. -/
  columns : ∀ c ps, (Expr.column c).pieces a.context = .ok ps ↔
    ∃ (i : Nat) (owner : Table), a.tables[i]? = some owner ∧ owner.owns c = true ∧
      ps = [.text (aliasName i ++ "." ++ c.name)]
  /-- No statement and no query, however deep inside others, fails for a clause in a wrong place.
  Only a column can be of a table that is not registered, and then no node has that table. -/
  failures : ∀ id e, (a.build id = .error e ∨ ∃ depth, a.selectPieces depth id = .error e) →
    (∀ child parent, e ≠ .invalidChild child parent) ∧
      ∀ name, e = .unregisteredTable name → ∃ c, a.Shows id (.column c) ∧ c.tableName = name ∧
        ∀ t ∈ a.tables, t.owns c = false

theorem Fails.registered {e : ConstructionError} (h : a.Fails f e) :
    (∀ child parent, e ≠ .invalidChild child parent) ∧
      ∀ name, e = .unregisteredTable name → ∃ c, a.Shows f (.column c) ∧ c.tableName = name ∧
        ∀ t ∈ a.tables, t.owns c = false := by
  constructor
  · rintro child parent rfl
    cases h
  · rintro name rfl
    cases h with
    | column hc hnone => exact ⟨_, hc, rfl, hnone⟩

/-- Tables that nodes bring along are registered for good. So each statement finds the tables of its
own nodes, whatever operations were refused in between, and each column goes by the alias of the
table that owns it. -/
theorem run_registersTables (operations more : List Operation) :
    (empty.run operations).RegistersTables (empty.run (operations ++ more)) := by
  have hforest : (empty.run operations).IsForest := empty_isForest.run operations
  have hregistered := run_isRegistered operations
  have happended : (empty.run operations).tables <+: (empty.run (operations ++ more)).tables := by
    rw [run_append]
    exact (leads_run _ more).tables_grow
  refine ⟨happended, hregistered.distinct, fun _ _ => alias?_of_prefix happended,
    fun _ _ _ => eq_of_alias?, fun _ _ _ => hregistered.introduce_eq_ok, fun c ps => ?_, ?_⟩
  · have hreference : (Expr.column c).pieces (empty.run operations).context = .ok ps ↔
        ∃ text, (empty.run operations).columnReference c = .ok text ∧ ps = [.text text] := by
      simp only [Expr.pieces, context, bind_eq_ok, pure_eq_ok]
      exact exists_congr fun _ => and_congr_right fun _ => eq_comm
    simp only [hreference, hregistered.columnReference_eq_ok_iff]
    constructor
    · rintro ⟨_, ⟨i, owner, hi, howns, rfl⟩, rfl⟩
      exact ⟨i, owner, hi, howns, rfl⟩
    · rintro ⟨i, owner, hi, howns, rfl⟩
      exact ⟨_, ⟨i, owner, hi, howns, rfl⟩, rfl⟩
  · rintro id e (he | ⟨depth, he⟩)
    · exact (hforest.fails_of_build hregistered he).registered
    · exact (hforest.fails_of_selectPieces hregistered he).registered

end Arena

end DeclarativeSql
