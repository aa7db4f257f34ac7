import DeclarativeSql.Proofs.Parameters.Glyph
import DeclarativeSql.Proofs.Query.Registration
import DeclarativeSql.Proofs.Scoping.Statement
import DeclarativeSql.Proofs.Scoping.Tables

/-!
# Scopes of aliases

An alias is a position among all tables of the owner, whichever statement they are in. So a column
of a registered table always has a name, also where its table is not read. A statement is closed
exactly if each query names only columns of tables that it or a query around it reads, and reads no
table twice.
-/
namespace DeclarativeSql

namespace Arena

variable {a : Arena}

/-- The aliases of some tables. -/
def aliases (a : Arena) (ts : List TableId) : List String := ts.filterMap a.alias?

theorem aliases_append (ts us : List TableId) :
    a.aliases (ts ++ us) = a.aliases ts ++ a.aliases us := List.filterMap_append

theorem mem_aliases_iff {t : TableId} {name : String} (ht : a.alias? t = some name)
    {ts : List TableId} : name ∈ a.aliases ts ↔ t ∈ ts := by
  rw [aliases, List.mem_filterMap]
  constructor
  · rintro ⟨u, hu, hname⟩
    rwa [eq_of_alias? ht hname]
  · exact fun h => ⟨t, h, ht⟩

theorem nodup_aliases_iff {ts : List TableId} (h : ∀ t ∈ ts, ∃ name, a.alias? t = some name) :
    (a.aliases ts).Nodup ↔ ts.Nodup := by
  induction ts with
  | nil => simp [aliases]
  | cons t ts ih =>
    obtain ⟨name, ht⟩ := h t List.mem_cons_self
    have hcons : a.aliases (t :: ts) = name :: a.aliases ts := List.filterMap_cons_some ht
    rw [hcons, List.nodup_cons, List.nodup_cons, mem_aliases_iff ht,
      ih fun u hu => h u (List.mem_cons_of_mem _ hu)]

/-- Expressions among some tables: each column belongs to one of them, or inside a subquery to one
that the subquery reads. No subquery reads a table twice. -/
inductive AreScoped (a : Arena) : List TableId → List Expr → Prop
  | intro {visible : List TableId} {es : List Expr}
    (columns : ∀ c, .column c ∈ Expr.leavesOf es → c.table ∈ visible)
    (distinct : ∀ g ∈ Expr.subqueriesOf es, (a.tablesOf g).Nodup)
    (subqueries : ∀ g ∈ Expr.subqueriesOf es,
      AreScoped a (a.tablesOf g ++ visible) (a.clauseExprs g)) :
    AreScoped a visible es

/-- The query of a source, among the tables of the queries around it. -/
def IsScopedQuery (a : Arena) (outer : List TableId) (f : NodeId) : Prop :=
  (a.tablesOf f).Nodup ∧ a.AreScoped (a.tablesOf f ++ outer) (a.clauseExprs f)

/-- The statement at a node. Inserted values name no columns, and a guard those of the insert. -/
def IsScopedStatement (a : Arena) (id : NodeId) : Prop :=
  match a.kind? id, (a.childrenOf id).head? with
  | some (.insert target), some child =>
    match a.kind? child with
    | some (.values items) =>
      a.AreScoped [] items ∧ a.AreScoped [target.table.id] target.guard.toList
    | _ => a.IsScopedQuery [] child
  | _, _ => a.IsScopedQuery [] id

theorem areScoped_iff {visible : List TableId} {es : List Expr} :
    a.AreScoped visible es ↔ (∀ c, .column c ∈ Expr.leavesOf es → c.table ∈ visible) ∧
      ∀ g ∈ Expr.subqueriesOf es, a.IsScopedQuery visible g := by
  constructor
  · rintro ⟨hcolumns, hdistinct, hsubqueries⟩
    exact ⟨hcolumns, fun g hg => ⟨hdistinct g hg, hsubqueries g hg⟩⟩
  · exact fun ⟨hcolumns, hqueries⟩ =>
      ⟨hcolumns, fun g hg => (hqueries g hg).1, fun g hg => (hqueries g hg).2⟩

end Arena

namespace Part

variable {a : Arena} {query : NodeId → QueryFragments} {ps : List Part} {fs : List QueryFragment}

theorem exists_of_fragmentsOf_eq_ok (h : fragmentsOf a query ps = .ok fs) {p : Part}
    (hp : p ∈ ps) : ∃ gs, p.fragments a query = .ok gs := by
  induction ps generalizing fs with
  | nil => cases hp
  | cons q ps ih =>
    simp only [fragmentsOf, bind_eq_ok] at h
    obtain ⟨gs, hgs, rest, hrest, -⟩ := h
    rcases List.mem_cons.mp hp with rfl | hp
    · exact ⟨gs, hgs⟩
    · exact ih hrest hp

theorem not_refused_of_fragmentsOf_eq_ok (h : fragmentsOf a query ps = .ok fs) : ¬ Refused ps := by
  rintro ⟨e, he⟩
  obtain ⟨gs, hgs⟩ := exists_of_fragmentsOf_eq_ok h he
  cases hgs

theorem exists_alias_of_fragmentsOf {t : Table} (h : fragmentsOf a query ps = .ok fs)
    (ht : t ∈ tables ps) : ∃ name, a.alias? t.id = some name := by
  obtain ⟨gs, hgs⟩ := exists_of_fragmentsOf_eq_ok h (mem_tables_iff.mp ht)
  simp only [fragments] at hgs
  split at hgs
  next name hname => exact ⟨name, hname⟩
  next => cases hgs

theorem introduced_fragmentsOf_eq_aliases (h : fragmentsOf a query ps = .ok fs) :
    QueryFragment.introduced fs = a.aliases ((tables ps).map (·.id)) := by
  rw [introduced_fragmentsOf h, Arena.aliases, List.filterMap_map]
  rfl

end Part

namespace Arena

variable {a : Arena} {depth : Nat}

/-- A query is in the scope of the aliases of some tables if its source is in that of the tables. -/
def ScopesAgree (a : Arena) (depth : Nat) : Prop :=
  ∀ {f body}, a.queryFragments depth f = .ok body → ∀ outer,
    (QueryFragment.select body).IsScoped (a.aliases outer) ↔ a.IsScopedQuery outer f

theorem ScopesAgree.fragmentsOf (hagree : a.ScopesAgree depth) {ps : List Part} {es : List Expr}
    (hmem : ∀ p : Part, p.NeedsScope → (p ∈ ps ↔ p ∈ Expr.leavesOf es)) {fs : List QueryFragment}
    (h : Part.fragmentsOf a (a.queryFragments depth) ps = .ok fs) (visible : List TableId) :
    (∀ f ∈ fs, f.IsScoped (a.aliases visible)) ↔ a.AreScoped visible es := by
  have hcolumn : ∀ c, .column c ∈ ps →
      ((Part.column c).IsScoped a (a.queryFragments depth) (a.aliases visible) ↔
        c.table ∈ visible) := by
    intro c hc
    obtain ⟨gs, hgs⟩ := Part.exists_of_fragmentsOf_eq_ok h hc
    simp only [Part.fragments] at hgs
    split at hgs
    next name hname => simp [Part.IsScoped, hname, mem_aliases_iff hname]
    next => cases hgs
  have hsubquery : ∀ g, .subquery g ∈ ps →
      ((Part.subquery g).IsScoped a (a.queryFragments depth) (a.aliases visible) ↔
        a.IsScopedQuery visible g) := by
    intro g hg
    obtain ⟨gs, hgs⟩ := Part.exists_of_fragmentsOf_eq_ok h hg
    simp only [Part.fragments, bind_eq_ok] at hgs
    obtain ⟨-, -, body, hbody, -⟩ := hgs
    simp [Part.IsScoped, hbody, hagree hbody]
  have hqueries : ∀ g, g ∈ Expr.subqueriesOf es ↔ .subquery g ∈ ps := by
    intro g
    rw [hmem (.subquery g) trivial, Expr.mem_leavesOf_iff, Expr.mem_subqueriesOf_iff]
    simp only [Expr.subquery_mem_leaves_iff]
  rw [Part.isScoped_fragmentsOf_iff h, areScoped_iff]
  constructor
  · intro hps
    refine ⟨fun c hc => ?_, fun g hg => ?_⟩
    · have hc := (hmem (.column c) trivial).mpr hc
      exact (hcolumn c hc).mp (hps _ hc)
    · have hg := (hqueries g).mp hg
      exact (hsubquery g hg).mp (hps _ hg)
  · rintro ⟨hcolumns, hsubqueries⟩ p hp
    cases p with
    | column c => exact (hcolumn c hp).mpr (hcolumns c ((hmem (.column c) trivial).mp hp))
    | subquery g => exact (hsubquery g hp).mpr (hsubqueries g ((hqueries g).mpr hp))
    | _ => trivial

/-- By induction on the depth: one query introduces the tables of its source and shows the
expressions of its clauses. -/
theorem IsForest.scopesAgree (h : a.IsForest) (depth : Nat) : a.ScopesAgree depth := by
  induction depth with
  | zero => exact fun hbody => by cases hbody
  | succ depth ih =>
    intro f body hbody outer
    rw [queryFragments] at hbody
    have hok := Part.not_refused_of_fragmentsOf_eq_ok hbody
    have hintroduced := Part.introduced_fragmentsOf_eq_aliases hbody
    rw [tables_sourceParts hok] at hintroduced
    have hregistered : ∀ t ∈ a.tablesOf f, ∃ name, a.alias? t = some name := by
      rw [← tables_sourceParts hok]
      intro t ht
      obtain ⟨u, hu, rfl⟩ := List.mem_map.mp ht
      exact Part.exists_alias_of_fragmentsOf hbody hu
    rw [QueryFragment.isScoped_select_iff, hintroduced, nodup_aliases_iff hregistered,
      ← aliases_append, ih.fragmentsOf (fun p hp => h.mem_sourceParts_iff hok hp) hbody,
      IsScopedQuery]

theorem areScoped_nil (visible : List TableId) : a.AreScoped visible [] :=
  ⟨fun _ hc => (List.not_mem_nil hc).elim, fun _ hg => (List.not_mem_nil hg).elim,
    fun _ hg => (List.not_mem_nil hg).elim⟩

theorem areClosed_select_iff {body : List QueryFragment} :
    QueryFragment.AreClosed [.select body] ↔ (QueryFragment.select body).IsScoped (a.aliases []) :=
  List.forall_mem_singleton

/-- Outside of its queries an insert names no columns. -/
theorem areClosed_headFragments_append_iff (target : InsertTarget) (fs : List QueryFragment) :
    QueryFragment.AreClosed (headFragments target ++ fs) ↔ QueryFragment.AreClosed fs := by
  rw [QueryFragment.AreClosed, List.forall_mem_append, headFragments, List.forall_mem_map]
  exact and_iff_right fun p _ => .piece p

theorem mem_exprsParts_iff {items : List Expr} {p : Part} (hp : p.NeedsScope)
    (hok : ¬ Part.Refused (Query.exprsParts items)) :
    p ∈ Query.exprsParts items ↔ p ∈ Expr.leavesOf items :=
  Part.mem_iff_of_needsScope (Query.comeFrom_exprsParts items) (Query.show_exprsParts items) hok hp

theorem mem_insertGuardParts_iff {target : InsertTarget} {condition : Expr} {p : Part}
    (hp : p.NeedsScope)
    (hok : ¬ Part.Refused (Query.insertGuardParts target (some condition))) :
    p ∈ Query.insertGuardParts target (some condition) ↔ p ∈ Expr.leavesOf [condition] := by
  have hcondition : ¬ Part.Refused condition.parts :=
    fun hrefused => hok (hrefused.mono fun p hp => by simp [Query.insertGuardParts, hp])
  have hleaves := Part.mem_iff_of_needsScope condition.comeFrom_parts condition.show_parts
    hcondition hp
  rw [Expr.leavesOf, Expr.leavesOf, List.append_nil, ← hleaves]
  cases p with
  | column c => simp [Query.insertGuardParts]
  | subquery g => simp [Query.insertGuardParts]
  | _ => exact hp.elim

theorem ScopesAgree.guardFragments (hagree : a.ScopesAgree depth) {target : InsertTarget}
    {fs : List QueryFragment} (h : a.guardFragments depth target = .ok fs) :
    QueryFragment.introduced fs = [] ∧
      (QueryFragment.AreClosed fs ↔ a.AreScoped [target.table.id] target.guard.toList) := by
  rw [Arena.guardFragments] at h
  cases hguard : target.guard with
  | none =>
    rw [hguard] at h
    cases h
    exact ⟨rfl, iff_of_true (fun _ hf => (List.not_mem_nil hf).elim) (areScoped_nil _)⟩
  | some condition =>
    simp only [hguard, bind_eq_ok, pure_eq_ok] at h
    obtain ⟨body, hbody, rfl⟩ := h
    have hok := Part.not_refused_of_fragmentsOf_eq_ok hbody
    have htables : Part.tables (Query.insertGuardParts target (some condition)) =
        [target.table] := by
      simp only [Query.insertGuardParts, Part.tables_append, Expr.tables_parts]
      rfl
    have hintroduced := Part.introduced_fragmentsOf_eq_aliases hbody
    rw [htables] at hintroduced
    have hdistinct : (a.aliases [target.table.id]).Nodup :=
      (List.nodup_singleton target.table.id).filterMap fun _ _ _ => eq_of_alias?
    refine ⟨rfl, ?_⟩
    rw [areClosed_select_iff (a := a), QueryFragment.isScoped_select_iff, hintroduced,
      ← aliases_append]
    exact (and_iff_right hdistinct).trans
      (hagree.fragmentsOf (fun p hp => mem_insertGuardParts_iff hp hok) hbody _)

theorem ScopesAgree.valuesFragments (hagree : a.ScopesAgree depth) {target : InsertTarget}
    {items : List Expr} {fs : List QueryFragment}
    (h : a.valuesFragments depth target items = .ok fs) :
    QueryFragment.AreClosed fs ↔
      a.AreScoped [] items ∧ a.AreScoped [target.table.id] target.guard.toList := by
  simp only [Arena.valuesFragments, bind_eq_ok, pure_eq_ok] at h
  obtain ⟨values, hvalues, guard, hguard, rfl⟩ := h
  have hok := Part.not_refused_of_fragmentsOf_eq_ok hvalues
  have hmem : ∀ p : Part, p.NeedsScope →
      (p ∈ .text "SELECT" :: Query.exprsParts items ↔ p ∈ Expr.leavesOf items) := by
    intro p hp
    rw [← mem_exprsParts_iff hp fun hrefused => hok (hrefused.mono (List.subset_cons_self _ _)),
      List.mem_cons]
    exact or_iff_right (by rintro rfl; exact hp)
  have hintroduced := Part.introduced_fragmentsOf_eq_aliases hvalues
  have htables : Part.tables (.text "SELECT" :: Query.exprsParts items) = [] :=
    Query.tables_exprsParts items
  obtain ⟨hguardIntroduced, hguardClosed⟩ := hagree.guardFragments hguard
  rw [areClosed_select_iff (a := a), QueryFragment.isScoped_select_iff,
    QueryFragment.introduced_append, hintroduced, htables, hguardIntroduced, List.forall_mem_append]
  exact (and_iff_right .nil).trans
    (and_congr (hagree.fragmentsOf hmem hvalues []) hguardClosed)

theorem IsForest.areClosed_insertFragments_iff (h : a.IsForest) {id : NodeId} {n : Node}
    {target : InsertTarget} (hn : a.node? id = some n) (hk : n.kind = .insert target)
    {fs : List QueryFragment} (hfs : a.insertFragments target n.children = .ok fs) :
    QueryFragment.AreClosed fs ↔ a.IsScopedStatement id := by
  rw [IsScopedStatement, kind?_of_node? hn, hk, childrenOf_of_node? hn]
  cases hchildren : n.children with
  | nil =>
    rw [hchildren] at hfs
    cases hfs
  | cons child rest =>
    simp only [hchildren, insertFragments, bind_eq_ok, node_eq] at hfs
    obtain ⟨source, hsource, hfs⟩ := hfs
    cases hchild : a.node? child with
    | none =>
      rw [hchild] at hsource
      cases hsource
    | some source' =>
      rw [hchild] at hsource
      cases hsource
      simp only [List.head?_cons, kind?_of_node? hchild]
      cases hsort : source.kind with
      | values items =>
        simp only [hsort, bind_eq_ok, pure_eq_ok] at hfs
        obtain ⟨values, hvalues, rfl⟩ := hfs
        rw [areClosed_headFragments_append_iff]
        exact ScopesAgree.valuesFragments (h.scopesAgree _) hvalues
      | source table =>
        cases hguard : target.guard with
        | some condition =>
          simp only [hsort, hguard] at hfs
          cases hfs
        | none =>
          simp only [hsort, hguard, bind_eq_ok, pure_eq_ok] at hfs
          obtain ⟨-, -, body, hbody, rfl⟩ := hfs
          rw [areClosed_headFragments_append_iff, areClosed_select_iff (a := a)]
          exact h.scopesAgree _ hbody []
      | _ =>
        simp only [hsort] at hfs
        cases hfs

theorem IsForest.areClosed_fragments_iff (h : a.IsForest) {id : NodeId} {fs : List QueryFragment}
    (hfs : a.fragments id = .ok fs) : QueryFragment.AreClosed fs ↔ a.IsScopedStatement id := by
  simp only [fragments, bind_eq_ok, node_eq] at hfs
  obtain ⟨-, -, n, hnode, hfs⟩ := hfs
  cases hn : a.node? id with
  | none =>
    rw [hn] at hnode
    cases hnode
  | some n' =>
    rw [hn] at hnode
    cases hnode
    cases hk : n.kind with
    | source table =>
      simp only [hk, bind_eq_ok, pure_eq_ok] at hfs
      obtain ⟨body, hbody, rfl⟩ := hfs
      rw [areClosed_select_iff (a := a), IsScopedStatement, kind?_of_node? hn, hk]
      exact h.scopesAgree _ hbody []
    | insert target =>
      rw [hk] at hfs
      exact h.areClosed_insertFragments_iff hn hk hfs
    | _ =>
      simp only [hk] at hfs
      cases hfs

/-- In every run, the text of a statement is that of its fragments, and these are closed exactly if
the columns of the statement are in the scope of their tables and no query reads a table twice. -/
theorem build_isClosed_iff (operations : List Operation) {id : NodeId} {command : Command}
    (h : (empty.run operations).build id = .ok command) :
    ∃ fs b, (empty.run operations).fragments id = .ok fs ∧
      Piece.buffer (QueryFragment.piecesOf fs ++ [.text ";"]) = .ok b ∧ command = .ofBuffer b ∧
      (QueryFragment.AreClosed fs ↔ (empty.run operations).IsScopedStatement id) := by
  simp only [build, bind_eq_ok, pure_eq_ok] at h
  obtain ⟨ps, hps, b, hb, rfl⟩ := h
  rw [← map_fragments] at hps
  obtain ⟨fs, hfs, rfl⟩ := map_eq_ok.mp hps
  exact ⟨fs, b, hfs, hb, rfl, (empty_isForest.run operations).areClosed_fragments_iff hfs⟩

namespace Users

def posts : Table :=
  .ofColumns ⟨2⟩ "posts" [⟨⟨"id", .scalar .int64, .empty⟩, "Id", ⟨2⟩, "posts"⟩]

/-- A post belongs to the user with its id. -/
def belongs : Expr :=
  .binary .equal (.column ⟨⟨"id", .scalar .int64, .empty⟩, "Id", ⟨2⟩, "posts"⟩)
    (.column ⟨⟨"id", .scalar .int64, .empty⟩, "Id", ⟨1⟩, "users"⟩)

/-- The users that have posts. -/
def authors : List Operation :=
  [.source table, .source posts, .filter 2 belongs, .filter 1 (isNotEmpty 2)]

/-- A filter may name the tables around its query. -/
theorem authors_isClosed_iff : ∃ command, (empty.run authors).build 1 = .ok command ∧
    ∃ fs b, (empty.run authors).fragments 1 = .ok fs ∧
      Piece.buffer (QueryFragment.piecesOf fs ++ [.text ";"]) = .ok b ∧ command = .ofBuffer b ∧
      (QueryFragment.AreClosed fs ↔ (empty.run authors).IsScopedStatement 1) :=
  ⟨_, rfl, build_isClosed_iff _ rfl⟩

/-- Users joined to themselves by the posts, which are the source of another statement. -/
def strayJoin : List Operation :=
  [.source table, .source posts, .join 1 .inner table belongs]

/-- The join is written, although it introduces an alias again and asks for one that only the other
statement introduces. -/
theorem strayJoin_is_not_closed :
    (∃ c, (empty.run strayJoin).build 1 = .ok (.immediate c) ∧
        c.text = "SELECT * FROM users t0 JOIN users t0 ON t1.id=t0.id;") ∧
      (empty.run strayJoin).fragments 1 = .ok [.select
        [.piece (.text "SELECT * FROM"), .introduction "users" "t0", .piece (.text "JOIN"),
          .introduction "users" "t0", .piece (.text "ON"), .reference "t1" "id",
          .piece (.text "="), .reference "t0" "id"]] ∧
      ¬ (empty.run strayJoin).IsScopedStatement 1 ∧
      ∃ fs, (empty.run strayJoin).fragments 1 = .ok fs ∧ ¬ QueryFragment.AreClosed fs := by
  have hunscoped : ¬ (empty.run strayJoin).IsScopedStatement 1 :=
    fun h => absurd h.1 (by decide)
  refine ⟨⟨_, rfl, by decide +kernel⟩, rfl, hunscoped, _, rfl, ?_⟩
  rw [areClosed_select_iff (a := empty.run strayJoin), QueryFragment.isScoped_select_iff]
  exact fun h => absurd h.1 (by decide)

end Users

end Arena

end DeclarativeSql
