import DeclarativeSql.Proofs.Rendering.Statement

/-!
# Nested statements

A statement with the queries inside it kept apart. Each query introduces aliases, and a column is
named by the alias of its table. A query sees the aliases of its own and of the queries around it.
-/
namespace DeclarativeSql

inductive QueryFragment
  | piece (piece : Piece)
  /-- A table and the alias it is read under. -/
  | introduction (table name : String)
  /-- A column of the table that is read under an alias. -/
  | reference (name column : String)
  /-- A query, from its first keyword on. -/
  | select (body : List QueryFragment)

abbrev QueryFragments := Except ConstructionError (List QueryFragment)

namespace QueryFragment

mutual

def pieces : QueryFragment → List Piece
  | piece p => [p]
  | introduction table name => [.text table, .text name]
  | reference name column => [.text (name ++ "." ++ column)]
  | select body => piecesOf body

def piecesOf : List QueryFragment → List Piece
  | [] => []
  | f :: rest => f.pieces ++ piecesOf rest

end

def introduced? : QueryFragment → Option String
  | introduction _ name => some name
  | _ => none

/-- The aliases that a query introduces itself. -/
def introduced (fs : List QueryFragment) : List String := fs.filterMap introduced?

/-- Every column is named by a visible alias, and no query introduces an alias twice. -/
inductive IsScoped : List String → QueryFragment → Prop
  | piece {visible : List String} (p : Piece) : IsScoped visible (.piece p)
  | introduction {visible : List String} (table name : String) :
      IsScoped visible (.introduction table name)
  | reference {visible : List String} {name : String} (h : name ∈ visible) (column : String) :
      IsScoped visible (.reference name column)
  | select {visible : List String} {body : List QueryFragment} (distinct : (introduced body).Nodup)
      (h : ∀ f ∈ body, IsScoped (introduced body ++ visible) f) : IsScoped visible (.select body)

/-- The fragments of a statement, outside of which nothing is visible. -/
def AreClosed (fs : List QueryFragment) : Prop := ∀ f ∈ fs, f.IsScoped []

theorem piecesOf_append (fs gs : List QueryFragment) :
    piecesOf (fs ++ gs) = piecesOf fs ++ piecesOf gs := by
  induction fs with
  | nil => rfl
  | cons f fs ih => rw [List.cons_append, piecesOf, piecesOf, ih, List.append_assoc]

theorem piecesOf_map_piece (ps : List Piece) : piecesOf (ps.map piece) = ps := by
  induction ps with
  | nil => rfl
  | cons p ps ih => rw [List.map_cons, piecesOf, ih, pieces, List.singleton_append]

theorem introduced_append (fs gs : List QueryFragment) :
    introduced (fs ++ gs) = introduced fs ++ introduced gs := List.filterMap_append

theorem isScoped_reference_iff {visible : List String} {name column : String} :
    (reference name column).IsScoped visible ↔ name ∈ visible :=
  ⟨fun h => by cases h; assumption, fun h => .reference h column⟩

theorem isScoped_select_iff {visible : List String} {body : List QueryFragment} :
    (select body).IsScoped visible ↔
      (introduced body).Nodup ∧ ∀ f ∈ body, f.IsScoped (introduced body ++ visible) :=
  ⟨fun h => by cases h; exact ⟨‹_›, ‹_›⟩, fun h => .select h.1 h.2⟩

end QueryFragment

namespace Part

/-- The fragments of a part, given those of the queries inside it. -/
def fragments (a : Arena) (query : NodeId → QueryFragments) : Part → QueryFragments
  | text token => .ok [.piece (.text token)]
  | source p => .ok [.piece (.source p)]
  | column c =>
    match a.alias? c.table with
    | some name => .ok [.reference name c.name]
    | none => .error (.unregisteredTable c.tableName)
  | table t =>
    match a.alias? t.id with
    | some name => .ok [.introduction t.name name]
    | none => .error (.unregisteredTable t.name)
  | command c => do return [.piece (← Piece.ofCommand c)]
  | code id => .ok [.piece (.code id)]
  | subquery g => do
    let _ ← a.ownerOf g
    return [.select (← query g)]
  | refusal e => .error e

def fragmentsOf (a : Arena) (query : NodeId → QueryFragments) : List Part → QueryFragments
  | [] => .ok []
  | p :: rest => do return (← p.fragments a query) ++ (← fragmentsOf a query rest)

variable {a : Arena} {query : NodeId → QueryFragments} {depth : Nat}

theorem map_fragments (hquery : ∀ g, (query g).map QueryFragment.piecesOf = a.selectPieces depth g)
    (p : Part) :
    (p.fragments a query).map QueryFragment.piecesOf = p.pieces (a.surroundings depth) := by
  cases p with
  | column c =>
    simp only [fragments, pieces, Arena.surroundings, Arena.columnReference]
    cases a.alias? c.table <;> rfl
  | table t =>
    simp only [fragments, pieces, Arena.surroundings, Arena.introduce]
    cases a.alias? t.id <;> rfl
  | command c =>
    simp only [fragments, pieces]
    cases Piece.ofCommand c <;> rfl
  | subquery g =>
    simp only [fragments, pieces, Arena.surroundings, ← hquery]
    cases a.ownerOf g with
    | error e => rfl
    | ok owner =>
      cases query g with
      | error e => rfl
      | ok body => exact congrArg Except.ok (List.append_nil _)
  | _ => rfl

/-- The fragments are the pieces, only nested. -/
theorem map_fragmentsOf
    (hquery : ∀ g, (query g).map QueryFragment.piecesOf = a.selectPieces depth g) (ps : List Part) :
    (fragmentsOf a query ps).map QueryFragment.piecesOf = piecesOf (a.surroundings depth) ps := by
  induction ps with
  | nil => rfl
  | cons p ps ih =>
    rw [fragmentsOf, piecesOf, ← map_fragments hquery p, ← ih]
    cases p.fragments a query with
    | error e => rfl
    | ok fs =>
      cases fragmentsOf a query ps with
      | error e => rfl
      | ok gs => exact congrArg Except.ok (QueryFragment.piecesOf_append fs gs)

def table? : Part → Option Table
  | table t => some t
  | _ => none

/-- The tables that are introduced outside of the queries in the parts. -/
def tables (ps : List Part) : List Table := ps.filterMap table?

theorem introduced_fragments {p : Part} {fs : List QueryFragment}
    (h : p.fragments a query = .ok fs) :
    QueryFragment.introduced fs = (tables [p]).filterMap fun t => a.alias? t.id := by
  cases p with
  | column c =>
    simp only [fragments] at h
    split at h <;> cases h
    rfl
  | table t =>
    simp only [fragments] at h
    split at h <;> cases h
    next hname => simp [tables, table?, hname, QueryFragment.introduced, QueryFragment.introduced?]
  | command c =>
    simp only [fragments, bind_eq_ok, pure_eq_ok] at h
    obtain ⟨q, -, rfl⟩ := h
    rfl
  | subquery g =>
    simp only [fragments, bind_eq_ok, pure_eq_ok] at h
    obtain ⟨-, -, body, -, rfl⟩ := h
    rfl
  | refusal e => cases h
  | _ => cases h; rfl

theorem introduced_fragmentsOf {ps : List Part} {fs : List QueryFragment}
    (h : fragmentsOf a query ps = .ok fs) :
    QueryFragment.introduced fs = (tables ps).filterMap fun t => a.alias? t.id := by
  induction ps generalizing fs with
  | nil => cases h; rfl
  | cons p ps ih =>
    simp only [fragmentsOf, bind_eq_ok, pure_eq_ok] at h
    obtain ⟨gs, hgs, rest, hrest, rfl⟩ := h
    rw [QueryFragment.introduced_append, introduced_fragments hgs, ih hrest,
      ← List.filterMap_append, tables, tables, ← List.filterMap_append, List.singleton_append]
    rfl

/-- What a part asks for, in order to be in the scope of some aliases. -/
def IsScoped (a : Arena) (query : NodeId → QueryFragments) (visible : List String) : Part → Prop
  | column c => ∀ name, a.alias? c.table = some name → name ∈ visible
  | subquery g => ∀ body, query g = .ok body → (QueryFragment.select body).IsScoped visible
  | _ => True

theorem isScoped_fragments_iff {p : Part} {fs : List QueryFragment}
    (h : p.fragments a query = .ok fs) (visible : List String) :
    (∀ f ∈ fs, f.IsScoped visible) ↔ p.IsScoped a query visible := by
  cases p with
  | column c =>
    simp only [fragments] at h
    split at h <;> cases h
    next hname => simp [IsScoped, hname, QueryFragment.isScoped_reference_iff]
  | table t =>
    simp only [fragments] at h
    split at h <;> cases h
    simpa [IsScoped] using QueryFragment.IsScoped.introduction _ _
  | command c =>
    simp only [fragments, bind_eq_ok, pure_eq_ok] at h
    obtain ⟨q, -, rfl⟩ := h
    simpa [IsScoped] using QueryFragment.IsScoped.piece q
  | subquery g =>
    simp only [fragments, bind_eq_ok, pure_eq_ok] at h
    obtain ⟨-, -, body, hbody, rfl⟩ := h
    simp [IsScoped, hbody]
  | refusal e => cases h
  | _ =>
    cases h
    simpa [IsScoped] using QueryFragment.IsScoped.piece _

theorem isScoped_fragmentsOf_iff {ps : List Part} {fs : List QueryFragment}
    (h : fragmentsOf a query ps = .ok fs) (visible : List String) :
    (∀ f ∈ fs, f.IsScoped visible) ↔ ∀ p ∈ ps, p.IsScoped a query visible := by
  induction ps generalizing fs with
  | nil => cases h; simp
  | cons p ps ih =>
    simp only [fragmentsOf, bind_eq_ok, pure_eq_ok] at h
    obtain ⟨gs, hgs, rest, hrest, rfl⟩ := h
    rw [List.forall_mem_cons, ← isScoped_fragments_iff hgs, ← ih hrest, List.forall_mem_append]

end Part

end DeclarativeSql
