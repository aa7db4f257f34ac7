import DeclarativeSql.Proofs.Scanning.Expressions
import DeclarativeSql.Proofs.Scoping.Tables

/-!
# Tokens of statements

Between the expressions of a statement there are keywords, names and commas. So no sign is taken in
in a statement exactly if this is so in all its expressions and in the queries that they mention.
-/
namespace DeclarativeSql

open Content (IsAtom)
open DeclarativeSql.Part (Follows Reads IsWritten)

variable {fill : CodeId → Content} {s : Surroundings} {apart : NodeId → Prop}

/-- A name of letters, digits and underscores. -/
def IsIdentifier (name : String) : Prop :=
  name.toList ≠ [] ∧ ∀ c ∈ name.toList, Scanner.isWord c = true

instance (name : String) : Decidable (IsIdentifier name) :=
  decidable_of_iff (name.toList ≠ [] ∧ name.toList.all Scanner.isWord = true)
    (and_congr_right fun _ => List.all_eq_true)

namespace IsIdentifier

variable {name name' : String}

theorem append (h : IsIdentifier name) (h' : IsIdentifier name') :
    IsIdentifier (name ++ name') := by
  rw [IsIdentifier, String.toList_append, List.forall_mem_append]
  exact ⟨fun hnil => h.1 (List.append_eq_nil_iff.mp hnil).1, h.2, h'.2⟩

theorem toString_nat (n : Nat) : IsIdentifier (toString n) := by
  rw [IsIdentifier, Nat.toString_eq_repr, Nat.toList_repr]
  refine ⟨Nat.toDigits_ne_nil, fun c hc => ?_⟩
  have hdigit := Nat.isDigit_of_mem_toDigits (by decide) (by decide) hc
  simp [Scanner.isWord, Char.isAlphanum, hdigit]

theorem isAtom_of_forall {token : String} (hne : token.toList ≠ [])
    (h : ∀ c ∈ token.toList, Scanner.isWord c = true ∨ c = '.') :
    IsAtom (Scanner.marks token) := by
  refine Content.isAtom_of_forall (by simpa [Scanner.marks] using hne) ?_
  rintro _ hx
  obtain ⟨c, hc, rfl⟩ := List.mem_map.mp hx
  rcases h c hc with hword | rfl
  · exact Scanner.isOperator_of_isWord hword
  · decide

theorem isAtom (h : IsIdentifier name) : IsAtom (Scanner.marks name) :=
  isAtom_of_forall h.1 fun c hc => .inl (h.2 c hc)

theorem isAtom_qualified (h : IsIdentifier name) (h' : IsIdentifier name') :
    IsAtom (Scanner.marks (name ++ "." ++ name')) := by
  refine isAtom_of_forall (by simp [h.1]) ?_
  simp only [String.toList_append, List.forall_mem_append]
  refine ⟨⟨fun c hc => .inl (h.2 c hc), fun c hc => .inr ?_⟩, fun c hc => .inl (h'.2 c hc)⟩
  exact List.mem_singleton.mp hc

end IsIdentifier

namespace NodeKind

/-- No sign is taken in, neither in the expressions of the node nor in the queries that these
mention. -/
def StaysApart (apart : NodeId → Prop) (k : NodeKind) : Prop :=
  ∀ e ∈ k.expressions, e.StaysApart apart

end NodeKind

namespace Part

theorem Follows.flatten {α : Type} {xs : List α} {f : α → List Part} {each : α → Prop}
    (h : ∀ x ∈ xs, Follows fill s (f x) (each x)) :
    Follows fill s (xs.map f).flatten (∀ x ∈ xs, each x) := by
  induction xs with
  | nil => exact Follows.nil.congr (by simp)
  | cons x xs ih =>
    exact ((h x List.mem_cons_self).append (ih fun y hy => h y (List.mem_cons_of_mem _ hy))).congr
      List.forall_mem_cons.symm

end Part

namespace Query

theorem follows_exprsParts {es : List Expr}
    (h : ∀ p ∈ Expr.leavesOf es, p.IsWritten fill s apart) :
    Follows fill s (exprsParts es) (∀ e ∈ es, e.StaysApart apart) :=
  .separated fun e he =>
    (e.isRead fun p hp => h p (Expr.mem_leavesOf_iff.mpr ⟨e, he, hp⟩)).follows

theorem isIdentifier_itemName (i : Nat) : IsIdentifier (itemName i) := by
  have hgrows : IsIdentifier "c" := by decide
  exact hgrows.append (.toString_nat i)

theorem follows_selectItemParts {item : Expr × Nat}
    (h : ∀ p ∈ item.1.leaves, p.IsWritten fill s apart) :
    Follows fill s (selectItemParts item) (item.1.StaysApart apart) := by
  have has : IsAtom (Scanner.marks "AS") := by decide
  have hname : Reads fill s [.text (itemName item.2)] True False :=
    .text (isIdentifier_itemName item.2).isAtom
  exact ((item.1.isRead h).follows.append (hname.follows.text_cons has).follows).congr
    (iff_of_eq (and_true _))

theorem reads_selectHeadParts {select : Option (List Expr)}
    (h : ∀ k ∈ select.toList.map NodeKind.select, ∀ p ∈ k.leaves, p.IsWritten fill s apart) :
    Reads fill s (selectHeadParts select)
      (∀ k ∈ select.toList.map NodeKind.select, k.StaysApart apart) False := by
  match select with
  | none | some [] =>
    have hall : IsAtom (Scanner.marks "SELECT * FROM") := by decide
    exact (Reads.text hall).congr (by simp [NodeKind.StaysApart, NodeKind.expressions]) .rfl
  | some (e :: rest) =>
    have hitems : ∀ item ∈ (e :: rest).zipIdx,
        Follows fill s (selectItemParts item) (item.1.StaysApart apart) := by
      intro item hitem
      refine follows_selectItemParts fun p hp => h _ (List.mem_singleton_self _) p ?_
      exact Expr.mem_leavesOf_iff.mpr ⟨item.1, List.fst_mem_of_mem_zipIdx hitem, hp⟩
    refine ((Follows.separated hitems).enclosed "SELECT" "FROM" (by decide)
      (by decide)).congr ?_ .rfl
    have hzip : (∀ item ∈ (e :: rest).zipIdx, item.1.StaysApart apart) ↔
        ∀ x ∈ (e :: rest).zipIdx.map Prod.fst, x.StaysApart apart := List.forall_mem_map.symm
    rw [hzip, List.zipIdx_map_fst]
    simp [NodeKind.StaysApart, NodeKind.expressions]

section Optional

variable {α : Type} {kind : α → NodeKind} {parts : α → List Part} {keyword : String}

theorem follows_optionalParts (hkeyword : IsAtom (Scanner.marks keyword))
    (hparts : ∀ y, (∀ p ∈ (kind y).leaves, p.IsWritten fill s apart) →
      Follows fill s (parts y) ((kind y).StaysApart apart)) {x : Option α}
    (h : ∀ k ∈ x.toList.map kind, ∀ p ∈ k.leaves, p.IsWritten fill s apart) :
    Follows fill s (optionalParts keyword parts x)
      (∀ k ∈ x.toList.map kind, k.StaysApart apart) := by
  cases x with
  | none => exact Follows.nil.congr (by simp)
  | some y =>
    have hy := hparts y (h _ (List.mem_singleton_self _))
    exact (hy.text_cons hkeyword).follows.congr (by simp)

end Optional

theorem follows_joinParts {j : JoinKind × Table × Expr}
    (h : ∀ p ∈ (NodeKind.join j.1 j.2.1 j.2.2).leaves, p.IsWritten fill s apart) :
    Follows fill s (joinParts j) ((NodeKind.join j.1 j.2.1 j.2.2).StaysApart apart) := by
  have hjoin : IsAtom (Scanner.marks (joinText j.1)) := by cases j.1 <;> decide
  have hon : IsAtom (Scanner.marks "ON") := by decide
  obtain ⟨htable, hleaves⟩ := List.forall_mem_cons.mp h
  have hneat : Part.IsNeat fill s (.table j.2.1) := htable
  have hexpr := ((j.2.2.isRead hleaves).follows.text_cons hon).follows
  exact ((hneat.reads.follows.append hexpr).text_cons hjoin).follows.congr
    (by simp [NodeKind.StaysApart, NodeKind.expressions])

theorem follows_orderItemsParts (items : List OrderItem)
    (h : ∀ p ∈ (NodeKind.orderBy items).leaves, p.IsWritten fill s apart) :
    Follows fill s (orderItemsParts items) ((NodeKind.orderBy items).StaysApart apart) := by
  have hitems : ∀ item ∈ items,
      Follows fill s (orderItemParts item) (item.expr.StaysApart apart) := by
    intro item hitem
    have horder : IsAtom (Scanner.marks (if item.isDescending then "DESC" else "ASC")) := by
      cases item.isDescending <;> decide
    refine ((item.expr.isRead fun p hp => h p ?_).append_text horder).follows
    exact Expr.mem_leavesOf_iff.mpr ⟨_, List.mem_map_of_mem hitem, hp⟩
  exact (Follows.separated hitems).congr (by simp [NodeKind.StaysApart, NodeKind.expressions])

theorem follows_filterParts (e : Expr)
    (h : ∀ p ∈ (NodeKind.filter e).leaves, p.IsWritten fill s apart) :
    Follows fill s e.parts ((NodeKind.filter e).StaysApart apart) := by
  rw [NodeKind.leaves_filter] at h
  exact (e.isRead h).follows.congr (by simp [NodeKind.StaysApart, NodeKind.expressions])

theorem follows_limitParts (e : Expr)
    (h : ∀ p ∈ (NodeKind.limit e).leaves, p.IsWritten fill s apart) :
    Follows fill s e.parts ((NodeKind.limit e).StaysApart apart) := by
  rw [NodeKind.leaves_limit] at h
  exact (e.isRead h).follows.congr (by simp [NodeKind.StaysApart, NodeKind.expressions])

theorem follows_groupByParts (keys : List Expr)
    (h : ∀ p ∈ (NodeKind.groupBy keys).leaves, p.IsWritten fill s apart) :
    Follows fill s (exprsParts keys) ((NodeKind.groupBy keys).StaysApart apart) :=
  follows_exprsParts h

/-- A query is written with its expressions apart from its keywords and names. -/
theorem reads_selectParts {table : Table} {c : Clauses}
    (h : ∀ k ∈ c.kinds table, ∀ p ∈ k.leaves, p.IsWritten fill s apart) :
    Reads fill s (selectParts table c) (∀ k ∈ c.kinds table, k.StaysApart apart) False := by
  simp only [Clauses.kinds, List.forall_mem_append] at h ⊢
  obtain ⟨⟨⟨⟨⟨⟨hselect, htable⟩, hjoins⟩, hfilter⟩, hgroupBy⟩, horderBy⟩, hlimit⟩ := h
  have hfrom : Follows fill s [.table table]
      (∀ k ∈ [NodeKind.source table], k.StaysApart apart) := by
    have hneat : Part.IsNeat fill s (.table table) :=
      htable _ (List.mem_singleton_self _) _ (List.mem_singleton_self _)
    exact hneat.reads.follows.congr (by simp [NodeKind.StaysApart, NodeKind.expressions])
  have hjoin : Follows fill s (c.joins.map joinParts).flatten
      (∀ k ∈ c.joins.map fun j => NodeKind.join j.1 j.2.1 j.2.2, k.StaysApart apart) :=
    (Follows.flatten fun j hj => follows_joinParts (hjoins _ (List.mem_map_of_mem hj))).congr
      List.forall_mem_map.symm
  have hwhere : IsAtom (Scanner.marks "WHERE") := by decide
  have hgroup : IsAtom (Scanner.marks "GROUP BY") := by decide
  have horder : IsAtom (Scanner.marks "ORDER BY") := by decide
  have hmost : IsAtom (Scanner.marks "LIMIT") := by decide
  exact ((((((reads_selectHeadParts hselect).append hfrom).append hjoin).append
    (follows_optionalParts hwhere follows_filterParts hfilter)).append
    (follows_optionalParts hgroup follows_groupByParts hgroupBy)).append
    (follows_optionalParts horder follows_orderItemsParts horderBy)).append
    (follows_optionalParts hmost follows_limitParts hlimit)

theorem reads_insertHeadParts {target : InsertTarget}
    (h : ∀ p ∈ (NodeKind.insert target).leaves, p.IsWritten fill s apart) :
    Reads fill s (insertHeadParts target) True False := by
  simp only [NodeKind.leaves, List.cons_append, List.forall_mem_cons, List.forall_mem_append,
    List.forall_mem_map] at h
  obtain ⟨htable, hcolumns, -⟩ := h
  have hinto : IsAtom (Scanner.marks "INSERT INTO") := by decide
  have hopen : IsAtom (Scanner.marks "(") := by decide
  have hclose : IsAtom (Scanner.marks ")") := by decide
  have hname : Part.IsNeat fill s (.text target.table.name) := htable
  have hlist : Follows fill s (Part.separated (target.columns.map fun c => [.text c.name]))
      (∀ c ∈ target.columns, True) :=
    Follows.separated fun c hc => Part.IsNeat.reads (hcolumns c hc) |>.follows
  have hhead := (hname.reads.append_text hopen).follows.text_cons hinto
  exact ((hhead.append hlist).append_text hclose).congr (by simp) .rfl

theorem follows_insertGuardParts {target : InsertTarget}
    (h : ∀ p ∈ (NodeKind.insert target).leaves, p.IsWritten fill s apart) :
    Follows fill s (insertGuardParts target target.guard)
      ((NodeKind.insert target).StaysApart apart) := by
  simp only [NodeKind.leaves, List.cons_append, List.forall_mem_cons, List.forall_mem_append]
    at h
  obtain ⟨-, -, htable, hguard⟩ := h
  rw [NodeKind.StaysApart, NodeKind.expressions]
  cases hcondition : target.guard with
  | none => exact Follows.nil.congr (by simp)
  | some condition =>
    have hwhere : IsAtom (Scanner.marks "WHERE") := by decide
    have hneat : Part.IsNeat fill s (.table target.table) := htable
    have hread := condition.isRead fun p hp => hguard p
      (Expr.mem_leavesOf_iff.mpr ⟨condition, by simp [hcondition], hp⟩)
    have hinside := hneat.reads.append (hread.follows.text_cons hwhere).follows
    exact (hinside.follows.enclosed "WHERE NOT EXISTS(SELECT * FROM" ")" (by decide)
      (by decide)).follows.congr (by simp)

theorem reads_insertValuesParts {target : InsertTarget} {items : List Expr}
    (h : ∀ p ∈ (NodeKind.insert target).leaves, p.IsWritten fill s apart)
    (hitems : ∀ p ∈ (NodeKind.values items).leaves, p.IsWritten fill s apart) :
    Reads fill s (insertValuesParts target items)
      ((NodeKind.values items).StaysApart apart ∧ (NodeKind.insert target).StaysApart apart)
      False := by
  have hselect : IsAtom (Scanner.marks "SELECT") := by decide
  have hvalues : Follows fill s (exprsParts items) ((NodeKind.values items).StaysApart apart) :=
    follows_exprsParts hitems
  exact (hvalues.text_cons hselect).append (follows_insertGuardParts h)

end Query

namespace Arena

variable {a : Arena}

/-- No operator takes in a sign, neither in the expressions nor in the queries that they mention. -/
inductive SignsApart (a : Arena) : List Expr → Prop
  | intro {es : List Expr} (signs : Expr.keepSignsApart es = true)
      (queries : ∀ g ∈ Expr.subqueriesOf es, SignsApart a (a.clauseExprs g)) : SignsApart a es

/-- The expressions of a list of values and of the guard, or those of an inserted query. -/
def insertExprs (a : Arena) (target : InsertTarget) (child : NodeId) : List Expr :=
  match a.kind? child with
  | some (.values items) => items ++ target.guard.toList
  | _ => a.clauseExprs child

/-- The expressions of a statement, without those of the queries that they mention. -/
def statementExprs (a : Arena) (id : NodeId) : List Expr :=
  match a.kind? id, a.childrenOf id with
  | some (.insert target), child :: _ => a.insertExprs target child
  | _, _ => a.clauseExprs id

theorem signsApart_iff {es : List Expr} :
    a.SignsApart es ↔ ∀ e ∈ es, e.StaysApart fun g => a.SignsApart (a.clauseExprs g) := by
  rw [Expr.forall_staysApart_iff]
  exact ⟨fun h => by cases h; exact ⟨‹_›, ‹_›⟩, fun h => .intro h.1 h.2⟩

/-- Whatever is not a query itself is written as tokens that do not meet others with operator
characters. -/
def HasNeatLeaves (a : Arena) (fill : CodeId → Content) : Prop :=
  ∀ p ∈ a.leaves, (∀ g, p ≠ .subquery g) → ∀ depth, p.IsNeat fill (a.surroundings depth)

theorem IsForest.reads_sourceParts (h : a.IsForest)
    (hleaves : ∀ p ∈ a.leaves, p.IsWritten fill s apart) (f : NodeId) :
    Reads fill s (a.sourceParts f) (∀ e ∈ a.clauseExprs f, e.StaysApart apart) False := by
  unfold sourceParts
  cases hn : a.node? f with
  | none => exact .refusal
  | some n =>
    simp only
    cases hk : n.kind with
    | source table =>
      have hf : a.kind? f = some (.source table) := (kind?_of_node? hn).trans (congrArg some hk)
      simp only
      cases hc : Clauses.ofKinds (a.kinds n.children) with
      | error e => exact .refusal
      | ok clauses =>
        have hdistinct := h.areDistinct_kinds hf
        rw [childrenOf_of_node? hn] at hdistinct
        have hkinds : ∀ k, k ∈ clauses.kinds table ↔ k = .source table ∨ k ∈ a.kinds n.children :=
          fun k => Clauses.mem_kinds_ofKinds_iff hc hdistinct
        refine (Query.reads_selectParts fun k hk p hp => hleaves p ?_).congr ?_ .rfl
        · rcases (hkinds k).mp hk with rfl | hk
          · exact leaves_subset hf hp
          · obtain ⟨_, -, hkind⟩ := mem_kinds_iff.mp hk
            exact leaves_subset hkind hp
        · simp only [hkinds, forall_eq_or_imp, clauseExprs, childrenOf_of_node? hn,
            NodeKind.StaysApart, List.mem_flatMap]
          grind [NodeKind.expressions]
    | _ => exact .refusal

theorem IsForest.isWritten_of_mem_leaves (h : a.IsForest) (hneat : a.HasNeatLeaves fill)
    (depth : Nat) : ∀ p ∈ a.leaves,
      p.IsWritten fill (a.surroundings depth) fun g => a.SignsApart (a.clauseExprs g) := by
  have hquery : ∀ depth g, (∀ {qs}, a.selectPieces depth g = .ok qs →
      Content.Flow (qs.map (Piece.content fill)) ∧
        (Content.Quiet (qs.map (Piece.content fill)) ↔ a.SignsApart (a.clauseExprs g))) →
      Follows fill (a.surroundings depth) [.subquery g] (a.SignsApart (a.clauseExprs g)) := by
    intro depth g hselect qs hqs
    simp only [Part.piecesOf, Part.pieces, surroundings, bind_eq_ok, pure_eq_ok] at hqs
    obtain ⟨xs, ⟨_, -, hxs⟩, _, hnil, rfl⟩ := hqs
    cases hnil
    rw [List.append_nil]
    exact hselect hxs
  induction depth with
  | zero =>
    intro p hp
    cases p with
    | subquery g => exact hquery 0 g fun hqs => by cases hqs
    | _ => exact hneat _ hp (by simp) 0
  | succ depth ih =>
    intro p hp
    cases p with
    | subquery g =>
      refine hquery (depth + 1) g fun hqs => ?_
      rw [selectPieces_succ] at hqs
      exact ((h.reads_sourceParts ih g).follows.congr signsApart_iff.symm) hqs
    | _ => exact hneat _ hp (by simp) _

theorem IsForest.reads_insertSourceParts (h : a.IsForest)
    (hleaves : ∀ p ∈ a.leaves, p.IsWritten fill s fun g => a.SignsApart (a.clauseExprs g))
    {id child : NodeId} {target : InsertTarget} {source : Node}
    (hid : a.kind? id = some (.insert target)) (hchild : a.node? child = some source) :
    Reads fill s (a.insertSourceParts target child source)
      (a.SignsApart (a.insertExprs target child)) False := by
  have htarget := fun p hp => hleaves p (leaves_subset hid hp)
  have hsource := fun p hp => hleaves p (leaves_subset (kind?_of_node? hchild) hp)
  unfold insertSourceParts insertExprs
  rw [kind?_of_node? hchild]
  cases hk : source.kind with
  | values items =>
    rw [hk] at hsource
    refine ((Query.reads_insertHeadParts htarget).append
      (Query.reads_insertValuesParts htarget hsource).follows).congr ?_ .rfl
    rw [signsApart_iff, List.forall_mem_append, true_and]
    rfl
  | source table =>
    cases target.guard with
    | some condition => exact .refusal
    | none =>
      simp only
      cases checkSelectLists target (a.kinds source.children) with
      | error e => exact .refusal
      | ok =>
        refine ((Query.reads_insertHeadParts htarget).append
          (h.reads_sourceParts hleaves child).follows).congr ?_ .rfl
        rw [signsApart_iff, true_and]
  | _ => exact .refusal

/-- In a statement no sign is taken in exactly if this is so in its expressions and in the queries
that they mention. -/
theorem IsForest.reads_statementParts (h : a.IsForest) (hneat : a.HasNeatLeaves fill) (id : NodeId)
    (depth : Nat) : Reads fill (a.surroundings depth) (a.statementParts id)
      (a.SignsApart (a.statementExprs id)) False := by
  have hleaves := h.isWritten_of_mem_leaves hneat depth
  unfold statementParts statementExprs
  cases a.ownerOf id with
  | error e => exact .refusal
  | ok owner =>
    cases hn : a.node? id with
    | none => exact .refusal
    | some n =>
      rw [kind?_of_node? hn, childrenOf_of_node? hn]
      simp only
      cases hk : n.kind with
      | source table => exact (h.reads_sourceParts hleaves id).congr signsApart_iff.symm .rfl
      | insert target =>
        have hid : a.kind? id = some (.insert target) :=
          (kind?_of_node? hn).trans (congrArg some hk)
        simp only
        unfold insertParts
        cases n.children with
        | nil => exact .refusal
        | cons child rest =>
          simp only
          cases hchild : a.node? child with
          | none => exact .refusal
          | some source => exact h.reads_insertSourceParts hleaves hid hchild
      | _ => exact .refusal

end Arena

end DeclarativeSql
