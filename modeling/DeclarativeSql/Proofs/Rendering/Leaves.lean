import DeclarativeSql.Proofs.Parameters.Glyph
import DeclarativeSql.Proofs.Query.Forest
import DeclarativeSql.Proofs.Rendering.Statement

/-!
# Leaves

Where the parts of a statement come from. Everything but the wording of the clauses and operators
stands for a leaf of some expression, or for a table or a column that a node names. The other way
round no leaf is left out, unless the statement is refused.
-/
namespace DeclarativeSql

namespace ConstructionError

def isEndlessSubquery : ConstructionError → Bool
  | endlessSubquery _ => true
  | _ => false

/-- An expression, or a call, has no text. -/
def IsUnsupported : ConstructionError → Prop
  | unsupportedExpression _ | unsupportedCall _ => True
  | _ => False

theorem IsUnsupported.isEndlessSubquery_eq_false {e : ConstructionError} (h : e.IsUnsupported) :
    e.isEndlessSubquery = false := by
  cases e <;> first | rfl | cases h

end ConstructionError

namespace Part

/-- What is the same in all statements: fixed tokens, and the refusals of what has no text. -/
def IsWording : Part → Prop
  | text token => IsPlainText token
  | refusal e => e.isEndlessSubquery = false
  | _ => False

/-- What stands for something of the query, and is no refusal. -/
def IsLeaf : Part → Prop
  | refusal _ => False
  | _ => True

/-- Every part is one of the leaves, or wording. -/
def ComeFrom (leaves ps : List Part) : Prop := ∀ p ∈ ps, p ∈ leaves ∨ p.IsWording

def Refused (ps : List Part) : Prop := ∃ e, refusal e ∈ ps

/-- No leaf is left out, unless something is refused. -/
def Show (leaves ps : List Part) : Prop := ∀ p ∈ leaves, p ∈ ps ∨ Refused ps

section Lists

variable {leaves leaves' ps qs : List Part} {token : String}

theorem ComeFrom.mono (h : ComeFrom leaves ps) (hsub : leaves ⊆ leaves') : ComeFrom leaves' ps :=
  fun p hp => (h p hp).imp_left fun hl => hsub hl

theorem ComeFrom.append (h : ComeFrom leaves ps) (h' : ComeFrom leaves' qs) :
    ComeFrom (leaves ++ leaves') (ps ++ qs) := by
  intro p hp
  rcases List.mem_append.mp hp with hp | hp
  · exact (h p hp).imp_left (List.mem_append_left _)
  · exact (h' p hp).imp_left (List.mem_append_right _)

theorem ComeFrom.text (h : IsPlainText token) : ComeFrom [] [.text token] := by
  intro p hp
  rw [List.mem_singleton.mp hp]
  exact .inr h

theorem ComeFrom.refusal {e : ConstructionError} (h : e.isEndlessSubquery = false) :
    ComeFrom leaves [.refusal e] := by
  intro p hp
  rw [List.mem_singleton.mp hp]
  exact .inr h

theorem ComeFrom.leaf {p : Part} : ComeFrom [p] [p] := fun _ hp => .inl hp

theorem ComeFrom.enclosed (h : ComeFrom leaves ps) (before after : String)
    (hbefore : IsPlainText before) (hafter : IsPlainText after) :
    ComeFrom leaves (.text before :: ps ++ [Part.text after]) := by
  simpa using ((ComeFrom.text hbefore).append h).append (.text hafter)

theorem ComeFrom.separated {α : Type} {xs : List α} {l f : α → List Part}
    (h : ∀ x ∈ xs, ComeFrom (l x) (f x)) :
    ComeFrom (xs.flatMap l) (Part.separated (xs.map f)) := by
  induction xs with
  | nil => exact fun _ hp => absurd hp List.not_mem_nil
  | cons x xs ih =>
    have hx := h x List.mem_cons_self
    have hrest := ih fun y hy => h y (List.mem_cons_of_mem _ hy)
    cases xs with
    | nil => simpa [Part.separated] using hx
    | cons y xs =>
      exact hx.append ((ComeFrom.text (by decide)).append hrest)

theorem Refused.mono (h : Refused ps) (hsub : ps ⊆ qs) : Refused qs :=
  h.imp fun _ he => hsub he

theorem Show.mono (h : Show leaves ps) (hsub : ps ⊆ qs) : Show leaves qs :=
  fun p hp => (h p hp).imp (fun hp => hsub hp) (·.mono hsub)

theorem Show.append (h : Show leaves ps) (h' : Show leaves' qs) :
    Show (leaves ++ leaves') (ps ++ qs) := by
  intro p hp
  rcases List.mem_append.mp hp with hp | hp
  · exact h.mono (List.subset_append_left _ _) p hp
  · exact h'.mono (List.subset_append_right _ _) p hp

theorem Show.nil : Show [] ps := fun _ hp => absurd hp List.not_mem_nil

theorem Show.leaf {p : Part} : Show [p] [p] := fun _ hp => .inl hp

theorem Show.refusal {e : ConstructionError} : Show leaves [.refusal e] :=
  fun _ _ => .inr ⟨e, List.mem_singleton_self _⟩

theorem subset_separated {pss : List (List Part)} (h : ps ∈ pss) : ps ⊆ Part.separated pss := by
  induction pss with
  | nil => cases h
  | cons qs pss ih =>
    cases pss with
    | nil => simp [List.mem_singleton.mp h, Part.separated]
    | cons rs pss =>
      rcases List.mem_cons.mp h with rfl | h
      · exact List.subset_append_left _ _
      · exact List.subset_append_of_subset_right _ (List.subset_cons_of_subset _ (ih h))

theorem Show.separated {α : Type} {xs : List α} {l f : α → List Part}
    (h : ∀ x ∈ xs, Show (l x) (f x)) : Show (xs.flatMap l) (Part.separated (xs.map f)) := by
  intro p hp
  obtain ⟨x, hx, hp⟩ := List.mem_flatMap.mp hp
  exact (h x hx).mono (subset_separated (List.mem_map_of_mem hx)) p hp

end Lists

end Part

namespace Expr

mutual

/-- The parts that the leaves of an expression stand for. -/
def leaves : Expr → List Part
  | literal .null => []
  | literal (.source p) => [.source p]
  | column c => [.column c]
  | binary _ left right => left.leaves ++ right.leaves
  | unary _ e => e.leaves
  | call _ args => leavesOf args
  | array items => leavesOf items
  | subquery node => [.subquery node]
  | embedded command => [.command command]
  | delayed code => [.code code]

def leavesOf : List Expr → List Part
  | [] => []
  | e :: rest => e.leaves ++ leavesOf rest

end

theorem leavesOf_eq_flatMap (es : List Expr) : leavesOf es = es.flatMap leaves := by
  induction es with
  | nil => rfl
  | cons e es ih => rw [leavesOf, ih, List.flatMap_cons]

theorem mem_subqueriesOf_iff {es : List Expr} {g : NodeId} :
    g ∈ subqueriesOf es ↔ ∃ e ∈ es, g ∈ e.subqueries := by
  induction es with
  | nil => simp [subqueriesOf]
  | cons e es ih => simp [subqueriesOf, ih]

theorem mem_leavesOf_iff {es : List Expr} {p : Part} :
    p ∈ leavesOf es ↔ ∃ e ∈ es, p ∈ e.leaves := by
  rw [leavesOf_eq_flatMap, List.mem_flatMap]

theorem subquery_mem_leaves_iff (e : Expr) (g : NodeId) :
    .subquery g ∈ e.leaves ↔ g ∈ e.subqueries := by
  induction e with
  | literal l => cases l <;> simp [leaves, subqueries]
  | binary op left right hl hr => simp [leaves, subqueries, hl, hr]
  | unary op e he => simpa [leaves, subqueries] using he
  | call name args hargs =>
    rw [leaves, subqueries, mem_leavesOf_iff, mem_subqueriesOf_iff]
    exact exists_congr fun e => and_congr_right fun he => hargs e he
  | array items hitems =>
    rw [leaves, subqueries, mem_leavesOf_iff, mem_subqueriesOf_iff]
    exact exists_congr fun e => and_congr_right fun he => hitems e he
  | _ => simp [leaves, subqueries]

theorem isLeaf_of_mem_leaves (e : Expr) : ∀ p ∈ e.leaves, p.IsLeaf := by
  induction e with
  | literal l => cases l <;> simp [leaves, Part.IsLeaf]
  | binary op left right hl hr =>
    intro p hp
    exact (List.mem_append.mp hp).elim (hl p) (hr p)
  | unary op e he => exact he
  | call name args hargs =>
    intro p hp
    obtain ⟨e, he, hp⟩ := mem_leavesOf_iff.mp hp
    exact hargs e he p hp
  | array items hitems =>
    intro p hp
    obtain ⟨e, he, hp⟩ := mem_leavesOf_iff.mp hp
    exact hitems e he p hp
  | _ => simp [leaves, Part.IsLeaf]

theorem isPlainText_operator (op : BinaryOp) : IsPlainText op.text := by
  cases op <;> decide

theorem isPlainText_nullTestText (isNull : Bool) : IsPlainText (nullTestText isNull) := by
  cases isNull <;> decide

section Forall

variable {P : Part → Prop} (htext : ∀ token, IsPlainText token → P (.text token))

include htext

theorem forall_mem_enclosed {ps : List Part} {before after : String} (hbefore : IsPlainText before)
    (hafter : IsPlainText after) (h : ∀ p ∈ ps, P p) :
    ∀ p ∈ .text before :: ps ++ [Part.text after], P p := by
  rw [List.cons_append, List.forall_mem_cons, List.forall_mem_append, List.forall_mem_singleton]
  exact ⟨htext before hbefore, h, htext after hafter⟩

theorem forall_mem_operand {ps : List Part} (place : Slot) (e : Expr) (h : ∀ p ∈ ps, P p) :
    ∀ p ∈ groupedParts place e ps, P p :=
  (forall_mem_groupedParts (htext _ (by decide)) (htext _ (by decide))).mpr h

theorem forall_mem_operation {left right : Expr} (place place' : Slot) {symbol : String}
    (hsymbol : IsPlainText symbol) (hl : ∀ p ∈ left.parts, P p) (hr : ∀ p ∈ right.parts, P p) :
    ∀ p ∈ groupedParts place left left.parts ++
      .text symbol :: groupedParts place' right right.parts, P p := by
  rw [List.forall_mem_append, List.forall_mem_cons]
  exact ⟨forall_mem_operand htext place left hl, htext symbol hsymbol,
    forall_mem_operand htext place' right hr⟩

theorem forall_mem_tested {e : Expr} (place : Slot) (isNull : Bool) (h : ∀ p ∈ e.parts, P p) :
    ∀ p ∈ groupedParts place e e.parts ++ [Part.text (nullTestText isNull)], P p := by
  rw [List.forall_mem_append, List.forall_mem_singleton]
  exact ⟨forall_mem_operand htext place e h, htext _ (isPlainText_nullTestText isNull)⟩

theorem forall_mem_listed {items : List Expr} (h : ∀ e ∈ items, ∀ p ∈ e.parts, P p) :
    ∀ p ∈ Part.separated (partsOf items), P p := by
  rw [partsOf_eq_map, forall_mem_separated (htext _ (by decide)), List.forall_mem_map]
  exact h

theorem forall_mem_bracketed {leaf : Part} (h : P leaf) :
    ∀ p ∈ [.text "(", leaf, .text ")"], P p := by
  rw [List.forall_mem_cons, List.forall_mem_cons, List.forall_mem_singleton]
  exact ⟨htext _ (by decide), h, htext _ (by decide)⟩

variable (hrefusal : ∀ e : ConstructionError, e.IsUnsupported → P (.refusal e))

include hrefusal

theorem forall_mem_existsParts {keyword : String} (hkeyword : IsPlainText keyword)
    {args : List Expr} (hleaves : ∀ p ∈ leavesOf args, P p) :
    ∀ p ∈ existsParts keyword args, P p := by
  have htest : ∀ leaf, P leaf → ∀ p ∈ [.text keyword, .text "(", leaf, .text ")"], P p :=
    fun leaf hleaf =>
      List.forall_mem_cons.mpr ⟨htext keyword hkeyword, forall_mem_bracketed htext hleaf⟩
  unfold existsParts
  split
  next node => exact htest _ (hleaves _ List.mem_cons_self)
  next command => exact htest _ (hleaves _ List.mem_cons_self)
  all_goals exact List.forall_mem_singleton.mpr (hrefusal _ trivial)

theorem forall_mem_call {args : List Expr} (h : ∀ e ∈ args, ∀ p ∈ e.parts, P p)
    (hleaves : ∀ p ∈ leavesOf args, P p) (name : CallName) :
    ∀ p ∈ (call name args).parts, P p := by
  have hunknown : ∀ p ∈ [Part.refusal (unknownCall name args)], P p :=
    List.forall_mem_singleton.mpr (hrefusal _ trivial)
  cases name with
  | like =>
    rcases args with _ | ⟨value, _ | ⟨pattern, _ | _⟩⟩
    · exact hunknown
    · exact hunknown
    · exact forall_mem_operation htext _ _ (by decide) (h value (by simp)) (h pattern (by simp))
    · exact hunknown
  | exists_ => exact forall_mem_existsParts htext hrefusal (by decide) hleaves
  | notExists => exact forall_mem_existsParts htext hrefusal (by decide) hleaves
  | count =>
    rcases args with _ | ⟨e, _ | _⟩
    · exact List.forall_mem_singleton.mpr (htext _ (by decide))
    · exact forall_mem_enclosed htext (by decide) (by decide) (h e (by simp))
    · exact hunknown
  | coalesce =>
    cases args with
    | nil => exact hunknown
    | cons e rest =>
      exact forall_mem_enclosed htext (by decide) (by decide) (forall_mem_listed htext h)
  | any =>
    rcases args with _ | ⟨e, _ | _⟩
    · exact hunknown
    · exact forall_mem_enclosed htext (by decide) (by decide) (h e (by simp))
    · exact hunknown
  | other name => exact hunknown

/-- What holds of fixed tokens, of the refusals of what has no text and of the leaves holds of all
parts. -/
theorem forall_mem_parts {e : Expr} (hleaves : ∀ p ∈ e.leaves, P p) : ∀ p ∈ e.parts, P p := by
  induction e with
  | literal l =>
    cases l with
    | null => exact List.forall_mem_singleton.mpr (htext _ (by decide))
    | source p => exact hleaves
  | column c => exact hleaves
  | binary op left right hl hr =>
    obtain ⟨hleft, hright⟩ := List.forall_mem_append.mp hleaves
    cases hn : nullTest? op left right with
    | none =>
      simp only [parts, hn]
      exact forall_mem_operation htext _ _ (isPlainText_operator op) (hl hleft) (hr hright)
    | some side =>
      cases side
      · simp only [parts, hn]
        exact forall_mem_tested htext _ _ (hl hleft)
      · simp only [parts, hn]
        exact forall_mem_tested htext _ _ (hr hright)
  | unary op e he =>
    cases op with
    | not =>
      exact List.forall_mem_cons.mpr
        ⟨htext _ (by decide), forall_mem_operand htext _ e (he hleaves)⟩
    | negate =>
      exact List.forall_mem_cons.mpr
        ⟨htext _ (by decide), forall_mem_operand htext _ e (he hleaves)⟩
    | hasValue => exact forall_mem_tested htext .nullTest false (he hleaves)
  | call name args hargs =>
    exact forall_mem_call htext hrefusal
      (fun e he => hargs e he fun p hp => hleaves p (mem_leavesOf_iff.mpr ⟨e, he, hp⟩)) hleaves name
  | array items hitems =>
    exact forall_mem_enclosed htext (by decide) (by decide) (forall_mem_listed htext fun e he =>
      hitems e he fun p hp => hleaves p (mem_leavesOf_iff.mpr ⟨e, he, hp⟩))
  | subquery _ => exact List.forall_mem_singleton.mpr (hrefusal _ trivial)
  | embedded command => exact forall_mem_bracketed htext (List.forall_mem_singleton.mp hleaves)
  | delayed _ => exact hleaves

end Forall

theorem comeFrom_parts (e : Expr) : Part.ComeFrom e.leaves e.parts :=
  forall_mem_parts (fun _ h => .inr h) (fun _ h => .inr h.isEndlessSubquery_eq_false)
    fun _ h => .inl h

theorem subset_groupedParts {ps : List Part} (place : Slot) (e : Expr) :
    ps ⊆ groupedParts place e ps := by
  unfold groupedParts
  split <;> simp

theorem show_existsParts (keyword : String) (args : List Expr) :
    Part.Show (leavesOf args) (existsParts keyword args) := by
  unfold existsParts
  split
  next node => exact Part.Show.leaf.mono (by simp)
  next command => exact Part.Show.leaf.mono (by simp)
  all_goals exact .refusal

theorem leaves_of_nullTest? {op : BinaryOp} {left right : Expr} {side : NullTest}
    (h : nullTest? op left right = some side) :
    left.leaves ++ right.leaves =
      match side with
      | .left => left.leaves
      | .right => right.leaves := by
  obtain ⟨-, hnull⟩ := of_nullTest? h
  cases side with
  | left =>
    obtain rfl : right = null := hnull
    exact List.append_nil _
  | right =>
    obtain rfl : left = null := hnull
    rfl

theorem show_separated {es : List Expr} (h : ∀ e ∈ es, Part.Show e.leaves e.parts) :
    Part.Show (leavesOf es) (Part.separated (partsOf es)) := by
  rw [leavesOf_eq_flatMap, partsOf_eq_map]
  exact .separated h

theorem show_groupedParts {e : Expr} (place : Slot) (h : Part.Show e.leaves e.parts) :
    Part.Show e.leaves (groupedParts place e e.parts) := h.mono (subset_groupedParts place e)

theorem show_operation {left right : Expr} (place place' : Slot) (symbol : String)
    (hl : Part.Show left.leaves left.parts) (hr : Part.Show right.leaves right.parts) :
    Part.Show (left.leaves ++ right.leaves)
      (groupedParts place left left.parts ++
        .text symbol :: groupedParts place' right right.parts) :=
  (show_groupedParts place hl).append
    ((show_groupedParts place' hr).mono (List.subset_cons_self _ _))

theorem show_call {args : List Expr} (h : ∀ e ∈ args, Part.Show e.leaves e.parts)
    (name : CallName) : Part.Show (leavesOf args) (call name args).parts := by
  cases name with
  | like =>
    rcases args with _ | ⟨value, _ | ⟨pattern, _ | _⟩⟩
    · exact .refusal
    · exact .refusal
    · simpa [leavesOf, parts] using show_operation .like (.closed .like) "LIKE"
        (h value (by simp)) (h pattern (by simp))
    · exact .refusal
  | exists_ => exact show_existsParts _ args
  | notExists => exact show_existsParts _ args
  | count =>
    rcases args with _ | ⟨e, _ | _⟩
    · exact .nil
    · rw [leavesOf, leavesOf, List.append_nil]
      exact (h e (by simp)).mono (by simp [parts])
    · exact .refusal
  | coalesce =>
    cases args with
    | nil => exact .refusal
    | cons e rest => exact (show_separated h).mono (by simp [parts, partsOf])
  | any =>
    rcases args with _ | ⟨e, _ | _⟩
    · exact .refusal
    · rw [leavesOf, leavesOf, List.append_nil]
      exact (h e (by simp)).mono (by simp [parts])
    · exact .refusal
  | other name => exact .refusal

/-- An expression that is not refused shows all its leaves. -/
theorem show_parts (e : Expr) : Part.Show e.leaves e.parts := by
  induction e with
  | literal l =>
    cases l with
    | null => exact .nil
    | source p => exact .leaf
  | column c => exact .leaf
  | binary op left right hl hr =>
    cases hn : nullTest? op left right with
    | none =>
      simp only [leaves, parts, hn]
      exact show_operation _ _ _ hl hr
    | some side =>
      rw [leaves, leaves_of_nullTest? hn]
      cases side
      · simp only [parts, hn]
        exact (show_groupedParts _ hl).mono (List.subset_append_left _ _)
      · simp only [parts, hn]
        exact (show_groupedParts _ hr).mono (List.subset_append_left _ _)
  | unary op e he =>
    cases op with
    | not => exact (show_groupedParts _ he).mono (List.subset_cons_self _ _)
    | negate => exact (show_groupedParts _ he).mono (List.subset_cons_self _ _)
    | hasValue => exact (show_groupedParts .nullTest he).mono (List.subset_append_left _ _)
  | call name args hargs => exact show_call hargs name
  | array items hitems => exact (show_separated hitems).mono (by simp [parts])
  | subquery _ => exact .refusal
  | embedded command => exact Part.Show.leaf.mono (by simp [parts])
  | delayed _ => exact .leaf

end Expr

end DeclarativeSql
