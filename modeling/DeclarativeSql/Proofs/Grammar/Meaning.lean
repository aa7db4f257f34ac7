import DeclarativeSql.Proofs.Grammar.Chain
import Mathlib.Algebra.Order.BigOperators.Group.List
import Mathlib.Algebra.Order.Ring.Nat
import Mathlib.Tactic.Linarith

/-!
# Meanings

A text is read in one way, and what it says can be compared with the expression it was written for.
The two agree under every interpretation exactly if no right operand without parentheses begins with
another operator.
-/
namespace DeclarativeSql

/-- What atoms and operators stand for. -/
structure Interpretation (V : Type) where
  atom : Expr → V
  binary : BinaryOp → V → V → V
  not : V → V
  negate : V → V
  nullTest : (isNull : Bool) → V → V
  like : (value pattern : V) → V
  array : List V → V

namespace Interpretation

/-- The operators that may be regrouped are associative. -/
def IsLawful {V : Type} (I : Interpretation V) : Prop :=
  ∀ op : BinaryOp, op.isAssociative = true →
    ∀ a b c, I.binary op (I.binary op a b) c = I.binary op a (I.binary op b c)

/-- Operators other than `op` that are no looser multiply, all others add. -/
def telling (op : BinaryOp) : Interpretation Nat where
  atom _ := 2
  binary child a b := if child ≠ op ∧ op.precedence ≤ child.precedence then a * b else a + b
  not a := a
  negate a := a
  nullTest _ a := a
  like a b := a + b
  array items := items.sum + 2

theorem isLawful_telling (op : BinaryOp) : (telling op).IsLawful := by
  intro child _ a b c
  simp only [telling]
  split
  · exact Nat.mul_assoc a b c
  · exact Nat.add_assoc a b c

end Interpretation

namespace Reading

variable {V : Type}

mutual

def eval (I : Interpretation V) : Reading → V
  | atom e => I.atom e
  | binary op left right => I.binary op (left.eval I) (right.eval I)
  | not t => I.not (t.eval I)
  | negate t => I.negate (t.eval I)
  | nullTest isNull t => I.nullTest isNull (t.eval I)
  | like value pattern => I.like (value.eval I) (pattern.eval I)
  | array items => I.array (evalAll I items)

def evalAll (I : Interpretation V) : List Reading → List V
  | [] => []
  | t :: rest => t.eval I :: evalAll I rest

end

theorem evalAll_eq_map (I : Interpretation V) (items : List Reading) :
    evalAll I items = items.map (eval I) := by
  induction items with
  | nil => rfl
  | cons t rest ih => rw [evalAll, ih, List.map_cons]

/-- The operators on the left edge, as far as no parentheses hide them. -/
def edge : Reading → List BinaryOp
  | binary op left _ => op :: (if left.joinsLeft op then left.edge else [])
  | _ => []

mutual

/-- No right operand without parentheses begins with another operator. -/
def IsAligned : Reading → Prop
  | atom _ => True
  | binary op left right =>
    left.IsAligned ∧ right.IsAligned ∧
      (right.joinsRight op = true → ∀ child ∈ right.edge, child = op)
  | not t | negate t | nullTest _ t => t.IsAligned
  | like value pattern => value.IsAligned ∧ pattern.IsAligned
  | array items => AllAligned items

def AllAligned : List Reading → Prop
  | [] => True
  | t :: rest => t.IsAligned ∧ AllAligned rest

end

theorem allAligned_iff {items : List Reading} : AllAligned items ↔ ∀ t ∈ items, t.IsAligned := by
  induction items with
  | nil => simp [AllAligned]
  | cons t rest ih => simp [AllAligned, ih]

theorem edge_subset_chain_ops {t : Reading} : ∀ child ∈ t.edge, child ∈ t.chain.ops := by
  induction t with
  | binary op left right hl _ =>
    intro child hc
    simp only [chain, Chain.ops_join, List.mem_append, List.mem_cons]
    rcases List.mem_cons.mp hc with rfl | hc
    · exact .inr (.inl rfl)
    · cases hj : left.joinsLeft op with
      | false => simp [hj] at hc
      | true =>
        rw [hj, if_pos rfl] at hc
        rw [if_pos rfl]
        exact .inl (hl child hc)
  | _ =>
    intro child hc
    exact absurd hc List.not_mem_nil

/-- The whole chain of an aligned reading is of the operators on its edge. -/
theorem IsAligned.chain_ops {t : Reading} (h : t.IsAligned) {op : BinaryOp}
    (hedge : ∀ child ∈ t.edge, child = op) : ∀ child ∈ t.chain.ops, child = op := by
  induction t with
  | binary top left right hl hr =>
    obtain ⟨hleft, hright, hjoin⟩ := h
    obtain rfl : top = op := hedge top (List.mem_cons_self ..)
    intro child hc
    simp only [chain, Chain.ops_join, List.mem_append, List.mem_cons] at hc
    rcases hc with hc | rfl | hc
    · cases hj : left.joinsLeft top with
      | false => simp [hj] at hc
      | true =>
        rw [hj, if_pos rfl] at hc
        refine hl hleft (fun child hc => hedge child ?_) child hc
        simp [edge, hj, hc]
    · rfl
    · cases hj : right.joinsRight top with
      | false => simp [hj] at hc
      | true =>
        rw [hj, if_pos rfl] at hc
        exact hr hright (hjoin hj) child hc
  | _ =>
    intro child hc
    exact absurd hc List.not_mem_nil

theorem regrouped_array (items : List Reading) :
    (array items).regrouped = array (items.map regrouped) := by
  rw [regrouped, chain, Chain.reading_single, regroupedAll_eq_map]

section Lawful

variable {I : Interpretation V}

theorem eval_join (hI : I.IsLawful) {op : BinaryOp} {s : Chain}
    (hs : ∀ child ∈ s.ops, child = op ∧ op.isAssociative = true) (r : Chain) :
    (r.join op s).reading.eval I = I.binary op (r.reading.eval I) (s.reading.eval I) := by
  induction s with
  | single t => rw [Chain.reading_join_single, eval, Chain.reading_single]
  | join s child t ih =>
    obtain ⟨rfl, hop⟩ := hs child (by simp)
    have ih := ih fun child hc => hs child (by simp [hc])
    rw [← Chain.join_join, Chain.reading_join_single, Chain.reading_join_single, eval, eval, ih]
    exact hI child hop _ _ _

theorem eval_regrouped (hI : I.IsLawful) {t : Reading} (h : t.IsAligned) :
    t.regrouped.eval I = t.eval I := by
  induction t with
  | atom e => rfl
  | binary op left right hl hr =>
    obtain ⟨hleft, hright, hjoin⟩ := h
    obtain ⟨r, s, heq, hr', hs', -, hops⟩ := exists_regrouped_binary op left right
    rw [eval, ← hl hleft, ← hr hright, ← hr', ← hs', heq]
    refine eval_join hI (fun child hc => ?_) r
    obtain ⟨hj, hc⟩ := (hops child).mp hc
    exact ⟨hright.chain_ops (hjoin hj) child hc, isAssociative_of_joinsRight hj⟩
  | not t ih => exact congrArg I.not (ih h)
  | negate t ih => exact congrArg I.negate (ih h)
  | nullTest isNull t ih => exact congrArg (I.nullTest isNull) (ih h)
  | like value pattern hv hp => exact congrArg₂ I.like (hv h.1) (hp h.2)
  | array items ih =>
    have h := allAligned_iff.mp h
    rw [regrouped_array, eval, eval, evalAll_eq_map, evalAll_eq_map, List.map_map]
    exact congrArg I.array (List.map_congr_left fun t ht => ih t ht (h t ht))

end Lawful

section Telling

open Interpretation

variable {op : BinaryOp}

theorem telling_lt {a a' b b' : Nat} (child : BinaryOp) (ha : a ≤ a') (hb : b ≤ b')
    (hlt : a < a' ∨ b < b') (ha0 : 2 ≤ a) (hb0 : 2 ≤ b) :
    (telling op).binary child a b < (telling op).binary child a' b' := by
  simp only [telling]
  split
  · rcases hlt with hlt | hlt
    · exact Nat.mul_lt_mul_of_lt_of_le hlt hb (by omega)
    · exact Nat.mul_lt_mul_of_le_of_lt ha hlt (by omega)
  · omega

theorem telling_le {a a' b b' : Nat} (child : BinaryOp) (ha : a ≤ a') (hb : b ≤ b') :
    (telling op).binary child a b ≤ (telling op).binary child a' b' := by
  simp only [telling]
  split
  · exact Nat.mul_le_mul ha hb
  · exact Nat.add_le_add ha hb

theorem two_le_telling {a b : Nat} (child : BinaryOp) (ha : 2 ≤ a) (hb : 2 ≤ b) :
    2 ≤ (telling op).binary child a b := by
  simp only [telling]
  split
  · exact Nat.le_trans ha (Nat.le_mul_of_pos_right a (by omega))
  · omega

theorem two_le_eval_telling (t : Reading) : 2 ≤ t.eval (telling op) := by
  induction t with
  | atom e => exact Nat.le_refl 2
  | binary child left right hl hr => exact two_le_telling child hl hr
  | not t ih => exact ih
  | negate t ih => exact ih
  | nullTest isNull t ih => exact ih
  | like value pattern hv hp => exact Nat.le_trans hv (Nat.le_add_right _ _)
  | array items ih => exact Nat.le_add_left 2 _

theorem eq_of_isAssociative {a b : BinaryOp} (ha : a.isAssociative = true)
    (hb : b.isAssociative = true) (hl : a.level = b.level) (hp : a.precedence = b.precedence) :
    a = b := by
  revert ha hb hl hp
  cases a <;> cases b <;> decide

theorem telling_regroup_le (hop : op.isAssociative = true) {child other : BinaryOp}
    (hc : child.isAssociative = true) (hl : other.level = child.level)
    (hp : child.precedence ≤ other.precedence) {a b x : Nat} (hx : 2 ≤ x) :
    (telling op).binary child a ((telling op).binary other b x) ≤
      (telling op).binary other ((telling op).binary child a b) x := by
  simp only [telling]
  split
  next hchild =>
    have hother : other ≠ op ∧ op.precedence ≤ other.precedence := by
      refine ⟨?_, Nat.le_trans hchild.2 hp⟩
      rintro rfl
      exact hchild.1 (eq_of_isAssociative hc hop hl.symm (Nat.le_antisymm hp hchild.2))
    rw [if_pos hother, if_pos hother, Nat.mul_assoc]
  next hchild =>
    split
    · rw [Nat.add_mul]
      exact Nat.add_le_add_right (Nat.le_mul_of_pos_right a (by omega)) _
    · rw [Nat.add_assoc]

/-- Regrouping a chain to the left does not lower its value. -/
theorem le_eval_join (hop : op.isAssociative = true) {child : BinaryOp} {s : Chain}
    (hs : s.Follows child) (r : Chain) :
    (telling op).binary child (r.reading.eval (telling op)) (s.reading.eval (telling op)) ≤
      (r.join child s).reading.eval (telling op) := by
  induction s with
  | single t => rw [Chain.reading_join_single, eval, Chain.reading_single]
  | join s other t ih =>
    have ih := ih fun other ho => hs other (by simp [ho])
    obtain ⟨hc, hl, hp⟩ := hs other (by simp)
    rw [← Chain.join_join, Chain.reading_join_single, Chain.reading_join_single, eval, eval]
    exact Nat.le_trans (telling_regroup_le hop hc hl hp (two_le_eval_telling t))
      (telling_le other ih (Nat.le_refl _))

theorem telling_regroup_lt {other : BinaryOp} (hne : other ≠ op)
    (hp : op.precedence ≤ other.precedence) {a b x : Nat} (ha : 2 ≤ a) (hx : 2 ≤ x) :
    (telling op).binary op a ((telling op).binary other b x) <
      (telling op).binary other ((telling op).binary op a b) x := by
  simp only [telling, ne_eq, not_true_eq_false, false_and, if_false, if_pos (And.intro hne hp)]
  rw [Nat.add_mul]
  exact Nat.add_lt_add_right (by nlinarith) _

/-- It raises the value if another operator of the chain comes to apply to more. -/
theorem lt_eval_join (hop : op.isAssociative = true) {s : Chain} (hs : s.Follows op)
    (hne : ∃ other ∈ s.ops, other ≠ op) (r : Chain) :
    (telling op).binary op (r.reading.eval (telling op)) (s.reading.eval (telling op)) <
      (r.join op s).reading.eval (telling op) := by
  induction s with
  | single t =>
    obtain ⟨other, ho, -⟩ := hne
    cases ho
  | join s other t ih =>
    have hs' : s.Follows op := fun other ho => hs other (by simp [ho])
    obtain ⟨hc, hl, hp⟩ := hs other (by simp)
    rw [← Chain.join_join, Chain.reading_join_single, Chain.reading_join_single, eval, eval]
    by_cases ho : other = op
    · subst ho
      have hne' : ∃ other' ∈ s.ops, other' ≠ other := by
        obtain ⟨other', ho, hne⟩ := hne
        simp only [Chain.ops_join, Chain.ops_single, List.mem_append, List.mem_singleton] at ho
        exact ⟨other', ho.resolve_right hne, hne⟩
      refine Nat.lt_of_le_of_lt (telling_regroup_le hop hc hl hp (two_le_eval_telling t)) ?_
      exact telling_lt other (Nat.le_of_lt (ih hs' hne')) (Nat.le_refl _) (.inl (ih hs' hne'))
        (two_le_telling other (two_le_eval_telling _) (two_le_eval_telling _))
        (two_le_eval_telling t)
    · exact Nat.lt_of_lt_of_le
        (telling_regroup_lt ho hp (two_le_eval_telling _) (two_le_eval_telling t))
        (telling_le other (le_eval_join hop hs' r) (Nat.le_refl _))

theorem binary_regrouped_le (hop : op.isAssociative = true) (child : BinaryOp)
    (left right : Reading) :
    (telling op).binary child (left.regrouped.eval (telling op))
        (right.regrouped.eval (telling op)) ≤
      (binary child left right).regrouped.eval (telling op) := by
  obtain ⟨r, s, heq, hr, hs, hf, -⟩ := exists_regrouped_binary child left right
  rw [heq, ← hr, ← hs]
  exact le_eval_join hop hf r

theorem eval_le_regrouped (hop : op.isAssociative = true) (t : Reading) :
    t.eval (telling op) ≤ t.regrouped.eval (telling op) := by
  induction t with
  | atom e => exact Nat.le_refl _
  | binary child left right hl hr =>
    exact Nat.le_trans (telling_le child hl hr) (binary_regrouped_le hop child left right)
  | not t ih => exact ih
  | negate t ih => exact ih
  | nullTest isNull t ih => exact ih
  | like value pattern hv hp => exact Nat.add_le_add hv hp
  | array items ih =>
    rw [regrouped_array, eval, eval, evalAll_eq_map, evalAll_eq_map, List.map_map]
    exact Nat.add_le_add_right (List.sum_le_sum ih) 2

theorem eval_lt_binary (hop : op.isAssociative = true) {child : BinaryOp} {left right : Reading}
    (hlt : left.eval (telling op) < left.regrouped.eval (telling op) ∨
      right.eval (telling op) < right.regrouped.eval (telling op)) :
    (binary child left right).eval (telling op) <
      (binary child left right).regrouped.eval (telling op) :=
  Nat.lt_of_lt_of_le
    (telling_lt child (eval_le_regrouped hop left) (eval_le_regrouped hop right) hlt
      (two_le_eval_telling left) (two_le_eval_telling right))
    (binary_regrouped_le hop child left right)

/-- A reading that is not aligned is told from what its tokens say. -/
theorem exists_lt_regrouped {t : Reading} (h : ¬ t.IsAligned) : ∃ op : BinaryOp,
    op.isAssociative = true ∧ t.eval (telling op) < t.regrouped.eval (telling op) := by
  induction t with
  | atom e => exact absurd trivial h
  | binary child left right hl hr =>
    obtain ⟨r, s, heq, hr', hs', hs, hops⟩ := exists_regrouped_binary child left right
    by_cases hleft : left.IsAligned
    · by_cases hright : right.IsAligned
      · have hcross : right.joinsRight child = true ∧ ∃ other ∈ right.edge, other ≠ child := by
          simpa [IsAligned, hleft, hright] using h
        obtain ⟨hj, other, ho, hne⟩ := hcross
        have hop := isAssociative_of_joinsRight hj
        refine ⟨child, hop, ?_⟩
        rw [heq, eval]
        refine Nat.lt_of_le_of_lt
          (telling_le child (eval_le_regrouped hop left) (eval_le_regrouped hop right)) ?_
        rw [← hr', ← hs']
        exact lt_eval_join hop hs
          ⟨other, (hops other).mpr ⟨hj, edge_subset_chain_ops other ho⟩, hne⟩ r
      · obtain ⟨op, hop, hlt⟩ := hr hright
        exact ⟨op, hop, eval_lt_binary hop (.inr hlt)⟩
    · obtain ⟨op, hop, hlt⟩ := hl hleft
      exact ⟨op, hop, eval_lt_binary hop (.inl hlt)⟩
  | not t ih => exact ih h
  | negate t ih => exact ih h
  | nullTest isNull t ih => exact ih h
  | like value pattern hv hp =>
    by_cases hvalue : value.IsAligned
    · obtain ⟨op, hop, hlt⟩ := hp fun hpattern => h ⟨hvalue, hpattern⟩
      exact ⟨op, hop, Nat.add_lt_add_of_le_of_lt (eval_le_regrouped hop value) hlt⟩
    · obtain ⟨op, hop, hlt⟩ := hv hvalue
      exact ⟨op, hop, Nat.add_lt_add_of_lt_of_le hlt (eval_le_regrouped hop pattern)⟩
  | array items ih =>
    obtain ⟨t, ht, hta⟩ : ∃ t ∈ items, ¬ t.IsAligned := by
      simpa [IsAligned, allAligned_iff] using h
    obtain ⟨op, hop, hlt⟩ := ih t ht hta
    refine ⟨op, hop, ?_⟩
    rw [regrouped_array, eval, eval, evalAll_eq_map, evalAll_eq_map, List.map_map]
    exact Nat.add_lt_add_right
      (List.sum_lt_sum _ _ (fun t _ => eval_le_regrouped hop t) ⟨t, ht, hlt⟩) 2

end Telling

end Reading

namespace Expr

/-- The text of an expression is read in one way. What it says has the value of the expression under
every lawful interpretation exactly if no right operand shows another operator on its edge. -/
theorem text_keeps_meaning_iff {ctx : ExprContext} {e : Expr} {ps : List Piece}
    (h : e.pieces ctx = .ok ps) :
    Token.Spell ctx e.reading.tokens ps ∧ ∃ t,
      (∀ u, Grammar.postgres.Reads 0 e.reading.tokens u ↔ u = t) ∧
      ((∀ (V : Type) (I : Interpretation V), I.IsLawful → t.eval I = e.reading.eval I) ↔
        e.reading.IsAligned) := by
  refine ⟨spell_reading h, e.reading.regrouped, fun u => Grammar.reads_tokens_iff, ?_, ?_⟩
  · intro hall
    by_contra hna
    obtain ⟨op, -, hlt⟩ := Reading.exists_lt_regrouped hna
    exact Nat.ne_of_gt hlt (hall Nat (.telling op) (Interpretation.isLawful_telling op))
  · intro ha V I hI
    exact Reading.eval_regrouped hI ha

/-- Columns without the names of their tables. -/
def unqualified : ExprContext where
  columnReference c := .ok c.name
  subquery _ := .ok []

/-- The product of `a` and `b / a * b`. -/
def scaledQuotient : Expr :=
  let a := literal (.source (.argument ⟨0, "a"⟩))
  let b := literal (.source (.argument ⟨1, "b"⟩))
  .binary .multiply a (.binary .multiply (.binary .divide b a) b)

/-- It is written without parentheses. -/
def scaledQuotientPieces : List Piece :=
  let a := .source (.argument ⟨0, "a"⟩)
  let b := .source (.argument ⟨1, "b"⟩)
  [a, .text "*", b, .text "/", a, .text "*", b]

theorem scaledQuotient_keeps_meaning_iff :
    scaledQuotient.pieces unqualified = .ok scaledQuotientPieces ∧
      Token.Spell unqualified scaledQuotient.reading.tokens scaledQuotientPieces ∧
      ∃ t, (∀ u, Grammar.postgres.Reads 0 scaledQuotient.reading.tokens u ↔ u = t) ∧
        ((∀ (V : Type) (I : Interpretation V), I.IsLawful →
            t.eval I = scaledQuotient.reading.eval I) ↔
          scaledQuotient.reading.IsAligned) :=
  ⟨rfl, text_keeps_meaning_iff rfl⟩

theorem scaledQuotient_loses_meaning :
    scaledQuotient.pieces unqualified = .ok scaledQuotientPieces ∧
      ∃ t, (∀ u, Grammar.postgres.Reads 0 scaledQuotient.reading.tokens u ↔ u = t) ∧
        ∃ I : Interpretation Nat, I.IsLawful ∧ t.eval I ≠ scaledQuotient.reading.eval I :=
  ⟨rfl, scaledQuotient.reading.regrouped, fun _ => Grammar.reads_tokens_iff,
    .telling .multiply, Interpretation.isLawful_telling _, by decide⟩

end Expr

end DeclarativeSql
