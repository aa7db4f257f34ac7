import DeclarativeSql.Proofs.Grammar.Levels
import Mathlib.Data.List.Induction

/-!
# Chains

Where an operand stands without parentheses, its operators line up with those around it. Operators
of one level in such a row are applied from left to right, whatever tree they were written for.
-/
namespace DeclarativeSql

/-- Operands and operators of one level in a row. -/
structure Chain where
  first : Reading
  rest : List (BinaryOp × Reading)

namespace Chain

def single (t : Reading) : Chain := ⟨t, []⟩

def join (left : Chain) (op : BinaryOp) (right : Chain) : Chain :=
  ⟨left.first, left.rest ++ (op, right.first) :: right.rest⟩

/-- The operators are applied from left to right. -/
def reading (r : Chain) : Reading :=
  r.rest.foldl (fun t (op, operand) => .binary op t operand) r.first

@[simp] theorem reading_single (t : Reading) : (single t).reading = t := rfl

@[simp] theorem reading_join_single (r : Chain) (op : BinaryOp) (t : Reading) :
    (r.join op (single t)).reading = .binary op r.reading t := by
  simp [reading, join, single]

/-- The operators of a chain. -/
def ops (r : Chain) : List BinaryOp := r.rest.map Prod.fst

@[simp] theorem ops_single (t : Reading) : (single t).ops = [] := rfl

@[simp] theorem ops_join (r s : Chain) (op : BinaryOp) :
    (r.join op s).ops = r.ops ++ op :: s.ops := by
  simp [ops, join]

/-- The operators of the chain can go on behind `op`: they stand at its level, none is looser, and
`op` is associative. -/
def Follows (s : Chain) (op : BinaryOp) : Prop :=
  ∀ child ∈ s.ops, op.isAssociative = true ∧ child.level = op.level ∧
    op.precedence ≤ child.precedence

@[elab_as_elim, induction_eliminator]
theorem induct {motive : Chain → Prop} (single : ∀ t, motive (single t))
    (join : ∀ r op t, motive r → motive (r.join op (.single t))) (r : Chain) : motive r := by
  obtain ⟨first, rest⟩ := r
  induction rest using List.reverseRecOn with
  | nil => exact single first
  | append_singleton rest step ih => exact join ⟨first, rest⟩ step.1 step.2 ih

theorem join_join (r s u : Chain) (op child : BinaryOp) :
    (r.join op s).join child u = r.join op (s.join child u) := by
  simp [join]

end Chain

namespace BindingLevel

theorem rank_lt_of_ne {l k : BindingLevel} (h : l.rank ≤ k.rank) (hne : k ≠ l) :
    l.rank < k.rank := by
  revert h hne
  cases l <;> cases k <;> decide

end BindingLevel

namespace Expr.Slot

theorem encloses_eq_false_iff {s : Slot} {t : Reading} : s.encloses t = false ↔
    s.precedence ≤ t.precedence ∧ s.level.rank ≤ t.level.rank ∧
      (s.precedenceIsClosed = true → t.precedence ≠ s.precedence) ∧
      (s.levelIsClosed = true → t.level ≠ s.level) := by
  simp [encloses, and_assoc]

/-- In a place that is closed at its level only tighter operands stand without parentheses. -/
theorem rank_lt_of_encloses_eq_false {s : Slot} {t : Reading} (hs : s.levelIsClosed = true)
    (h : s.encloses t = false) : s.level.rank < t.level.rank := by
  obtain ⟨-, hl, -, hc⟩ := encloses_eq_false_iff.mp h
  exact BindingLevel.rank_lt_of_ne hl (hc hs)

end Expr.Slot

namespace Reading

/-- A left operand goes on without parentheses at the level of the operator. -/
def joinsLeft (op : BinaryOp) (left : Reading) : Bool :=
  left.level == op.level && !(Expr.Slot.leftOf op).encloses left

mutual

/-- The row in which the operators of a reading are written. -/
def chain : Reading → Chain
  | atom e => .single (.atom e)
  | binary op left right =>
    (if left.joinsLeft op then left.chain else .single left.chain.reading).join op
      (if right.joinsRight op then right.chain else .single right.chain.reading)
  | not t => .single (.not t.chain.reading)
  | negate t => .single (.negate t.chain.reading)
  | nullTest isNull t => .single (.nullTest isNull t.chain.reading)
  | like value pattern => .single (.like value.chain.reading pattern.chain.reading)
  | array items => .single (.array (regroupedAll items))

def regroupedAll : List Reading → List Reading
  | [] => []
  | t :: rest => t.chain.reading :: regroupedAll rest

end

/-- What the tokens of a reading say. -/
def regrouped (t : Reading) : Reading := t.chain.reading

theorem tokensOf_eq_map (items : List Reading) : tokensOf items = items.map tokens := by
  induction items with
  | nil => rfl
  | cons t rest ih => rw [tokensOf, ih, List.map_cons]

theorem regroupedAll_eq_map (items : List Reading) :
    regroupedAll items = items.map regrouped := by
  induction items with
  | nil => rfl
  | cons t rest ih => rw [regroupedAll, ih, List.map_cons, regrouped]

theorem isAssociative_of_joinsRight {op : BinaryOp} {right : Reading}
    (h : right.joinsRight op = true) : op.isAssociative = true :=
  (Bool.and_eq_true_iff.mp h).1

theorem exists_of_joinsRight {op : BinaryOp} {t : Reading} (h : t.joinsRight op = true) :
    ∃ left right, t = .binary op left right := by
  cases t with
  | binary child left right =>
    simp only [joinsRight, isHeadedBy, Bool.and_eq_true, decide_eq_true_eq] at h
    exact ⟨left, right, h.2 ▸ rfl⟩
  | _ => simp [joinsRight, isHeadedBy] at h

theorem joinsRight_of_isNonAssociative {op : BinaryOp} (right : Reading)
    (hop : op.level.isNonAssociative = true) : right.joinsRight op = false := by
  have ha : op.isAssociative = false := by
    revert hop
    cases op <;> decide
  rw [joinsRight, ha, Bool.false_and]

theorem chain_ops {t : Reading} :
    ∀ child ∈ t.chain.ops, child.level = t.level ∧ t.precedence ≤ child.precedence := by
  induction t with
  | binary op left right hl hr =>
    intro child hc
    simp only [chain, Chain.ops_join, List.mem_append, List.mem_cons] at hc
    rcases hc with hc | rfl | hc
    · cases hj : left.joinsLeft op with
      | false => simp [hj] at hc
      | true =>
        rw [hj, if_pos rfl] at hc
        obtain ⟨hlevel, hprec⟩ := hl child hc
        simp only [joinsLeft, Bool.and_eq_true, beq_iff_eq, Bool.not_eq_true'] at hj
        have hopen := (Expr.Slot.encloses_eq_false_iff.mp hj.2).1
        exact ⟨hlevel.trans hj.1, Nat.le_trans hopen hprec⟩
    · exact ⟨rfl, Nat.le_refl _⟩
    · cases hj : right.joinsRight op with
      | false => simp [hj] at hc
      | true =>
        rw [hj, if_pos rfl] at hc
        obtain ⟨hlevel, hprec⟩ := hr child hc
        obtain ⟨l, r, rfl⟩ := exists_of_joinsRight hj
        exact ⟨hlevel, hprec⟩
  | _ =>
    intro child hc
    exact absurd hc List.not_mem_nil

/-- What an operation says: its operands, with the chain of the right one taken apart if it goes
on. -/
theorem exists_regrouped_binary (op : BinaryOp) (left right : Reading) :
    ∃ r s : Chain, (binary op left right).regrouped = (r.join op s).reading ∧
      r.reading = left.regrouped ∧ s.reading = right.regrouped ∧ s.Follows op ∧
      ∀ child, child ∈ s.ops ↔ right.joinsRight op = true ∧ child ∈ right.chain.ops := by
  refine ⟨_, _, rfl, ?_, ?_, fun child hc => ?_, fun child => ?_⟩
  · cases left.joinsLeft op <;> rfl
  · cases right.joinsRight op <;> rfl
  · cases hj : right.joinsRight op with
    | false => simp [hj] at hc
    | true =>
      rw [hj, if_pos rfl] at hc
      have hchain := chain_ops child hc
      obtain ⟨l, r, rfl⟩ := exists_of_joinsRight hj
      exact ⟨isAssociative_of_joinsRight hj, hchain⟩
  · cases right.joinsRight op <;> simp

theorem regrouped_of_isNonAssociative {op : BinaryOp} (left right : Reading)
    (hop : op.level.isNonAssociative = true) :
    (binary op left right).regrouped = .binary op left.regrouped right.regrouped := by
  have hl : left.joinsLeft op = false := by
    cases heq : left.level == op.level with
    | false => rw [joinsLeft, heq, Bool.false_and]
    | true => simp [joinsLeft, Expr.Slot.encloses, Expr.Slot.leftOf, Expr.Slot.new, heq, hop]
  simp [regrouped, chain, hl, joinsRight_of_isNonAssociative right hop]

end Reading

namespace Grammar

variable {g : Grammar}

/-- The tokens are a row of operators of one level. -/
inductive ReadsChain (g : Grammar) (level : Nat) : List Token → Chain → Prop
  | single {ts : List Token} {t : Reading} :
    g.Reads (level + 1) ts t → ReadsChain g level ts (.single t)
  | join {ts us : List Token} {r : Chain} {op : BinaryOp} {t : Reading} :
    ReadsChain g level ts r → g.binary op = level → g.Reads (level + 1) us t →
      ReadsChain g level (ts ++ .op op :: us) (r.join op (.single t))

theorem ReadsChain.append {level : Nat} {ts us : List Token} {r s : Chain} {op : BinaryOp}
    (hr : g.ReadsChain level ts r) (hop : g.binary op = level) (hs : g.ReadsChain level us s) :
    g.ReadsChain level (ts ++ .op op :: us) (r.join op s) := by
  induction hs with
  | single h => exact .join hr hop h
  | @join us vs s child t hs hc ht ih =>
    have h := ReadsChain.join ih hc ht
    rwa [Chain.join_join, List.append_assoc, List.cons_append] at h

theorem ReadsChain.reads {level : Nat} {ts : List Token} {r : Chain} (hl : g.isLeft level = true)
    (h : g.ReadsChain level ts r) : g.Reads level ts r.reading := by
  induction h with
  | single h => exact h.mono (Nat.le_succ level)
  | @join ts us r op t hr hop ht ih =>
    subst hop
    rw [Chain.reading_join_single]
    refine .binary (Nat.le_refl _) ?_ ht
    rwa [leftLevel, if_pos hl]

/-- The number of a level. -/
def number (l : BindingLevel) : Nat := l.rank + 1

theorem postgres_binary (op : BinaryOp) : postgres.binary op = number op.level := by
  cases op <;> rfl

theorem postgres_isLeft (l : BindingLevel) :
    postgres.isLeft (number l) = !l.isNonAssociative := by
  cases l <;> rfl

/-- How the tokens of a reading are read: at its level, and as a row if it is a chain of
operators. -/
structure ReadsTokens (t : Reading) : Prop where
  reads : postgres.Reads (number t.level) t.tokens t.regrouped
  readsChain : ∀ {op left right}, t = .binary op left right →
    op.level.isNonAssociative = false → postgres.ReadsChain (number op.level) t.tokens t.chain

namespace ReadsTokens

variable {t : Reading}

theorem enclosed (h : ReadsTokens t) {m : Nat} {s : Expr.Slot}
    (hs : s.encloses t = false → m ≤ number t.level) :
    postgres.Reads m (t.enclosed s t.tokens) t.regrouped := by
  unfold Reading.enclosed
  cases he : s.encloses t with
  | true => exact .group (h.reads.mono (Nat.zero_le _))
  | false => exact h.reads.mono (hs he)

theorem enclosed_closed (h : ReadsTokens t) {s : Expr.Slot} (hs : s.levelIsClosed = true) :
    postgres.Reads (number s.level + 1) (t.enclosed s t.tokens) t.regrouped :=
  h.enclosed fun he => Nat.succ_le_succ (Expr.Slot.rank_lt_of_encloses_eq_false hs he)

theorem enclosed_open (h : ReadsTokens t) (s : Expr.Slot) :
    postgres.Reads (number s.level) (t.enclosed s t.tokens) t.regrouped :=
  h.enclosed fun he => Nat.succ_le_succ (Expr.Slot.encloses_eq_false_iff.mp he).2.1

/-- An operand at the level of an operator is a chain of such operators. -/
theorem chain_of_level (h : ReadsTokens t) {op : BinaryOp} (ht : t.level = op.level)
    (hop : op.level.isNonAssociative = false) :
    postgres.ReadsChain (number op.level) t.tokens t.chain := by
  cases t with
  | binary child left right =>
    have ht : child.level = op.level := ht
    rw [← ht] at hop ⊢
    exact h.readsChain rfl hop
  | _ => cases op <;> cases ht

/-- An operand to the left lines up with the operator, or is tighter. -/
theorem left (h : ReadsTokens t) {op : BinaryOp} (hop : op.level.isNonAssociative = false) :
    postgres.ReadsChain (number op.level) (t.enclosed (.leftOf op) t.tokens)
      (if t.joinsLeft op then t.chain else .single t.chain.reading) := by
  cases hj : t.joinsLeft op with
  | true =>
    simp only [Reading.joinsLeft, Bool.and_eq_true, beq_iff_eq, Bool.not_eq_true'] at hj
    simp only [Reading.enclosed, hj.2, if_true]
    exact h.chain_of_level hj.1 hop
  | false =>
    refine .single (h.enclosed fun he => Nat.succ_le_succ ?_)
    have hne : t.level ≠ op.level := by
      intro heq
      simp [Reading.joinsLeft, heq, he] at hj
    exact BindingLevel.rank_lt_of_ne (Expr.Slot.encloses_eq_false_iff.mp he).2.1 hne

theorem right (h : ReadsTokens t) {op : BinaryOp} (hop : op.level.isNonAssociative = false) :
    postgres.ReadsChain (number op.level) (t.enclosed (.before op t) t.tokens)
      (if t.joinsRight op then t.chain else .single t.chain.reading) := by
  cases hj : t.joinsRight op with
  | true =>
    have hb : Expr.Slot.before op t = .leftOf op := by rw [Expr.Slot.before, hj, if_pos rfl]
    obtain ⟨left, right, rfl⟩ := Reading.exists_of_joinsRight hj
    have he : (Expr.Slot.leftOf op).encloses (.binary op left right) = false := by
      simp [Expr.Slot.encloses, Expr.Slot.leftOf, Expr.Slot.new, Reading.precedence,
        Reading.level, hop]
    simp only [hb, Reading.enclosed, he, if_true]
    exact h.readsChain rfl hop
  | false =>
    refine .single ?_
    have hs : Expr.Slot.before op t = (Expr.Slot.leftOf op).closed := by
      rw [Expr.Slot.before, hj]
      rfl
    rw [hs]
    exact h.enclosed_closed (s := (Expr.Slot.leftOf op).closed) rfl

end ReadsTokens

theorem readsTokens (t : Reading) : ReadsTokens t := by
  induction t with
  | atom e =>
    refine ⟨.atom _ _, ?_⟩
    rintro _ _ _ ⟨⟩
  | binary op left right hl hr =>
    cases hop : op.level.isNonAssociative with
    | false =>
      have h : postgres.ReadsChain (number op.level) (Reading.binary op left right).tokens
          (Reading.binary op left right).chain := by
        simp only [Reading.tokens, Reading.chain]
        exact (hl.left hop).append (postgres_binary op) (hr.right hop)
      refine ⟨h.reads ((postgres_isLeft op.level).trans (by rw [hop]; rfl)), ?_⟩
      rintro _ _ _ ⟨⟩ -
      exact h
    | true =>
      -- nothing of this level may stand on either side without parentheses
      refine ⟨?_, ?_⟩
      · have hlevel : postgres.leftLevel (postgres.binary op) = number op.level + 1 := by
          rw [leftLevel, postgres_binary, postgres_isLeft, hop]
          rfl
        have hs : Expr.Slot.levelIsClosed (.leftOf op) = true := hop
        rw [Reading.regrouped_of_isNonAssociative _ _ hop]
        have hb : Expr.Slot.before op right = (Expr.Slot.leftOf op).closed := by
          rw [Expr.Slot.before, Reading.joinsRight_of_isNonAssociative right hop]
          rfl
        refine .binary (Nat.le_of_eq (postgres_binary op).symm)
          (hlevel ▸ hl.enclosed_closed hs) ?_
        rw [postgres_binary, hb]
        exact hr.enclosed_closed (s := (Expr.Slot.leftOf op).closed) rfl
      · rintro _ _ _ ⟨⟩ h
        rw [hop] at h
        cases h
  | not t ih =>
    refine ⟨.not (Nat.le_refl _) (ih.enclosed_open (.new _ .negation)), ?_⟩
    rintro _ _ _ ⟨⟩
  | negate t ih =>
    refine ⟨.negate (Nat.le_refl _) (ih.enclosed_open (.new _ .minus)), ?_⟩
    rintro _ _ _ ⟨⟩
  | nullTest isNull t ih =>
    refine ⟨.nullTest (Nat.le_refl _) (ih.enclosed_closed (s := .nullTest) rfl), ?_⟩
    rintro _ _ _ ⟨⟩
  | like value pattern hv hp =>
    refine ⟨.like (Nat.le_refl _) (hv.enclosed_closed (s := .like) rfl)
      (hp.enclosed_closed (s := .closed .like) rfl), ?_⟩
    rintro _ _ _ ⟨⟩
  | array items ih =>
    refine ⟨?_, by rintro _ _ _ ⟨⟩⟩
    have h := Reads.array (g := postgres) (number .atom)
      (items.map fun t => (t.tokens, t.regrouped)) (by
        intro i hi
        obtain ⟨t, ht, rfl⟩ := List.mem_map.mp hi
        exact (ih t ht).reads.mono (Nat.zero_le _))
    rw [List.map_map, List.map_map] at h
    rw [Reading.tokens, Reading.tokensOf_eq_map, Reading.regrouped, Reading.chain,
      Reading.regroupedAll_eq_map]
    exact h

theorem reads_tokens_iff {t u : Reading} :
    postgres.Reads 0 t.tokens u ↔ u = t.regrouped := by
  have hreads := (readsTokens t).reads.mono (Nat.zero_le _)
  constructor
  · intro hu
    exact hu.unique postgres_keepsApart hreads
  · rintro rfl
    exact hreads

end Grammar

end DeclarativeSql
