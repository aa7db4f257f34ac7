import DeclarativeSql.Proofs.Grammar.Chain
import DeclarativeSql.Proofs.Grammar.Derivation

/-!
# Reading back what was written

Two orders of operators decide about parentheses, that of the server's grammar and the documented
one. The symbols of an expression are read back as the expression under each of them, unless an
associative operator was written without parentheses around a right operand of its own.
-/
namespace DeclarativeSql

/-- The documented order. All operators of one precedence associate to the left. -/
def Grammar.documented : Grammar where
  binary
    | .orElse => 2
    | .andAlso => 3
    | .bitOr => 4
    | .bitXor => 5
    | .bitAnd => 6
    | .equal | .notEqual => 7
    | .lessThan | .lessThanOrEqual | .greaterThan | .greaterThanOrEqual => 8
    | .leftShift | .rightShift => 9
    | .add | .subtract | .concat => 10
    | .multiply | .divide | .modulo => 11
    | .power => 13
  not := 12
  nullTest := 7
  like := 8
  negate := 12
  isLeft _ := true

namespace Expr

mutual

/-- The expression with every test for NULL as one operation, and NOT EXISTS as NOT before
EXISTS. -/
def normal : Expr → Expr
  | binary op left right =>
    match nullTest? op left right with
    | some .left => left.normal.nullTested (op = .equal)
    | some .right => right.normal.nullTested (op = .equal)
    | none => .binary op left.normal right.normal
  | unary .hasValue e => e.normal.nullTested false
  | unary op e => .unary op e.normal
  | call .notExists args => .unary .not (.call .exists_ (normalOf args))
  | call name args => .call name (normalOf args)
  | array items => .array (normalOf items)
  | e => e

def normalOf : List Expr → List Expr
  | [] => []
  | e :: rest => e.normal :: normalOf rest

end

mutual

/-- No right operand of an associative operator is headed by the same operator. -/
def IsUnchained : Expr → Prop
  | binary op left right =>
    left.IsUnchained ∧ right.IsUnchained ∧
      ¬ (op.isAssociative = true ∧ Slot.isHeadedBy op right = true)
  | unary _ e => e.IsUnchained
  | call _ args => AllUnchained args
  | array items => AllUnchained items
  | _ => True

def AllUnchained : List Expr → Prop
  | [] => True
  | e :: rest => e.IsUnchained ∧ AllUnchained rest

end

theorem normalOf_eq_map (items : List Expr) : normalOf items = items.map normal := by
  induction items with
  | nil => rfl
  | cons e rest ih => rw [normalOf, ih, List.map_cons]

theorem symbolsOf_eq_map (items : List Expr) : symbolsOf items = items.map symbols := by
  induction items with
  | nil => rfl
  | cons e rest ih => rw [symbolsOf, ih, List.map_cons]

theorem allUnchained_iff {items : List Expr} :
    AllUnchained items ↔ ∀ e ∈ items, e.IsUnchained := by
  induction items with
  | nil => simp [AllUnchained]
  | cons e rest ih => simp [AllUnchained, ih]

theorem Slot.groups_eq_false_iff {s : Slot} {e : Expr} : s.groups e = false ↔
    s.precedence ≤ e.precedence ∧ s.level.rank ≤ e.level.rank ∧
      (s.precedenceIsClosed = true → e.precedence ≠ s.precedence) ∧
      (s.levelIsClosed = true → e.level ≠ s.level) := by
  simp [groups, and_assoc]

theorem Slot.rightOf_of_isUnchained {op : BinaryOp} {left right : Expr}
    (h : (binary op left right).IsUnchained) : rightOf op right = (leftOf op).closed := by
  rw [rightOf, if_neg]
  rw [Bool.and_eq_true]
  exact h.2.2

end Expr

namespace Grammar

open DeclarativeSql.Expr (Slot)

/-- The level of the operation that an expression is, if it is one. -/
def head? (g : Grammar) : Expr → Option Nat
  | .binary op left right =>
    if (Expr.nullTest? op left right).isSome then some g.nullTest else some (g.binary op)
  | .unary .not _ => some g.not
  | .unary .negate _ => some g.negate
  | .unary .hasValue _ => some g.nullTest
  | .call .like _ => some g.like
  | .call .notExists _ => some g.not
  | _ => none

/-- What stands in a place without parentheses is as tight as the grammar asks for. -/
structure Fits (g : Grammar) (floor : Slot → Nat) : Prop where
  operand : ∀ {s : Slot} {e : Expr}, s.groups e = false → ∀ l ∈ g.head? e, floor s ≤ l
  left : ∀ op, g.leftLevel (g.binary op) ≤ floor (.leftOf op)
  right : ∀ op, g.binary op + 1 ≤ floor (Slot.leftOf op).closed
  not : g.not ≤ floor (.new Expr.unaryPrecedence .negation)
  negate : g.negate ≤ floor (.new Expr.unaryPrecedence .minus)
  nullTest : g.leftLevel g.nullTest ≤ floor .nullTest
  value : g.leftLevel g.like ≤ floor .like
  pattern : g.like + 1 ≤ floor (.closed .like)

theorem head?_postgres {e : Expr} : ∀ l ∈ postgres.head? e, l = number e.level := by
  cases e with
  | binary op left right =>
    simp only [head?, Expr.level]
    split
    · rintro _ ⟨⟩
      rfl
    · rintro _ ⟨⟩
      exact postgres_binary op
  | unary op e => cases op <;> rintro _ ⟨⟩ <;> rfl
  | call name args => cases name <;> rintro _ ⟨⟩ <;> rfl
  | _ => rintro _ ⟨⟩

theorem head?_documented {e : Expr} : ∀ l ∈ documented.head? e, l = e.precedence := by
  cases e with
  | binary op left right =>
    simp only [head?, Expr.precedence]
    split
    · rintro _ ⟨⟩
      rfl
    · rintro _ ⟨⟩
      cases op <;> rfl
  | unary op e => cases op <;> rintro _ ⟨⟩ <;> rfl
  | call name args => cases name <;> rintro _ ⟨⟩ <;> rfl
  | _ => rintro _ ⟨⟩

theorem fits_postgres :
    postgres.Fits fun s => if s.levelIsClosed then number s.level + 1 else number s.level where
  operand := by
    intro s e h l hl
    obtain rfl := head?_postgres l hl
    obtain ⟨-, hle, -, hne⟩ := Slot.groups_eq_false_iff.mp h
    split
    next hclosed => exact Nat.succ_le_succ (BindingLevel.rank_lt_of_ne hle (hne hclosed))
    next => exact Nat.succ_le_succ hle
  left op := by cases op <;> decide
  right op := by cases op <;> decide
  not := by decide
  negate := by decide
  nullTest := by decide
  value := by decide
  pattern := by decide

theorem fits_documented :
    documented.Fits fun s => if s.precedenceIsClosed then s.precedence + 1 else s.precedence where
  operand := by
    intro s e h l hl
    obtain rfl := head?_documented l hl
    obtain ⟨hle, -, hne, -⟩ := Slot.groups_eq_false_iff.mp h
    split
    next hclosed => exact Nat.lt_of_le_of_ne hle (Ne.symm (hne hclosed))
    next => exact hle
  left op := by cases op <;> decide
  right op := by cases op <;> decide
  not := by decide
  negate := by decide
  nullTest := by decide
  value := by decide
  pattern := by decide

theorem postgres_isSeparate : postgres.IsSeparate where
  not := ⟨fun op => by cases op <;> decide, by decide, by decide⟩
  negate := ⟨fun op => by cases op <;> decide, by decide, by decide⟩

theorem documented_isSeparate : documented.IsSeparate where
  not := ⟨fun op => by cases op <;> decide, by decide, by decide⟩
  negate := ⟨fun op => by cases op <;> decide, by decide, by decide⟩

variable {g : Grammar} {floor : Slot → Nat} {ctx : ExprContext}

/-- The symbols of an expression are read as it is, wherever it fits. -/
def ReadsBack (g : Grammar) (e : Expr) : Prop :=
  ∀ m, (∀ l ∈ g.head? e, m ≤ l) → g.Derives m e.symbols e.normal

theorem ReadsBack.zero {e : Expr} (h : g.ReadsBack e) : g.Derives 0 e.symbols e.normal :=
  h 0 fun l _ => Nat.zero_le l

theorem Fits.enclosed (hf : g.Fits floor) {e : Expr} (he : g.ReadsBack e) {m : Nat} {s : Slot}
    (hm : m ≤ floor s) : g.Derives m (e.enclosed s e.symbols) e.normal := by
  unfold Expr.enclosed
  cases hs : s.groups e with
  | true => exact .group he.zero
  | false => exact he m fun l hl => Nat.le_trans hm (hf.operand hs l hl)

theorem derives_bracketed (m : Nat) (b : Bracket) (items : List Expr)
    (h : ∀ e ∈ items, g.ReadsBack e) :
    g.Derives m (Symbol.bracketed b (Expr.symbolsOf items)) (b.expr (Expr.normalOf items)) := by
  have hlist := Derives.list m b (items.map fun e => (e.symbols, e.normal)) (by
    intro i hi
    obtain ⟨e, he, rfl⟩ := List.mem_map.mp hi
    exact (h e he).zero)
  rw [List.map_map, List.map_map] at hlist
  rw [Expr.symbolsOf_eq_map, Expr.normalOf_eq_map]
  exact hlist

/-- What EXISTS is asked about is a leaf. -/
theorem derives_exists (m : Nat) {keyword : String} {args : List Expr} {ps : List Piece}
    (h : Expr.existsPieces ctx keyword args = .ok ps) :
    g.Derives m (Expr.call .exists_ args).symbols (.call .exists_ (Expr.normalOf args)) := by
  obtain ⟨arg, qs, rfl, hqs, -⟩ := Expr.exists_of_existsPieces h
  have harg : g.Derives 0 (Expr.querySymbols arg) arg.normal := by
    cases arg with
    | subquery node => exact .leaf 0 (.subquery node)
    | embedded command => exact .leaf 0 (.bare command)
    | _ => cases hqs
  exact .list m .exists_ [(Expr.querySymbols arg, arg.normal)] (by simpa using harg)

theorem Fits.readsBack (hf : g.Fits floor) {e : Expr} {ps : List Piece}
    (h : e.pieces ctx = .ok ps) (hu : e.IsUnchained) : g.ReadsBack e := by
  induction e generalizing ps with
  | literal l => exact fun m _ => .leaf m (.literal l)
  | column c => exact fun m _ => .leaf m (.column c)
  | binary op left right hl hr =>
    intro m hm
    -- the same operator to the right would be read to the left
    have hright := Slot.rightOf_of_isUnchained hu
    obtain ⟨hul, hur, -⟩ := hu
    cases hn : Expr.nullTest? op left right with
    | none =>
      simp only [Expr.pieces, hn, bind_eq_ok, pure_eq_ok] at h
      obtain ⟨ls, hls, rs, hrs, -⟩ := h
      simp only [Expr.symbols, Expr.normal, hn, hright]
      exact .join (c := .op op) (hm (g.binary op) (by simp [head?, hn]))
        (hf.enclosed (hl hls hul) (hf.left op)) (hf.enclosed (hr hrs hur) (hf.right op))
    | some side =>
      have hlevel := hm g.nullTest (by simp [head?, hn])
      cases side <;> simp only [Expr.pieces, hn, bind_eq_ok, pure_eq_ok] at h <;>
        obtain ⟨qs, hqs, -⟩ := h <;> simp only [Expr.symbols, Expr.normal, hn]
      · exact .nullTest hlevel (hf.enclosed (hl hqs hul) hf.nullTest)
      · exact .nullTest hlevel (hf.enclosed (hr hqs hur) hf.nullTest)
  | unary op e he =>
    intro m hm
    cases op <;> simp only [Expr.pieces, bind_eq_ok, pure_eq_ok] at h <;>
      obtain ⟨qs, hqs, -⟩ := h
    · exact .not (hm _ rfl) (hf.enclosed (he hqs hu) hf.not)
    · exact .negate (hm _ rfl) (hf.enclosed (he hqs hu) hf.negate)
    · exact .nullTest (hm _ rfl) (hf.enclosed (he hqs hu) hf.nullTest)
  | call name args hargs =>
    have hargs : ∀ e ∈ args, ∀ ps, e.pieces ctx = .ok ps → g.ReadsBack e := fun e he ps hps =>
      hargs e he hps (Expr.allUnchained_iff.mp hu e he)
    intro m hm
    cases name with
    | like =>
      obtain ⟨value, pattern, vs, qs, rfl, hvs, hqs, -⟩ := Expr.exists_of_pieces_like h
      exact .join (c := .like) (hm _ rfl)
        (hf.enclosed (hargs value (by simp) vs hvs) hf.value)
        (hf.enclosed (hargs pattern (by simp) qs hqs) hf.pattern)
    | exists_ => exact derives_exists m h
    | notExists =>
      obtain ⟨arg, qs, rfl, -, -⟩ := Expr.exists_of_existsPieces h
      exact .not (hm _ rfl) (derives_exists g.not h)
    | count =>
      rcases Expr.exists_of_pieces_count h with rfl | ⟨e, qs, rfl, hqs, -⟩
      · exact .leaf m .rows
      · exact derives_bracketed m .count [e] (by simpa using hargs e (by simp) qs hqs)
    | coalesce =>
      obtain ⟨e, rest, pss, rfl, hpss, -⟩ := Expr.exists_of_pieces_coalesce h
      apply derives_bracketed m .coalesce (e :: rest)
      intro arg harg
      obtain ⟨ps, hps⟩ := Expr.exists_pieces_of_piecesOf hpss arg harg
      exact hargs arg harg ps hps
    | any =>
      obtain ⟨e, qs, rfl, hqs, -⟩ := Expr.exists_of_pieces_any h
      exact derives_bracketed m .any [e] (by simpa using hargs e (by simp) qs hqs)
    | other => cases h
  | array items hitems =>
    intro m hm
    simp only [Expr.pieces, bind_eq_ok, pure_eq_ok] at h
    obtain ⟨pss, hpss, -⟩ := h
    apply derives_bracketed m .array items
    intro e he
    obtain ⟨ps, hps⟩ := Expr.exists_pieces_of_piecesOf hpss e he
    exact hitems e he hps (Expr.allUnchained_iff.mp hu e he)
  | subquery node => cases h
  | embedded command => exact fun m _ => .leaf m (.embedded command)
  | delayed code => exact fun m _ => .leaf m (.delayed code)

/-- An expression is all that its symbols say. -/
theorem Fits.derives_symbols_iff (hf : g.Fits floor) (hg : g.IsSeparate) {e : Expr}
    {ps : List Piece} (h : e.pieces ctx = .ok ps) (hu : e.IsUnchained) {t : Expr} :
    g.Derives 0 e.symbols t ↔ t = e.normal := by
  have hback := (hf.readsBack h hu).zero
  constructor
  · intro ht
    exact ht.unique hg hback
  · rintro rfl
    exact hback

end Grammar

/-- An expression is written as its symbols, and they are read back as nothing but the expression,
in the order of the server's grammar and in the documented one. -/
theorem Expr.symbols_read_back {ctx : ExprContext} {e : Expr} {ps : List Piece}
    (h : e.pieces ctx = .ok ps) (hu : e.IsUnchained) :
    Symbol.Spell ctx e.symbols ps ∧
      (∀ t, Grammar.postgres.Derives 0 e.symbols t ↔ t = e.normal) ∧
      ∀ t, Grammar.documented.Derives 0 e.symbols t ↔ t = e.normal :=
  ⟨spell_symbols h,
    fun _ => Grammar.fits_postgres.derives_symbols_iff Grammar.postgres_isSeparate h hu,
    fun _ => Grammar.fits_documented.derives_symbols_iff Grammar.documented_isSeparate h hu⟩

namespace Expr

/-- `NOT (a - (-(a ^ b) - b) IS NULL) AND (a | a + b LIKE COALESCE(a, b OR a) OR NOT EXISTS(…))` -/
def mixedOrders : Expr :=
  let a := literal (.source (.argument ⟨0, "a"⟩))
  let b := literal (.source (.argument ⟨1, "b"⟩))
  let difference := binary .subtract a (.binary .subtract (.unary .negate (.binary .power a b)) b)
  let pattern := call .coalesce [a, .binary .orElse b a]
  .binary .andAlso (.unary .not (.binary .equal .null difference))
    (.binary .orElse (.call .like [.binary .bitOr a (.binary .add a b), pattern])
      (.call .notExists [.subquery 3]))

theorem mixedOrders_read_back :
    ∃ ps, mixedOrders.pieces ⟨fun c => .ok c.name, fun _ => .ok [.text "SELECT"]⟩ = .ok ps ∧
      mixedOrders.IsUnchained ∧
      Symbol.Spell ⟨fun c => .ok c.name, fun _ => .ok [.text "SELECT"]⟩ mixedOrders.symbols ps ∧
      (∀ t, Grammar.postgres.Derives 0 mixedOrders.symbols t ↔ t = mixedOrders.normal) ∧
      ∀ t, Grammar.documented.Derives 0 mixedOrders.symbols t ↔ t = mixedOrders.normal := by
  have hu : mixedOrders.IsUnchained := by
    simp [mixedOrders, null, IsUnchained, AllUnchained, Slot.isHeadedBy, BinaryOp.isAssociative]
  exact ⟨_, rfl, hu, symbols_read_back rfl hu⟩

end Expr

end DeclarativeSql
