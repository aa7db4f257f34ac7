import DeclarativeSql.Proofs.Grammar.Token
import DeclarativeSql.Query.Pieces

/-!
# Parts

What an expression is written as, before the query around it is known: fixed text, and parts whose
text comes from elsewhere. Parentheses are set already. The first part that has no text decides, so
a part may also be a refusal.
-/
namespace DeclarativeSql

inductive Part
  | text (token : String)
  | source (source : ParameterSource)
  | column (column : Column)
  /-- A table's name and alias. -/
  | table (table : Table)
  | command (command : Command)
  | code (id : CodeId)
  | subquery (node : NodeId)
  | refusal (error : ConstructionError)

/-- The query around some parts. -/
structure Surroundings where
  context : ExprContext
  introduce : Table → Pieces

namespace Part

def pieces (s : Surroundings) : Part → Pieces
  | text token => .ok [.text token]
  | source p => .ok [.source p]
  | column c => do return [.text (← s.context.columnReference c)]
  | table t => s.introduce t
  | command c => do return [← Piece.ofCommand c]
  | code id => .ok [.code id]
  | subquery node => s.context.subquery node
  | refusal e => .error e

def piecesOf (s : Surroundings) : List Part → Pieces
  | [] => .ok []
  | p :: rest => do return (← p.pieces s) ++ (← piecesOf s rest)

/-- A comma between each two of the lists. -/
def separated : List (List Part) → List Part
  | [] => []
  | [part] => part
  | part :: rest => part ++ text "," :: separated rest

variable {s : Surroundings}

theorem piecesOf_append (ps qs : List Part) :
    piecesOf s (ps ++ qs) = do return (← piecesOf s ps) ++ (← piecesOf s qs) := by
  induction ps with
  | nil => cases h : piecesOf s qs <;> simp [piecesOf, h, bind, Except.bind, pure, Except.pure]
  | cons p ps ih =>
    rw [List.cons_append, piecesOf, piecesOf, ih]
    cases p.pieces s <;> cases piecesOf s ps <;> cases piecesOf s qs <;>
      simp [bind, Except.bind, pure, Except.pure]

theorem piecesOf_text_cons (token : String) (ps : List Part) :
    piecesOf s (text token :: ps) = (piecesOf s ps).map (.text token :: ·) := by
  rw [piecesOf]
  cases piecesOf s ps <;> rfl

theorem piecesOf_append_text (ps : List Part) (token : String) :
    piecesOf s (ps ++ [text token]) = (piecesOf s ps).map (· ++ [.text token]) := by
  rw [piecesOf_append]
  cases piecesOf s ps <;> rfl

theorem piecesOf_separated (pss : List (List Part)) :
    piecesOf s (separated pss) = (pss.mapM (piecesOf s)).map Piece.separated := by
  induction pss with
  | nil => rfl
  | cons ps pss ih =>
    cases pss with
    | nil =>
      rw [separated, List.mapM_cons, List.mapM_nil]
      cases piecesOf s ps <;> rfl
    | cons qs pss =>
      have hcons : (ps :: qs :: pss).mapM (piecesOf s) =
          do return (← piecesOf s ps) :: (← (qs :: pss).mapM (piecesOf s)) := List.mapM_cons
      rw [separated, piecesOf_append, piecesOf_text_cons, ih, hcons]
      · cases piecesOf s ps with
        | error e => rfl
        | ok xs =>
          cases hrest : (qs :: pss).mapM (piecesOf s) with
          | error e => rfl
          | ok yss =>
            rw [List.mapM_cons] at hrest
            simp only [bind_eq_ok, pure_eq_ok] at hrest
            obtain ⟨_, -, _, -, rfl⟩ := hrest
            rfl
      · exact List.cons_ne_nil _ _

end Part

namespace Expr

/-- Puts an operand into its place. -/
def groupedParts (place : Slot) (e : Expr) (parts : List Part) : List Part :=
  if place.groups e then .text "(" :: parts ++ [Part.text ")"] else parts

def existsParts (keyword : String) : List Expr → List Part
  | [subquery node] => [.text keyword, .text "(", .subquery node, .text ")"]
  | [embedded command] => [.text keyword, .text "(", .command command, .text ")"]
  | [other] => [.refusal (.unsupportedExpression (keyword ++ " over " ++ other.kind))]
  | _ => [.refusal (.unsupportedCall (keyword ++ " takes one subquery"))]

mutual

def parts : Expr → List Part
  | literal .null => [.text "NULL"]
  | literal (.source p) => [.source p]
  | column c => [.column c]
  | binary op left right =>
    match nullTest? op left right with
    | some .left =>
      groupedParts .nullTest left left.parts ++ [.text (nullTestText (op = .equal))]
    | some .right =>
      groupedParts .nullTest right right.parts ++ [.text (nullTestText (op = .equal))]
    | none =>
      groupedParts (.leftOf op) left left.parts ++
        .text op.text :: groupedParts (.rightOf op right) right right.parts
  | unary .not e => .text "NOT" :: groupedParts (.new unaryPrecedence .negation) e e.parts
  | unary .negate e => .text "-" :: groupedParts (.new unaryPrecedence .minus) e e.parts
  | unary .hasValue e => groupedParts .nullTest e e.parts ++ [.text (nullTestText false)]
  | call .like [value, pattern] =>
    groupedParts .like value value.parts ++
      .text "LIKE" :: groupedParts (.closed .like) pattern pattern.parts
  | call .exists_ args => existsParts "EXISTS" args
  | call .notExists args => existsParts "NOT EXISTS" args
  | call .count [] => [.text "COUNT(*)"]
  | call .count [e] => .text "COUNT(" :: e.parts ++ [.text ")"]
  | call .coalesce (e :: rest) =>
    .text "COALESCE(" :: Part.separated (e.parts :: partsOf rest) ++ [.text ")"]
  | call .any [e] => .text "ANY(" :: e.parts ++ [.text ")"]
  | call name args => [.refusal (unknownCall name args)]
  | array items => .text "ARRAY[" :: Part.separated (partsOf items) ++ [.text "]"]
  | subquery _ => [.refusal (.unsupportedExpression "subquery outside EXISTS / NOT EXISTS")]
  | embedded command => [.text "(", .command command, .text ")"]
  | delayed code => [.code code]

def partsOf : List Expr → List (List Part)
  | [] => []
  | e :: rest => e.parts :: partsOf rest

end

theorem partsOf_eq_map (es : List Expr) : partsOf es = es.map parts := by
  induction es with
  | nil => rfl
  | cons e es ih => rw [partsOf, ih, List.map_cons]

/-- A comparison with NULL on the side that is not tested. -/
theorem of_nullTest? {op : BinaryOp} {left right : Expr} {side : NullTest}
    (h : nullTest? op left right = some side) : (op = .equal ∨ op = .notEqual) ∧
      match side with
      | .left => right = null
      | .right => left = null := by
  have hnull : ∀ e : Expr, e.isNull = true → e = null := by
    intro e he
    unfold isNull at he
    split at he
    · rfl
    · cases he
  unfold nullTest? at h
  split at h
  next hop =>
    refine ⟨by simpa using hop, ?_⟩
    split at h
    next hright =>
      cases h
      exact hnull right hright
    next =>
      split at h
      next hleft =>
        cases h
        exact hnull left hleft
      next => cases h
  next => cases h

section Forall

variable {P : Part → Prop} {ps : List Part}

theorem forall_mem_separated (hcomma : P (.text ",")) {pss : List (List Part)} :
    (∀ p ∈ Part.separated pss, P p) ↔ ∀ ps ∈ pss, ∀ p ∈ ps, P p := by
  induction pss with
  | nil => simp [Part.separated]
  | cons ps pss ih =>
    cases pss with
    | nil => simp [Part.separated]
    | cons qs pss =>
      rw [Part.separated, List.forall_mem_append, List.forall_mem_cons, List.forall_mem_cons, ih]
      · simp [hcomma]
      · exact List.cons_ne_nil _ _

theorem forall_mem_groupedParts (hopen : P (.text "(")) (hclose : P (.text ")")) {place : Slot}
    {e : Expr} : (∀ p ∈ groupedParts place e ps, P p) ↔ ∀ p ∈ ps, P p := by
  unfold groupedParts
  split
  · simp [hopen, hclose, or_imp, forall_and]
  · rfl

end Forall

variable {s : Surroundings}

theorem piecesOf_eq_mapM (ctx : ExprContext) (es : List Expr) :
    piecesOf ctx es = es.mapM (pieces ctx) := by
  induction es with
  | nil => rfl
  | cons e es ih => rw [piecesOf, ih, List.mapM_cons]

theorem piecesOf_groupedParts (place : Slot) (e : Expr) (ps : List Part) :
    Part.piecesOf s (groupedParts place e ps) = (Part.piecesOf s ps).map (grouped place e) := by
  unfold groupedParts grouped
  split
  · rw [List.cons_append, Part.piecesOf_text_cons, Part.piecesOf_append_text]
    cases Part.piecesOf s ps <;> rfl
  · cases Part.piecesOf s ps <;> rfl

theorem existsPieces_eq (keyword : String) (args : List Expr) :
    existsPieces s.context keyword args = Part.piecesOf s (existsParts keyword args) := by
  unfold existsPieces existsParts
  split
  next arg =>
    cases arg with
    | subquery node =>
      simp only [existsOperand, Part.piecesOf, Part.pieces]
      cases s.context.subquery node <;> rfl
    | embedded command =>
      simp only [existsOperand, Part.piecesOf, Part.pieces]
      cases Piece.ofCommand command <;> rfl
    | _ => rfl
  next hone =>
    split
    · exact absurd rfl (hone _)
    · exact absurd rfl (hone _)
    · exact absurd rfl (hone _)
    · rfl

theorem pieces_call_eq {args : List Expr}
    (h : ∀ e ∈ args, e.pieces s.context = Part.piecesOf s e.parts) (name : CallName) :
    (call name args).pieces s.context = Part.piecesOf s (call name args).parts := by
  cases name with
  | like =>
    rcases args with _ | ⟨value, _ | ⟨pattern, _ | _⟩⟩
    · rfl
    · rfl
    · simp only [pieces, parts, h value (by simp), h pattern (by simp), Part.piecesOf_append,
        Part.piecesOf_text_cons, piecesOf_groupedParts]
      cases Part.piecesOf s value.parts <;> cases Part.piecesOf s pattern.parts <;> rfl
    · rfl
  | exists_ => exact existsPieces_eq "EXISTS" args
  | notExists => exact existsPieces_eq "NOT EXISTS" args
  | count =>
    rcases args with _ | ⟨e, _ | _⟩
    · rfl
    · simp only [pieces, parts, h e (by simp), List.cons_append, Part.piecesOf_text_cons,
        Part.piecesOf_append_text]
      cases Part.piecesOf s e.parts <;> rfl
    · rfl
  | coalesce =>
    cases args with
    | nil => rfl
    | cons e rest =>
      have hmap : piecesOf s.context (e :: rest) =
          (e.parts :: partsOf rest).mapM (Part.piecesOf s) := by
        rw [piecesOf_eq_mapM, partsOf_eq_map, ← List.map_cons, List.mapM_map]
        exact mapM_congr fun e he => h e he
      simp only [pieces, parts, hmap, List.cons_append, Part.piecesOf_text_cons,
        Part.piecesOf_append_text, Part.piecesOf_separated]
      cases (e.parts :: partsOf rest).mapM (Part.piecesOf s) <;> rfl
  | any =>
    rcases args with _ | ⟨e, _ | _⟩
    · rfl
    · simp only [pieces, parts, h e (by simp), List.cons_append, Part.piecesOf_text_cons,
        Part.piecesOf_append_text]
      cases Part.piecesOf s e.parts <;> rfl
    · rfl
  | other name => rfl

/-- An expression is written as its parts are, one after the other. -/
theorem pieces_eq_piecesOf_parts (e : Expr) :
    e.pieces s.context = Part.piecesOf s e.parts := by
  induction e with
  | literal l => cases l <;> rfl
  | column c =>
    simp only [pieces, parts, Part.piecesOf, Part.pieces]
    cases s.context.columnReference c <;> rfl
  | binary op left right hl hr =>
    cases hn : nullTest? op left right with
    | none =>
      simp only [pieces, parts, hn, hl, hr, Part.piecesOf_append, Part.piecesOf_text_cons,
        piecesOf_groupedParts]
      cases Part.piecesOf s left.parts <;> cases Part.piecesOf s right.parts <;> rfl
    | some side =>
      cases side
      · simp only [pieces, parts, hn, hl, Part.piecesOf_append_text, piecesOf_groupedParts]
        cases Part.piecesOf s left.parts <;> rfl
      · simp only [pieces, parts, hn, hr, Part.piecesOf_append_text, piecesOf_groupedParts]
        cases Part.piecesOf s right.parts <;> rfl
  | unary op e he =>
    cases op <;> simp only [pieces, parts, he, Part.piecesOf_append_text, Part.piecesOf_text_cons,
      piecesOf_groupedParts] <;> cases Part.piecesOf s e.parts <;> rfl
  | call name args hargs => exact pieces_call_eq hargs name
  | array items hitems =>
    have hmap : piecesOf s.context items = (partsOf items).mapM (Part.piecesOf s) := by
      rw [piecesOf_eq_mapM, partsOf_eq_map, List.mapM_map]
      exact mapM_congr fun e he => hitems e he
    simp only [pieces, parts, hmap, List.cons_append, Part.piecesOf_text_cons,
      Part.piecesOf_append_text, Part.piecesOf_separated]
    cases (partsOf items).mapM (Part.piecesOf s) <;> rfl
  | embedded command =>
    simp only [pieces, parts, Part.piecesOf_text_cons, Part.piecesOf, Part.pieces]
    cases Piece.ofCommand command <;> rfl
  | subquery _ => rfl
  | delayed _ => rfl

end Expr

end DeclarativeSql
