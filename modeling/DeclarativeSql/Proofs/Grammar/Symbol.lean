import DeclarativeSql.Proofs.Grammar.Token

/-!
# Symbols

What an expression is written as, down to the arguments of calls and the items of arrays, with
parentheses where an operand needs them. The text of an expression is that of its symbols, character
for character; only literals, columns, commands and subqueries are left whole.
-/
namespace DeclarativeSql

/-- What is written as a whole. Inside of EXISTS a command has no parentheses of its own. -/
inductive Leaf
  | literal (literal : Literal)
  | column (column : Column)
  /-- COUNT(*) -/
  | rows
  | embedded (command : Command)
  | delayed (code : CodeId)
  | subquery (node : NodeId)
  | bare (command : Command)

namespace Leaf

def expr : Leaf → Expr
  | literal l => .literal l
  | column c => .column c
  | rows => .call .count []
  | embedded command | bare command => .embedded command
  | delayed code => .delayed code
  | subquery node => .subquery node

def pieces (ctx : ExprContext) : Leaf → Pieces
  | subquery node => ctx.subquery node
  | bare command => do return [← Piece.ofCommand command]
  | l => l.expr.pieces ctx

end Leaf

/-- What stands between two operands. -/
inductive Connective
  | op (op : BinaryOp)
  | like
  deriving DecidableEq

namespace Connective

def text : Connective → String
  | op o => o.text
  | like => "LIKE"

def expr : Connective → (left right : Expr) → Expr
  | op o, left, right => .binary o left right
  | like, left, right => .call .like [left, right]

end Connective

/-- What encloses operands of its own. -/
inductive Bracket
  | exists_
  | count
  | coalesce
  | any
  | array
  deriving DecidableEq

namespace Bracket

def texts : Bracket → List String
  | exists_ => ["EXISTS", "("]
  | count => ["COUNT("]
  | coalesce => ["COALESCE("]
  | any => ["ANY("]
  | array => ["ARRAY["]

def isArray : Bracket → Bool
  | array => true
  | _ => false

def expr : Bracket → List Expr → Expr
  | exists_, items => .call .exists_ items
  | count, items => .call .count items
  | coalesce, items => .call .coalesce items
  | any, items => .call .any items
  | array, items => .array items

end Bracket

/-- A minus sign is one symbol, whether it negates or subtracts. -/
inductive Symbol
  | leaf (leaf : Leaf)
  | connective (c : Connective)
  | not
  | nullTest (isNull : Bool)
  | opening
  | start (bracket : Bracket)
  | comma
  | closing (isArray : Bool)

namespace Symbol

def minus : Symbol := connective (.op .subtract)

def pieces (ctx : ExprContext) : Symbol → Pieces
  | leaf l => l.pieces ctx
  | connective c => .ok [.text c.text]
  | not => .ok [.text "NOT"]
  | nullTest isNull => .ok [.text (Expr.nullTestText isNull)]
  | opening => .ok [.text "("]
  | start b => .ok (b.texts.map .text)
  | comma => .ok [.text ","]
  | closing isArray => .ok [.text (if isArray then "]" else ")")]

/-- A comma between each two of the lists. -/
def separated : List (List Symbol) → List Symbol
  | [] => []
  | [part] => part
  | part :: rest => part ++ comma :: separated rest

def bracketed (b : Bracket) (parts : List (List Symbol)) : List Symbol :=
  start b :: separated parts ++ [closing b.isArray]

end Symbol

namespace Expr

def enclosed (s : Slot) (e : Expr) (symbols : List Symbol) : List Symbol :=
  if s.groups e then .opening :: symbols ++ [Symbol.closing false] else symbols

/-- What EXISTS is asked about. -/
def querySymbols : Expr → List Symbol
  | subquery node => [.leaf (.subquery node)]
  | embedded command => [.leaf (.bare command)]
  | _ => []

mutual

/-- The symbols of an expression that has a text. -/
def symbols : Expr → List Symbol
  | literal l => [.leaf (.literal l)]
  | column c => [.leaf (.column c)]
  | binary op left right =>
    match nullTest? op left right with
    | some .left => enclosed .nullTest left left.symbols ++ [.nullTest (op = .equal)]
    | some .right => enclosed .nullTest right right.symbols ++ [.nullTest (op = .equal)]
    | none =>
      enclosed (.leftOf op) left left.symbols ++
        .connective (.op op) :: enclosed (.rightOf op right) right right.symbols
  | unary .not e => .not :: enclosed (.new unaryPrecedence .negation) e e.symbols
  | unary .negate e => .minus :: enclosed (.new unaryPrecedence .minus) e e.symbols
  | unary .hasValue e => enclosed .nullTest e e.symbols ++ [.nullTest false]
  | call .like [value, pattern] =>
    enclosed .like value value.symbols ++
      .connective .like :: enclosed (.closed .like) pattern pattern.symbols
  | call .exists_ [arg] => Symbol.bracketed .exists_ [querySymbols arg]
  | call .notExists [arg] => .not :: Symbol.bracketed .exists_ [querySymbols arg]
  | call .count [] => [.leaf .rows]
  | call .count [e] => Symbol.bracketed .count [e.symbols]
  | call .coalesce (e :: rest) => Symbol.bracketed .coalesce (symbolsOf (e :: rest))
  | call .any [e] => Symbol.bracketed .any [e.symbols]
  | call _ _ => []
  | array items => Symbol.bracketed .array (symbolsOf items)
  | subquery _ => []
  | embedded command => [.leaf (.embedded command)]
  | delayed code => [.leaf (.delayed code)]

def symbolsOf : List Expr → List (List Symbol)
  | [] => []
  | e :: rest => e.symbols :: symbolsOf rest

end

end Expr

variable {ctx : ExprContext}

/-- The symbols have a text, and it is the same as that of the pieces. -/
def Symbol.Spell (ctx : ExprContext) (symbols : List Symbol) (ps : List Piece) : Prop :=
  ∃ qss, List.Forall₂ (fun t qs => t.pieces ctx = .ok qs) symbols qss ∧
    Piece.SameText ps qss.flatten

namespace Symbol.Spell

theorem nil : Spell ctx [] [] := ⟨[], .nil, .refl []⟩

theorem congr {ts : List Symbol} {ps qs : List Piece} (h : Piece.SameText ps qs)
    (hs : Spell ctx ts qs) : Spell ctx ts ps := by
  obtain ⟨qss, hqss, hqs⟩ := hs
  exact ⟨qss, hqss, fun b => (h b).trans (hqs b)⟩

theorem single {t : Symbol} {ps : List Piece} (h : t.pieces ctx = .ok ps) : Spell ctx [t] ps :=
  ⟨[ps], .cons h .nil, by simpa using .refl ps⟩

theorem append {ts us : List Symbol} {ps qs : List Piece} (ht : Spell ctx ts ps)
    (hu : Spell ctx us qs) : Spell ctx (ts ++ us) (ps ++ qs) := by
  obtain ⟨pss, hpss, hps⟩ := ht
  obtain ⟨qss, hqss, hqs⟩ := hu
  refine ⟨pss ++ qss, List.rel_append hpss hqss, ?_⟩
  rw [List.flatten_append]
  exact hps.append hqs

theorem cons {t : Symbol} {ts : List Symbol} {p : Piece} {ps : List Piece}
    (h : t.pieces ctx = .ok [p]) (hs : Spell ctx ts ps) : Spell ctx (t :: ts) (p :: ps) :=
  (single h).append hs

theorem enclosed {s : Expr.Slot} {e : Expr} {ts : List Symbol} {ps : List Piece}
    (h : Spell ctx ts ps) : Spell ctx (e.enclosed s ts) (e.grouped s ps) := by
  unfold Expr.enclosed Expr.grouped
  split
  · exact (cons rfl h).append (single rfl)
  · exact h

theorem separated {parts : List (List Symbol)} {pss : List (List Piece)}
    (h : List.Forall₂ (Spell ctx) parts pss) :
    Spell ctx (separated parts) (Piece.separated pss) := by
  induction h with
  | nil => exact nil
  | @cons part ps parts pss hp hs ih =>
    cases hs with
    | nil => exact hp
    | cons => exact hp.append (cons rfl ih)

theorem bracketed (b : Bracket) {parts : List (List Symbol)} {pss : List (List Piece)}
    (h : List.Forall₂ (Spell ctx) parts pss) :
    Spell ctx (bracketed b parts) (b.texts.map .text ++ Piece.separated pss ++
      [Piece.text (if b.isArray then "]" else ")")]) := by
  rw [List.append_assoc]
  exact (single rfl).append ((separated h).append (single rfl))

end Symbol.Spell

namespace Expr

open DeclarativeSql.Symbol (Spell)

section Calls

variable {args : List Expr} {ps : List Piece}

theorem exists_of_existsPieces {keyword : String} (h : existsPieces ctx keyword args = .ok ps) :
    ∃ arg qs, args = [arg] ∧ existsOperand ctx keyword arg = .ok qs ∧
      ps = .text keyword :: .text "(" :: qs ++ [Piece.text ")"] := by
  rcases args with _ | ⟨arg, _ | ⟨_, _⟩⟩
  · cases h
  · simp only [existsPieces, bind_eq_ok, pure_eq_ok] at h
    obtain ⟨qs, hqs, rfl⟩ := h
    exact ⟨arg, qs, rfl, hqs, rfl⟩
  · cases h

theorem exists_of_pieces_like (h : (call .like args).pieces ctx = .ok ps) :
    ∃ value pattern vs qs, args = [value, pattern] ∧ value.pieces ctx = .ok vs ∧
      pattern.pieces ctx = .ok qs ∧
      ps = grouped .like value vs ++ .text "LIKE" :: grouped (.closed .like) pattern qs := by
  rcases args with _ | ⟨value, _ | ⟨pattern, _ | ⟨_, _⟩⟩⟩
  · cases h
  · cases h
  · simp only [pieces, bind_eq_ok, pure_eq_ok] at h
    obtain ⟨vs, hvs, qs, hqs, rfl⟩ := h
    exact ⟨value, pattern, vs, qs, rfl, hvs, hqs, rfl⟩
  · cases h

theorem exists_of_pieces_count (h : (call .count args).pieces ctx = .ok ps) :
    args = [] ∨ ∃ e qs, args = [e] ∧ e.pieces ctx = .ok qs ∧
      ps = .text "COUNT(" :: qs ++ [Piece.text ")"] := by
  rcases args with _ | ⟨e, _ | ⟨_, _⟩⟩
  · exact .inl rfl
  · simp only [pieces, bind_eq_ok, pure_eq_ok] at h
    obtain ⟨qs, hqs, rfl⟩ := h
    exact .inr ⟨e, qs, rfl, hqs, rfl⟩
  · cases h

theorem exists_of_pieces_coalesce (h : (call .coalesce args).pieces ctx = .ok ps) :
    ∃ e rest pss, args = e :: rest ∧ piecesOf ctx args = .ok pss ∧
      ps = .text "COALESCE(" :: Piece.separated pss ++ [Piece.text ")"] := by
  rcases args with _ | ⟨e, rest⟩
  · cases h
  · simp only [pieces, bind_eq_ok, pure_eq_ok] at h
    obtain ⟨pss, hpss, rfl⟩ := h
    exact ⟨e, rest, pss, rfl, hpss, rfl⟩

theorem exists_of_pieces_any (h : (call .any args).pieces ctx = .ok ps) :
    ∃ e qs, args = [e] ∧ e.pieces ctx = .ok qs ∧ ps = .text "ANY(" :: qs ++ [Piece.text ")"] := by
  rcases args with _ | ⟨e, _ | ⟨_, _⟩⟩
  · cases h
  · simp only [pieces, bind_eq_ok, pure_eq_ok] at h
    obtain ⟨qs, hqs, rfl⟩ := h
    exact ⟨e, qs, rfl, hqs, rfl⟩
  · cases h

theorem exists_pieces_of_piecesOf {items : List Expr} {pss : List (List Piece)}
    (h : piecesOf ctx items = .ok pss) : ∀ e ∈ items, ∃ ps, e.pieces ctx = .ok ps := by
  induction items generalizing pss with
  | nil => simp
  | cons e items ih =>
    simp only [piecesOf, bind_eq_ok, pure_eq_ok] at h
    obtain ⟨ps, hps, pss, hpss, -⟩ := h
    exact List.forall_mem_cons.mpr ⟨⟨ps, hps⟩, ih hpss⟩

end Calls

theorem spell_querySymbols {keyword : String} {arg : Expr} {ps : List Piece}
    (h : existsOperand ctx keyword arg = .ok ps) : Spell ctx (querySymbols arg) ps := by
  cases arg with
  | subquery node => exact .single h
  | embedded command => exact .single h
  | _ => cases h

theorem spell_exists {args : List Expr} {ps : List Piece}
    (h : existsPieces ctx "EXISTS" args = .ok ps) : Spell ctx (call .exists_ args).symbols ps := by
  obtain ⟨arg, qs, rfl, hqs, rfl⟩ := exists_of_existsPieces h
  simpa [symbols, Bracket.texts, Bracket.isArray, Piece.separated] using
    Spell.bracketed .exists_ (.cons (spell_querySymbols hqs) .nil)

/-- One text of two words comes out as two symbols do. -/
theorem spell_notExists {args : List Expr} {ps : List Piece}
    (h : existsPieces ctx "NOT EXISTS" args = .ok ps) :
    Spell ctx (call .notExists args).symbols ps := by
  obtain ⟨arg, qs, rfl, hqs, rfl⟩ := exists_of_existsPieces h
  have hexists : Spell ctx (call .exists_ [arg]).symbols
      (.text "EXISTS" :: .text "(" :: qs ++ [Piece.text ")"]) := by
    apply spell_exists
    rw [existsPieces, existsOperand_keyword "EXISTS" hqs]
    rfl
  have hwords := Piece.sameText_words.append (.refl (.text "(" :: qs ++ [Piece.text ")"]))
  exact .congr hwords (.cons rfl hexists)

theorem forall₂_spell_symbols {items : List Expr} {pss : List (List Piece)}
    (hi : ∀ e ∈ items, ∀ {ps}, e.pieces ctx = .ok ps → Spell ctx e.symbols ps)
    (h : piecesOf ctx items = .ok pss) :
    List.Forall₂ (Spell ctx) (symbolsOf items) pss := by
  induction items generalizing pss with
  | nil =>
    rw [piecesOf, Except.ok.injEq] at h
    subst h
    exact .nil
  | cons e items ih =>
    simp only [piecesOf, bind_eq_ok, pure_eq_ok] at h
    obtain ⟨ps, hps, pss, hpss, rfl⟩ := h
    exact .cons (hi e (by simp) hps) (ih (fun e he => hi e (by simp [he])) hpss)

theorem spell_symbols {e : Expr} {ps : List Piece} (h : e.pieces ctx = .ok ps) :
    Spell ctx e.symbols ps := by
  induction e generalizing ps with
  | literal l => exact .single h
  | column c => exact .single h
  | binary op left right hl hr =>
    cases hn : nullTest? op left right with
    | none =>
      simp only [pieces, hn, bind_eq_ok, pure_eq_ok] at h
      obtain ⟨ls, hls, rs, hrs, rfl⟩ := h
      simp only [symbols, hn]
      exact (hl hls).enclosed.append (.cons rfl (hr hrs).enclosed)
    | some side =>
      cases side <;> simp only [pieces, hn, bind_eq_ok, pure_eq_ok] at h <;>
        obtain ⟨qs, hqs, rfl⟩ := h <;> simp only [symbols, hn]
      · exact (hl hqs).enclosed.append (.single rfl)
      · exact (hr hqs).enclosed.append (.single rfl)
  | unary op e he =>
    cases op <;> simp only [pieces, bind_eq_ok, pure_eq_ok] at h <;>
      obtain ⟨qs, hqs, rfl⟩ := h
    · exact .cons rfl (he hqs).enclosed
    · exact .cons rfl (he hqs).enclosed
    · exact (he hqs).enclosed.append (.single rfl)
  | call name args hargs =>
    cases name with
    | like =>
      obtain ⟨value, pattern, vs, qs, rfl, hvs, hqs, rfl⟩ := exists_of_pieces_like h
      exact (hargs value (by simp) hvs).enclosed.append
        (.cons rfl (hargs pattern (by simp) hqs).enclosed)
    | exists_ => exact spell_exists h
    | notExists => exact spell_notExists h
    | count =>
      rcases exists_of_pieces_count h with rfl | ⟨e, qs, rfl, hqs, rfl⟩
      · exact .single h
      · exact .bracketed .count (.cons (hargs e (by simp) hqs) .nil)
    | coalesce =>
      obtain ⟨e, rest, pss, rfl, hpss, rfl⟩ := exists_of_pieces_coalesce h
      exact .bracketed .coalesce (forall₂_spell_symbols hargs hpss)
    | any =>
      obtain ⟨e, qs, rfl, hqs, rfl⟩ := exists_of_pieces_any h
      exact .bracketed .any (.cons (hargs e (by simp) hqs) .nil)
    | other => cases h
  | array items hitems =>
    simp only [pieces, bind_eq_ok, pure_eq_ok] at h
    obtain ⟨pss, hpss, rfl⟩ := h
    exact .bracketed .array (forall₂_spell_symbols hitems hpss)
  | subquery node => cases h
  | embedded command => exact .single h
  | delayed code => exact .single h

end Expr

end DeclarativeSql
