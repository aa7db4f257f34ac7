import DeclarativeSql.Expr.Pieces
import DeclarativeSql.Proofs.Grammar.Reading
import DeclarativeSql.Proofs.Results
import Mathlib.Data.List.Forall2

/-!
# Tokens

The tokens that are written for a reading, with parentheses where the two orders of operators ask
for them. An expression that has a text is written as the tokens of its reading, character for
character.
-/
namespace DeclarativeSql

/-- A minus sign is one token, whether it negates or subtracts. -/
inductive Token
  | atom (e : Expr)
  | op (op : BinaryOp)
  | not
  | nullTest (isNull : Bool)
  | like
  | opening
  | closing
  | arrayOpening
  | comma
  | arrayClosing

namespace Token

/-- A comma between each two of the lists. -/
def separated : List (List Token) → List Token
  | [] => []
  | [part] => part
  | part :: rest => part ++ comma :: separated rest

/-- The pieces that a token is written as. -/
def pieces (ctx : ExprContext) : Token → Pieces
  | atom e => e.pieces ctx
  | op o => .ok [.text o.text]
  | not => .ok [.text "NOT"]
  | nullTest isNull => .ok [.text (Expr.nullTestText isNull)]
  | like => .ok [.text "LIKE"]
  | opening => .ok [.text "("]
  | closing => .ok [.text ")"]
  | arrayOpening => .ok [.text "ARRAY["]
  | comma => .ok [.text ","]
  | arrayClosing => .ok [.text "]"]

def piecesOf (ctx : ExprContext) : List Token → Pieces
  | [] => .ok []
  | t :: rest => do return (← t.pieces ctx) ++ (← piecesOf ctx rest)

end Token

namespace Reading

def enclosed (s : Expr.Slot) (t : Reading) (tokens : List Token) : List Token :=
  if s.encloses t then .opening :: tokens ++ [Token.closing] else tokens

mutual

/-- The tokens of a reading. Parentheses are decided operand by operand. -/
def tokens : Reading → List Token
  | atom e => [.atom e]
  | binary op left right =>
    enclosed (.leftOf op) left left.tokens ++
      .op op :: enclosed (.before op right) right right.tokens
  | not t => .not :: enclosed (.new Expr.unaryPrecedence .negation) t t.tokens
  | negate t => .op .subtract :: enclosed (.new Expr.unaryPrecedence .minus) t t.tokens
  | nullTest isNull t => enclosed .nullTest t t.tokens ++ [.nullTest isNull]
  | like value pattern =>
    enclosed .like value value.tokens ++
      .like :: enclosed (.closed .like) pattern pattern.tokens
  | array items => .arrayOpening :: Token.separated (tokensOf items) ++ [.arrayClosing]

def tokensOf : List Reading → List (List Token)
  | [] => []
  | t :: rest => t.tokens :: tokensOf rest

end

end Reading

namespace Piece

/-- Both leave the same text and the same parameters in every buffer. -/
def SameText (ps qs : List Piece) : Prop := ∀ b, writeAll ps b = writeAll qs b

theorem SameText.refl (ps : List Piece) : SameText ps ps := fun _ => rfl

theorem writeAll_append (ps qs : List Piece) (b : CodeBuffer) :
    writeAll (ps ++ qs) b = match writeAll ps b with
      | (.error e, b) => (.error e, b)
      | (.ok (), b) => writeAll qs b := by
  induction ps generalizing b with
  | nil => rfl
  | cons p ps ih =>
    rw [List.cons_append, writeAll, writeAll]
    split
    · rfl
    · exact ih _

theorem SameText.append {ps ps' qs qs' : List Piece} (hp : SameText ps ps')
    (hq : SameText qs qs') : SameText (ps ++ qs) (ps' ++ qs') := by
  intro b
  rw [writeAll_append, writeAll_append, hp b]
  split
  · rfl
  · exact hq _

end Piece

namespace Spacing

/-- The gap before a token depends on its first character only. -/
theorem exists_join_eq (s : String) {token other : String} (h : token.front? = other.front?) :
    ∃ t, join s token = t ++ token ∧ join s other = t ++ other := by
  rw [join, join, h]
  split
  · split
    · exact ⟨s ++ " ", rfl, rfl⟩
    · exact ⟨s, rfl, rfl⟩
  · exact ⟨s, rfl, rfl⟩

theorem join_words (t : String) : join (t ++ "NOT") "EXISTS" = t ++ "NOT EXISTS" := by
  have hb : (t ++ "NOT").back? = some 'T' := by simp [String.back?_eq]
  have he : "EXISTS".front? = some 'E' := by simp [String.front?_eq]
  have hne : isNeeded 'T' 'E' = true := by decide
  rw [join, hb, he]
  simp only [hne, if_true, String.append_assoc]
  rfl

end Spacing

namespace Segment

theorem appendToken_ne_nil (token : String) (segments : List Segment) :
    appendToken token segments ≠ [] := by
  fun_cases appendToken token segments <;> simp

theorem appendToken_words (segments : List Segment) :
    appendToken "EXISTS" (appendToken "NOT" segments) = appendToken "NOT EXISTS" segments := by
  fun_induction appendToken "NOT" segments with
  | case1 =>
    have h := Spacing.join_words ""
    rw [String.empty_append, String.empty_append] at h
    simp only [appendToken, h]
  | case2 s =>
    have hfront : "NOT".front? = "NOT EXISTS".front? := by simp [String.front?_eq]
    obtain ⟨t, hn, hw⟩ := Spacing.exists_join_eq s hfront
    simp only [appendToken, hn, hw, Spacing.join_words]
  | case3 s rest h ih =>
    rw [appendToken, appendToken, ih]
    · exact h
    · exact fun _ _ he => appendToken_ne_nil _ _ he

end Segment

theorem Piece.sameText_words : SameText [.text "NOT EXISTS"] [.text "NOT", .text "EXISTS"] := by
  intro b
  simp [writeAll, write, CodeBuffer.append, Segment.appendToken_words]

variable {ctx : ExprContext}

/-- The tokens have a text, and it is the same as that of the pieces. -/
def Token.Spell (ctx : ExprContext) (tokens : List Token) (ps : List Piece) : Prop :=
  ∃ qs, Token.piecesOf ctx tokens = .ok qs ∧ Piece.SameText ps qs

namespace Token.Spell

theorem single {t : Token} {ps : List Piece} (h : t.pieces ctx = .ok ps) : Spell ctx [t] ps :=
  ⟨ps, by simp [piecesOf, h, bind, Except.bind, pure, Except.pure], .refl ps⟩

theorem append {ts us : List Token} {ps qs : List Piece} (ht : Spell ctx ts ps)
    (hu : Spell ctx us qs) : Spell ctx (ts ++ us) (ps ++ qs) := by
  obtain ⟨ps', hp, hps⟩ := ht
  obtain ⟨qs', hq, hqs⟩ := hu
  refine ⟨ps' ++ qs', ?_, hps.append hqs⟩
  clear hps
  induction ts generalizing ps' with
  | nil =>
    rw [piecesOf, Except.ok.injEq] at hp
    subst hp
    exact hq
  | cons t ts ih =>
    simp only [piecesOf, bind_eq_ok, pure_eq_ok] at hp
    obtain ⟨xs, hx, ys, hy, rfl⟩ := hp
    simp only [List.cons_append, piecesOf, bind_eq_ok, pure_eq_ok]
    exact ⟨xs, hx, _, ih _ hy, by simp⟩

theorem cons {t : Token} {ts : List Token} {p : Piece} {ps : List Piece}
    (h : t.pieces ctx = .ok [p]) (hs : Spell ctx ts ps) : Spell ctx (t :: ts) (p :: ps) :=
  (single h).append hs

theorem enclosed {s : Expr.Slot} {e : Expr} {t : Reading} {ts : List Token} {ps : List Piece}
    (he : s.encloses t = s.groups e) (h : Spell ctx ts ps) :
    Spell ctx (t.enclosed s ts) (Expr.grouped s e ps) := by
  unfold Reading.enclosed Expr.grouped
  rw [he]
  split
  · exact (cons rfl h).append (single rfl)
  · exact h

theorem separated {parts : List (List Token)} {pss : List (List Piece)}
    (h : List.Forall₂ (Spell ctx) parts pss) :
    Spell ctx (Token.separated parts) (Piece.separated pss) := by
  induction h with
  | nil => exact ⟨[], rfl, .refl []⟩
  | @cons part ps parts pss hp hs ih =>
    cases hs with
    | nil => exact hp
    | cons => exact hp.append (cons rfl ih)

end Token.Spell

namespace Expr

theorem precedence_level_reading {e : Expr} {ps : List Piece} (h : e.pieces ctx = .ok ps) :
    e.reading.precedence = e.precedence ∧ e.reading.level = e.level := by
  cases e with
  | binary op left right =>
    cases hn : nullTest? op left right with
    | none => simp [reading, precedence, level, hn, Reading.precedence, Reading.level]
    | some side =>
      cases side <;> simp [reading, precedence, level, hn, Reading.precedence, Reading.level]
  | unary op e => cases op <;> exact ⟨rfl, rfl⟩
  | call name args =>
    cases name with
    | like =>
      match args, h with
      | [_, _], _ => exact ⟨rfl, rfl⟩
    | _ => exact ⟨rfl, rfl⟩
  | _ => exact ⟨rfl, rfl⟩

theorem encloses_reading {e : Expr} {ps : List Piece} (h : e.pieces ctx = .ok ps) (s : Slot) :
    s.encloses e.reading = s.groups e := by
  obtain ⟨hp, hl⟩ := precedence_level_reading h
  rw [Slot.encloses, Slot.groups, hp, hl]

theorem isHeadedBy_reading (op : BinaryOp) (e : Expr) :
    e.reading.isHeadedBy op = Slot.isHeadedBy op e := by
  cases e with
  | binary child left right =>
    cases hn : nullTest? child left right with
    | none => simp [reading, hn, Reading.isHeadedBy, Slot.isHeadedBy]
    | some side => cases side <;> simp [reading, hn, Reading.isHeadedBy, Slot.isHeadedBy]
  | unary op e => cases op <;> rfl
  | call name args =>
    unfold reading
    split <;> first | rfl | simp_all
  | _ => rfl

theorem before_reading (op : BinaryOp) (e : Expr) :
    Slot.before op e.reading = Slot.rightOf op e := by
  rw [Slot.before, Slot.rightOf, Reading.joinsRight, isHeadedBy_reading]

/-- The keyword before a subquery only shows in refusals. -/
theorem existsOperand_keyword {keyword : String} (other : String) {e : Expr} {ps : List Piece}
    (h : existsOperand ctx keyword e = .ok ps) : existsOperand ctx other e = .ok ps := by
  cases e <;> first | exact h | simp [existsOperand] at h

theorem forall₂_spell_readings {items : List Expr} {pss : List (List Piece)}
    (hi : ∀ e ∈ items, ∀ {ps}, e.pieces ctx = .ok ps → Token.Spell ctx e.reading.tokens ps)
    (h : piecesOf ctx items = .ok pss) :
    List.Forall₂ (Token.Spell ctx) (Reading.tokensOf (readings items)) pss := by
  induction items generalizing pss with
  | nil =>
    rw [piecesOf, Except.ok.injEq] at h
    subst h
    exact .nil
  | cons e items ih =>
    simp only [piecesOf, bind_eq_ok, pure_eq_ok] at h
    obtain ⟨ps, hps, pss, hpss, rfl⟩ := h
    exact .cons (hi e (by simp) hps) (ih (fun e he => hi e (by simp [he])) hpss)

/-- The pieces of an expression are the text of the tokens of its reading. -/
theorem spell_reading {e : Expr} {ps : List Piece} (h : e.pieces ctx = .ok ps) :
    Token.Spell ctx e.reading.tokens ps := by
  induction e generalizing ps with
  | binary op left right hl hr =>
    cases hn : nullTest? op left right with
    | none =>
      simp only [pieces, hn, bind_eq_ok, pure_eq_ok] at h
      obtain ⟨ls, hls, rs, hrs, rfl⟩ := h
      simp only [reading, hn, Reading.tokens]
      rw [before_reading]
      exact ((hl hls).enclosed (encloses_reading hls _)).append
        (.cons rfl ((hr hrs).enclosed (encloses_reading hrs _)))
    | some side =>
      cases side <;> simp only [pieces, hn, bind_eq_ok, pure_eq_ok] at h <;>
        obtain ⟨qs, hqs, rfl⟩ := h <;> simp only [reading, hn, Reading.tokens]
      · exact ((hl hqs).enclosed (encloses_reading hqs _)).append (.single rfl)
      · exact ((hr hqs).enclosed (encloses_reading hqs _)).append (.single rfl)
  | unary op e he =>
    cases op <;> simp only [pieces, bind_eq_ok, pure_eq_ok] at h <;>
      obtain ⟨qs, hqs, rfl⟩ := h <;> simp only [reading, Reading.tokens]
    · exact .cons rfl ((he hqs).enclosed (encloses_reading hqs _))
    · exact .cons rfl ((he hqs).enclosed (encloses_reading hqs _))
    · exact ((he hqs).enclosed (encloses_reading hqs _)).append (.single rfl)
  | call name args hargs =>
    cases name with
    | like =>
      match args, h with
      | [value, pattern], h =>
        simp only [pieces, bind_eq_ok, pure_eq_ok] at h
        obtain ⟨vs, hvs, qs, hqs, rfl⟩ := h
        exact (((hargs value (by simp)) hvs).enclosed (encloses_reading hvs _)).append
          (.cons rfl (((hargs pattern (by simp)) hqs).enclosed (encloses_reading hqs _)))
    | notExists =>
      match args, h with
      | [arg], h =>
        simp only [pieces, existsPieces, bind_eq_ok, pure_eq_ok] at h
        obtain ⟨qs, hqs, rfl⟩ := h
        have hs := Piece.sameText_words.append (.refl (.text "(" :: qs ++ [Piece.text ")"]))
        have ht : (reading (call .notExists [arg])).tokens =
            [.not, .atom (call .exists_ [arg])] := rfl
        have he : existsPieces ctx "EXISTS" [arg] =
            .ok (.text "EXISTS" :: .text "(" :: qs ++ [Piece.text ")"]) := by
          rw [existsPieces, existsOperand_keyword "EXISTS" hqs]
          rfl
        refine ⟨_, ?_, hs⟩
        simp [ht, Token.piecesOf, Token.pieces, pieces, he, bind, Except.bind, pure, Except.pure]
    | _ => exact .single h
  | array items hitems =>
    simp only [pieces, bind_eq_ok, pure_eq_ok] at h
    obtain ⟨pss, hpss, rfl⟩ := h
    simp only [reading, Reading.tokens]
    exact .cons rfl (.append (.separated (forall₂_spell_readings hitems hpss)) (.single rfl))
  | _ => exact .single h

end Expr

end DeclarativeSql
