import DeclarativeSql.Proofs.Rendering.Leaves
import DeclarativeSql.Proofs.Scanning.Flow
import DeclarativeSql.Proofs.Scanning.Writing

/-!
# Tokens of expressions

The parts of an expression are operators between operands. An operator takes in a sign if its right
operand stands without parentheses and begins with a prefix minus.
-/
namespace DeclarativeSql

open Content (Flow Quiet IsAtom)

namespace Expr

/-- A prefix minus is written first. -/
def opensWithMinus : Expr → Bool
  | unary .negate _ => true
  | unary .hasValue e => !Slot.nullTest.groups e && e.opensWithMinus
  | binary op left right =>
    match nullTest? op left right with
    | some .left => !Slot.nullTest.groups left && left.opensWithMinus
    | some .right => !Slot.nullTest.groups right && right.opensWithMinus
    | none => !(Slot.leftOf op).groups left && left.opensWithMinus
  | call .like [value, _] => !Slot.like.groups value && value.opensWithMinus
  | _ => false

mutual

/-- No operator is followed by a prefix minus that it would take in. -/
def keepsSignsApart : Expr → Bool
  | binary op left right =>
    left.keepsSignsApart && right.keepsSignsApart &&
      !(op.absorbsSign && !(Slot.rightOf op right).groups right && right.opensWithMinus)
  | unary _ e => e.keepsSignsApart
  | call _ args => keepSignsApart args
  | array items => keepSignsApart items
  | _ => true

def keepSignsApart : List Expr → Bool
  | [] => true
  | e :: rest => e.keepsSignsApart && keepSignsApart rest

end

theorem keepSignsApart_iff {es : List Expr} :
    keepSignsApart es = true ↔ ∀ e ∈ es, e.keepsSignsApart = true := by
  induction es with
  | nil => simp [keepSignsApart]
  | cons e es ih => simp [keepSignsApart, ih]

end Expr

namespace Part

open Scanner (marks)

variable (fill : CodeId → Content) (s : Surroundings)

/-- The part is written as tokens that do not meet others with operator characters. -/
def IsNeat (p : Part) : Prop :=
  ∀ ⦃qs⦄, p.pieces s = .ok qs → qs ≠ [] ∧ ∀ q ∈ qs, IsAtom (q.content fill)

/-- The parts are written as a sequence of tokens, in which no sign is taken in exactly if `apart`
holds. -/
def Follows (ps : List Part) (apart : Prop) : Prop :=
  ∀ ⦃qs⦄, piecesOf s ps = .ok qs →
    Flow (qs.map (Piece.content fill)) ∧ (Quiet (qs.map (Piece.content fill)) ↔ apart)

/-- There are such tokens, and the first one is a minus sign exactly if `opens` holds. -/
def Reads (ps : List Part) (apart opens : Prop) : Prop :=
  ∀ ⦃qs⦄, piecesOf s ps = .ok qs →
    Flow (qs.map (Piece.content fill)) ∧ (Quiet (qs.map (Piece.content fill)) ↔ apart) ∧
      ∃ c, (qs.map (Piece.content fill)).head? = some c ∧ (c = Content.minus ↔ opens)

variable {fill s} {p : Part} {ps qs : List Part} {apart apart' opens opens' : Prop}
  {token : String}

theorem piecesOf_append_eq_ok_iff {rs : List Piece} : piecesOf s (ps ++ qs) = .ok rs ↔
    ∃ xs ys, piecesOf s ps = .ok xs ∧ piecesOf s qs = .ok ys ∧ rs = xs ++ ys := by
  rw [piecesOf_append]
  simp only [bind_eq_ok, pure_eq_ok]
  grind

theorem piecesOf_text_cons_eq_ok_iff {rs : List Piece} : piecesOf s (text token :: ps) = .ok rs ↔
    ∃ ys, piecesOf s ps = .ok ys ∧ rs = .text token :: ys := by
  rw [piecesOf_text_cons]
  cases piecesOf s ps <;> simp [Except.map, eq_comm]

theorem isNeat_text (h : IsAtom (marks token)) : IsNeat fill s (text token) := by
  intro qs hqs
  cases hqs
  exact ⟨List.cons_ne_nil _ _, by simpa [Piece.content] using h⟩

/-- What an expression needs of its leaves. The subqueries have their own condition. -/
def IsWritten (fill : CodeId → Content) (s : Surroundings) (apart : NodeId → Prop) : Part → Prop
  | subquery g => Follows fill s [subquery g] (apart g)
  | p => p.IsNeat fill s

theorem Follows.congr (h : Follows fill s ps apart) (ha : apart ↔ apart') :
    Follows fill s ps apart' := fun _ hqs => ⟨(h hqs).1, (h hqs).2.trans ha⟩

theorem Reads.congr (h : Reads fill s ps apart opens) (ha : apart ↔ apart')
    (ho : opens ↔ opens') : Reads fill s ps apart' opens' := by
  intro qs hqs
  obtain ⟨hflow, hquiet, c, hc, hopens⟩ := h hqs
  exact ⟨hflow, hquiet.trans ha, c, hc, hopens.trans ho⟩

theorem Reads.follows (h : Reads fill s ps apart opens) : Follows fill s ps apart :=
  fun _ hqs => ⟨(h hqs).1, (h hqs).2.1⟩

theorem Follows.nil : Follows fill s [] True := by
  intro qs hqs
  cases hqs
  exact ⟨.nil, iff_of_true .nil trivial⟩

theorem Reads.refusal {e : ConstructionError} : Reads fill s [.refusal e] apart opens := by
  intro qs hqs
  cases hqs

theorem Follows.append (h : Follows fill s ps apart) (h' : Follows fill s qs apart') :
    Follows fill s (ps ++ qs) (apart ∧ apart') := by
  intro rs hrs
  obtain ⟨xs, ys, hxs, hys, rfl⟩ := piecesOf_append_eq_ok_iff.mp hrs
  rw [List.map_append]
  exact ⟨(h hxs).1.append (h' hys).1, (Content.quiet_append_iff (h hxs).1.ends).trans
    (and_congr (h hxs).2 (h' hys).2)⟩

theorem Reads.append (h : Reads fill s ps apart opens) (h' : Follows fill s qs apart') :
    Reads fill s (ps ++ qs) (apart ∧ apart') opens := by
  intro rs hrs
  obtain ⟨hflow, hquiet⟩ := h.follows.append h' hrs
  obtain ⟨xs, ys, hxs, -, rfl⟩ := piecesOf_append_eq_ok_iff.mp hrs
  obtain ⟨-, -, c, hc, hopens⟩ := h hxs
  refine ⟨hflow, hquiet, c, ?_, hopens⟩
  rw [List.map_append, List.head?_append, hc]
  rfl

theorem IsNeat.reads (h : p.IsNeat fill s) : Reads fill s [p] True False := by
  intro qs hqs
  simp only [piecesOf, bind_eq_ok, pure_eq_ok] at hqs
  obtain ⟨xs, hp, _, hnil, rfl⟩ := hqs
  cases hnil
  rw [List.append_nil]
  obtain ⟨hne, hatoms⟩ := h hp
  obtain ⟨q, qs, rfl⟩ := List.exists_cons_of_ne_nil hne
  have hall : ∀ c ∈ (q :: qs).map (Piece.content fill), IsAtom c := List.forall_mem_map.mpr hatoms
  have hminus : ∀ c ∈ (q :: qs).map (Piece.content fill), c ≠ Content.minus := by
    rintro _ hc rfl
    exact absurd (hall _ hc).starts (by decide)
  refine ⟨.atoms hall, iff_of_true (.of_forall_ne_minus hminus) trivial, _, rfl, ?_⟩
  exact iff_of_false (hminus _ List.mem_cons_self) id

theorem Reads.text (h : IsAtom (marks token)) : Reads fill s [.text token] True False :=
  (isNeat_text h).reads

theorem Follows.text_cons (htoken : IsAtom (marks token)) (h : Follows fill s ps apart) :
    Reads fill s (.text token :: ps) apart False :=
  ((Reads.text htoken).append h).congr (iff_of_eq (true_and _)) .rfl

theorem Reads.append_text (h : Reads fill s ps apart opens) (htoken : IsAtom (marks token)) :
    Reads fill s (ps ++ [Part.text token]) apart opens :=
  (h.append (Reads.text htoken).follows).congr (iff_of_eq (and_true _)) .rfl

theorem Follows.append_text (h : Follows fill s ps apart) (htoken : IsAtom (marks token)) :
    Follows fill s (ps ++ [Part.text token]) apart :=
  (h.append (Reads.text htoken).follows).congr (iff_of_eq (and_true _))

theorem Follows.enclosed (h : Follows fill s ps apart) (before after : String)
    (hbefore : IsAtom (marks before)) (hafter : IsAtom (marks after)) :
    Reads fill s (.text before :: ps ++ [Part.text after]) apart False :=
  (h.append_text hafter).text_cons hbefore

theorem Follows.separated {α : Type} {xs : List α} {f : α → List Part} {each : α → Prop}
    (h : ∀ x ∈ xs, Follows fill s (f x) (each x)) :
    Follows fill s (Part.separated (xs.map f)) (∀ x ∈ xs, each x) := by
  induction xs with
  | nil => exact Follows.nil.congr (by simp)
  | cons x xs ih =>
    have hx := h x List.mem_cons_self
    have hrest := ih fun y hy => h y (List.mem_cons_of_mem _ hy)
    cases xs with
    | nil => exact hx.congr (by simp)
    | cons y xs =>
      have hcomma : IsAtom (marks ",") := by decide
      exact (hx.append (hrest.text_cons hcomma).follows).congr List.forall_mem_cons.symm

theorem Reads.ne_nil {rs : List Piece} (h : Reads fill s ps apart opens)
    (hrs : piecesOf s ps = .ok rs) : rs.map (Piece.content fill) ≠ [] := by
  obtain ⟨-, -, c, hc, -⟩ := h hrs
  intro hnil
  rw [hnil] at hc
  cases hc

theorem Reads.negated (h : Reads fill s ps apart opens) :
    Reads fill s (.text "-" :: ps) apart True := by
  intro rs hrs
  obtain ⟨ys, hys, rfl⟩ := piecesOf_text_cons_eq_ok_iff.mp hrs
  obtain ⟨hflow, hquiet, -⟩ := h hys
  exact ⟨hflow.cons_minus (h.ne_nil hys), Content.quiet_cons_minus_iff.trans hquiet, _, rfl,
    iff_of_true rfl trivial⟩

theorem Reads.operation (h : Reads fill s ps apart opens) (h' : Reads fill s qs apart' opens')
    (op : BinaryOp) : Reads fill s (ps ++ .text op.text :: qs)
      (apart ∧ apart' ∧ (op.absorbsSign = true → ¬ opens')) opens := by
  intro rs hrs
  obtain ⟨xs, zs, hxs, hzs, rfl⟩ := piecesOf_append_eq_ok_iff.mp hrs
  obtain ⟨ys, hys, rfl⟩ := piecesOf_text_cons_eq_ok_iff.mp hzs
  obtain ⟨hflow, hquiet, c, hc, hopens⟩ := h hxs
  obtain ⟨hflow', hquiet', c', hc', hopens'⟩ := h' hys
  have hmap : (xs ++ .text op.text :: ys).map (Piece.content fill) = xs.map (Piece.content fill) ++
      Content.ofOperator op :: ys.map (Piece.content fill) := List.map_append
  rw [hmap]
  refine ⟨hflow.operation (h.ne_nil hxs) hflow' (h'.ne_nil hys) op, ?_, c, ?_, hopens⟩
  · rw [Content.quiet_operation_iff hflow, hquiet, hquiet', hc', Ne, Option.some.injEq, hopens']
  · rw [List.head?_append, hc]
    rfl

/-- Parentheses hide a sign. -/
theorem Reads.grouped (h : Reads fill s ps apart opens) (place : Expr.Slot) (e : Expr) :
    Reads fill s (Expr.groupedParts place e ps) apart (place.groups e = false ∧ opens) := by
  unfold Expr.groupedParts
  split
  next hgroups =>
    exact (h.follows.enclosed "(" ")" (by decide) (by decide)).congr .rfl (by simp [hgroups])
  next hgroups => exact h.congr .rfl (by simp [hgroups])

end Part

namespace Expr

variable {fill : CodeId → Content} {s : Surroundings} {apart : NodeId → Prop}

/-- No sign is taken in, neither in the expression nor in the subqueries inside it. -/
def StaysApart (apart : NodeId → Prop) (e : Expr) : Prop :=
  e.keepsSignsApart = true ∧ ∀ g ∈ e.subqueries, apart g

/-- The expression is written with its operators apart from each other, except where they take in a
sign. -/
def IsRead (fill : CodeId → Content) (s : Surroundings) (apart : NodeId → Prop) (e : Expr) : Prop :=
  Part.Reads fill s e.parts (e.StaysApart apart) (e.opensWithMinus = true)

theorem IsRead.follows {e : Expr} (h : e.IsRead fill s apart) :
    Part.Follows fill s e.parts (e.StaysApart apart) := Part.Reads.follows h

theorem forall_staysApart_iff {es : List Expr} : (∀ e ∈ es, e.StaysApart apart) ↔
    keepSignsApart es = true ∧ ∀ g ∈ subqueriesOf es, apart g := by
  simp only [StaysApart, keepSignsApart_iff, mem_subqueriesOf_iff]
  grind

theorem reads_existsParts (keyword : String) (hkeyword : IsAtom (Scanner.marks keyword))
    {args : List Expr} (h : ∀ p ∈ leavesOf args, p.IsWritten fill s apart) :
    Part.Reads fill s (existsParts keyword args)
      (keepSignsApart args = true ∧ ∀ g ∈ subqueriesOf args, apart g) False := by
  have htest : ∀ {p : Part} {inside : Prop}, Part.Follows fill s [p] inside →
      Part.Reads fill s [.text keyword, .text "(", p, .text ")"] inside False :=
    fun hp => (hp.enclosed "(" ")" (by decide) (by decide)).follows.text_cons hkeyword
  unfold existsParts
  split
  next node =>
    have hnode : Part.Follows fill s [.subquery node] (apart node) := h _ List.mem_cons_self
    exact (htest hnode).congr
      (by simp [keepSignsApart, keepsSignsApart, subqueriesOf, subqueries]) .rfl
  next command =>
    have hcommand : Part.IsNeat fill s (.command command) := h _ List.mem_cons_self
    exact (htest hcommand.reads.follows).congr
      (by simp [keepSignsApart, keepsSignsApart, subqueriesOf, subqueries]) .rfl
  all_goals exact .refusal

/-- A comparison with NULL takes in no sign, and NULL has none. -/
theorem staysApart_of_nullTest? {op : BinaryOp} {left right : Expr} {side : NullTest}
    (h : nullTest? op left right = some side) :
    (binary op left right).StaysApart apart ↔
      match side with
      | .left => left.StaysApart apart
      | .right => right.StaysApart apart := by
  obtain ⟨hop, hnull⟩ := of_nullTest? h
  have habsorbs : op.absorbsSign = false := by rcases hop with rfl | rfl <;> decide
  have hboth : (binary op left right).StaysApart apart ↔
      left.StaysApart apart ∧ right.StaysApart apart := by
    simp only [StaysApart, keepsSignsApart, subqueries, List.forall_mem_append, habsorbs]
    grind
  have hstays : null.StaysApart apart := by
    simp [null, StaysApart, keepsSignsApart, subqueries]
  rw [hboth]
  cases side with
  | left =>
    obtain rfl : right = null := hnull
    exact and_iff_left hstays
  | right =>
    obtain rfl : left = null := hnull
    exact and_iff_right hstays

section Cases

variable {left right : Expr} {args : List Expr} {suffix : String}

theorem IsRead.operand (h : left.IsRead fill s apart) (place : Slot)
    (hsuffix : IsAtom (Scanner.marks suffix)) :
    Part.Reads fill s (groupedParts place left left.parts ++ [Part.text suffix])
      (left.StaysApart apart) (place.groups left = false ∧ left.opensWithMinus = true) :=
  (Part.Reads.grouped h place left).append_text hsuffix

theorem isAtom_nullTestText (isNull : Bool) : IsAtom (Scanner.marks (nullTestText isNull)) := by
  cases isNull <;> decide

theorem isRead_binary (hl : left.IsRead fill s apart) (hr : right.IsRead fill s apart)
    (op : BinaryOp) : (binary op left right).IsRead fill s apart := by
  unfold IsRead
  cases hn : nullTest? op left right with
  | none =>
    simp only [parts, hn]
    refine ((Part.Reads.grouped hl _ left).operation (Part.Reads.grouped hr _ right) op).congr
      ?_ ?_
    · simp only [StaysApart, keepsSignsApart, subqueries, List.forall_mem_append]
      grind
    · simp [opensWithMinus, hn]
  | some side =>
    have hstays : (binary op left right).StaysApart apart ↔ _ := staysApart_of_nullTest? hn
    cases side
    · simp only [parts, hn]
      exact (hl.operand .nullTest (isAtom_nullTestText _)).congr hstays.symm
        (by simp [opensWithMinus, hn])
    · simp only [parts, hn]
      exact (hr.operand .nullTest (isAtom_nullTestText _)).congr hstays.symm
        (by simp [opensWithMinus, hn])

theorem isRead_call (h : ∀ e ∈ args, e.IsRead fill s apart)
    (hleaves : ∀ p ∈ leavesOf args, p.IsWritten fill s apart) (name : CallName) :
    (call name args).IsRead fill s apart := by
  have hall := Part.Follows.separated fun e he => (h e he).follows
  have hstays : (∀ e ∈ args, e.StaysApart apart) ↔ (call name args).StaysApart apart :=
    forall_staysApart_iff
  have hopens : name ≠ .like → (False ↔ (call name args).opensWithMinus = true) := by
    intro hname
    cases name <;> first | exact absurd rfl hname | simp [opensWithMinus]
  unfold IsRead
  cases name with
  | like =>
    rcases args with _ | ⟨value, _ | ⟨pattern, _ | _⟩⟩
    · exact .refusal
    · exact .refusal
    · have hlike : IsAtom (Scanner.marks "LIKE") := by decide
      have hvalue := Part.Reads.grouped (h value (by simp)) .like value
      have hpattern := Part.Reads.grouped (h pattern (by simp)) (.closed .like) pattern
      refine (hvalue.append (hpattern.follows.text_cons hlike).follows).congr ?_ ?_
      · rw [← hstays]
        simp
      · simp [opensWithMinus]
    · exact .refusal
  | exists_ =>
    exact (reads_existsParts "EXISTS" (by decide) hleaves).congr .rfl (hopens nofun)
  | notExists =>
    exact (reads_existsParts "NOT EXISTS" (by decide) hleaves).congr .rfl
      (hopens nofun)
  | count =>
    rcases args with _ | ⟨e, _ | _⟩
    · have hcount : IsAtom (Scanner.marks "COUNT(*)") := by decide
      exact (Part.Reads.text hcount).congr (by simp [← hstays]) (hopens nofun)
    · have hcount := hall.enclosed "COUNT(" ")" (by decide) (by decide)
      exact hcount.congr hstays (hopens nofun)
    · exact .refusal
  | coalesce =>
    cases args with
    | nil => exact .refusal
    | cons e rest =>
      have hcoalesce := hall.enclosed "COALESCE(" ")" (by decide) (by decide)
      rw [← partsOf_eq_map] at hcoalesce
      exact hcoalesce.congr hstays (hopens nofun)
  | any =>
    rcases args with _ | ⟨e, _ | _⟩
    · exact .refusal
    · have hany := hall.enclosed "ANY(" ")" (by decide) (by decide)
      exact hany.congr hstays (hopens nofun)
    · exact .refusal
  | other name => exact .refusal

theorem isRead_unary {e : Expr} (h : e.IsRead fill s apart) (op : UnaryOp) :
    (unary op e).IsRead fill s apart := by
  cases op with
  | not =>
    have hnot : IsAtom (Scanner.marks "NOT") := by decide
    exact ((Part.Reads.grouped h _ e).follows.text_cons hnot).congr .rfl
      (by simp [opensWithMinus])
  | negate => exact (Part.Reads.grouped h _ e).negated.congr .rfl (by simp [opensWithMinus])
  | hasValue =>
    exact (h.operand .nullTest (isAtom_nullTestText false)).congr .rfl (by simp [opensWithMinus])

end Cases

/-- Whatever its form, an expression is read if its leaves are written. -/
theorem isRead (e : Expr) (h : ∀ p ∈ e.leaves, p.IsWritten fill s apart) :
    e.IsRead fill s apart := by
  have hleaf : ∀ {e : Expr} {p : Part}, e.parts = [p] → p.IsNeat fill s →
      (e.keepsSignsApart = true ∧ e.subqueries = [] ∧ e.opensWithMinus = false) →
        e.IsRead fill s apart := by
    rintro e p hparts hp ⟨hsigns, hsubqueries, hopens⟩
    unfold IsRead
    rw [hparts]
    exact hp.reads.congr (by simp [StaysApart, hsigns, hsubqueries]) (by simp [hopens])
  induction e with
  | literal l =>
    cases l with
    | null => exact hleaf rfl (Part.isNeat_text (by decide)) ⟨rfl, rfl, rfl⟩
    | source p => exact hleaf rfl (h _ List.mem_cons_self) ⟨rfl, rfl, rfl⟩
  | column c => exact hleaf rfl (h _ List.mem_cons_self) ⟨rfl, rfl, rfl⟩
  | delayed _ => exact hleaf rfl (h _ List.mem_cons_self) ⟨rfl, rfl, rfl⟩
  | binary op left right hl hr =>
    obtain ⟨hleft, hright⟩ := List.forall_mem_append.mp h
    exact isRead_binary (hl hleft) (hr hright) op
  | unary op e he => exact isRead_unary (he h) op
  | call name args hargs =>
    refine isRead_call (fun e he => hargs e he fun p hp => h p ?_) h name
    exact mem_leavesOf_iff.mpr ⟨e, he, hp⟩
  | array items hitems =>
    have hall := Part.Follows.separated fun e he => (hitems e he fun p hp => h p
      (mem_leavesOf_iff.mpr ⟨e, he, hp⟩)).follows
    rw [← partsOf_eq_map] at hall
    exact (hall.enclosed "ARRAY[" "]" (by decide) (by decide)).congr
      forall_staysApart_iff (by simp [opensWithMinus])
  | subquery _ => exact .refusal
  | embedded command =>
    have hcommand : Part.IsNeat fill s (.command command) := h _ List.mem_cons_self
    exact (hcommand.reads.follows.enclosed "(" ")" (by decide) (by decide)).congr
      (by simp [StaysApart, keepsSignsApart, subqueries]) (by simp [opensWithMinus])

end Expr

end DeclarativeSql
