import DeclarativeSql.Proofs.Binding.Sources
import DeclarativeSql.Proofs.Rendering.Part

/-!
# Accepted expressions

Which expressions can be written. Each node of the tree has its own rule, and the rules do not look
further than to its operands: calls are those of a short list, a subquery is only tested for rows,
and what stands for columns, tables and commands must have a text. An expression is written if every
node follows its rule, at whatever depth and on whatever path the text takes.
-/
namespace DeclarativeSql

namespace Compiled

/-- Every placeholder has a parameter. -/
def IsDefined (c : Compiled) : Prop :=
  ∀ name ∈ TextPart.namesIn c.text, name ∈ c.parameters.map Parameter.name

theorem isDefined_iff_body {c : Compiled} : c.IsDefined ↔
    ∀ name ∈ TextPart.namesIn c.body, name ∈ c.parameters.map Parameter.name :=
  forall_congr' fun _ => imp_congr_left TextPart.mem_namesIn_body.symm

theorem unknownPlaceholder?_eq_none_iff {c : Compiled} :
    c.unknownPlaceholder? = none ↔ c.IsDefined := by
  have hname : ∀ name, (if (Parameter.named? c.parameters name).isSome then none else some name) =
      none ↔ name ∈ c.parameters.map Parameter.name := by
    intro name
    rw [← not_iff_not, ← Parameter.named?_eq_none_iff]
    cases Parameter.named? c.parameters name <;> simp
  rw [isDefined_iff_body, unknownPlaceholder?, List.findSome?_eq_none_iff, TextPart.namesIn]
  simp only [List.mem_filterMap]
  constructor
  · rintro h name ⟨part, hpart, hnamed⟩
    cases part with
    | plain c => cases hnamed
    | placeholder digits =>
      cases hnamed
      exact (hname _).mp (h _ hpart)
  · intro h part hpart
    cases part with
    | plain c => rfl
    | placeholder digits => exact (hname _).mpr (h _ ⟨_, hpart, rfl⟩)

theorem exists_appendCompiled_iff {c : Compiled} (b : CodeBuffer) :
    (∃ b', b.appendCompiled c.body c.parameters = (.ok (), b')) ↔ c.IsDefined := by
  have herror : (∃ e b', b.appendCompiled c.body c.parameters = (.error e, b')) ↔
      ¬ c.IsDefined := by
    simp only [CodeBuffer.appendCompiled_eq_error_iff, CodeBuffer.rename_eq_error_iff,
      isDefined_iff_body, TextPart.namesIn]
    constructor
    · rintro ⟨e, name, hfind, -⟩ h
      exact absurd (h name (List.mem_of_find?_eq_some hfind)) (by simpa using List.find?_some hfind)
    · intro h
      cases hfind : ((TextPart.split c.body.toList).filterMap TextPart.name?).find?
          (· ∉ c.parameters.map Parameter.name) with
      | none =>
        exact absurd (fun name hname => by simpa using List.find?_eq_none.mp hfind name hname) h
      | some first => exact ⟨_, first, rfl, rfl⟩
  rw [← not_iff_not, ← herror]
  rcases b.appendCompiled c.body c.parameters with ⟨_ | _, b'⟩ <;> simp

end Compiled

namespace Piece

/-- The buffer behind which the pieces are written. -/
def extend (b : CodeBuffer) (pieces : List Piece) : Except ConstructionError CodeBuffer :=
  match writeAll pieces b with
  | (.error e, _) => .error e
  | (.ok (), b) => .ok b

def IsWritable : Piece → Prop
  | command (.immediate c) => c.IsDefined
  | _ => True

theorem exists_write_iff (p : Piece) (b : CodeBuffer) :
    (∃ b', p.write b = (.ok (), b')) ↔ p.IsWritable := by
  cases p with
  | command c =>
    cases c with
    | immediate c => exact Compiled.exists_appendCompiled_iff b
    | delayed c => simp [write, IsWritable]
  | _ => simp [write, IsWritable]

/-- What is in the buffer has no say. -/
theorem exists_extend_iff (ps : List Piece) (b : CodeBuffer) :
    (∃ b', extend b ps = .ok b') ↔ ∀ p ∈ ps, p.IsWritable := by
  induction ps generalizing b with
  | nil => simp [extend, writeAll]
  | cons p ps ih =>
    rw [List.forall_mem_cons, ← exists_write_iff p b]
    rcases hwrite : p.write b with ⟨_ | _, mid⟩
    · simp [extend, writeAll, hwrite]
    · simpa [extend, writeAll, hwrite] using ih mid

theorem exists_bind_extend_iff {pieces : Pieces} (b : CodeBuffer) :
    (∃ b', pieces >>= extend b = .ok b') ↔ ∃ ps, pieces = .ok ps ∧ ∀ p ∈ ps, p.IsWritable := by
  simp only [bind_eq_ok, ← exists_extend_iff _ b]
  exact ⟨fun ⟨b', ps, hps, hb'⟩ => ⟨ps, hps, b', hb'⟩, fun ⟨ps, hps, b', hb'⟩ => ⟨b', ps, hps, hb'⟩⟩

theorem ofCommand_eq_ok_iff {c : Command} {p : Piece} :
    ofCommand c = .ok p ↔ p = command c ∧ p.IsWritable := by
  cases c with
  | delayed b =>
    constructor
    · intro h
      cases h
      exact ⟨rfl, trivial⟩
    · rintro ⟨rfl, -⟩
      rfl
  | immediate c =>
    rw [ofCommand]
    cases hunknown : c.unknownPlaceholder? with
    | none =>
      constructor
      · intro h
        cases h
        exact ⟨rfl, Compiled.unknownPlaceholder?_eq_none_iff.mp hunknown⟩
      · rintro ⟨rfl, -⟩
        rfl
    | some name =>
      constructor
      · intro h
        cases h
      · rintro ⟨rfl, hp⟩
        rw [Compiled.unknownPlaceholder?_eq_none_iff.mpr hp] at hunknown
        cases hunknown

end Piece

namespace ExprContext

/-- Writes a subquery to a buffer. -/
def writeSubquery (ctx : ExprContext) (b : CodeBuffer) (node : NodeId) :
    Except ConstructionError CodeBuffer := do
  Piece.extend b (← ctx.subquery node)

def AcceptsColumn (ctx : ExprContext) (c : Column) : Prop :=
  ∃ name, ctx.columnReference c = .ok name

def AcceptsSubquery (ctx : ExprContext) (node : NodeId) : Prop :=
  ∀ b, ∃ b', ctx.writeSubquery b node = .ok b'

theorem acceptsSubquery_iff {ctx : ExprContext} {node : NodeId} :
    ctx.AcceptsSubquery node ↔ ∃ ps, ctx.subquery node = .ok ps ∧ ∀ p ∈ ps, p.IsWritable :=
  ⟨fun h => (Piece.exists_bind_extend_iff .empty).mp (h .empty),
    fun h b => (Piece.exists_bind_extend_iff b).mpr h⟩

end ExprContext

namespace Part

variable {s : Surroundings} {ps qs : List Part}

/-- The part has a text, and it can be written. -/
def IsAccepted (s : Surroundings) (p : Part) : Prop :=
  ∃ ps, p.pieces s = .ok ps ∧ ∀ q ∈ ps, q.IsWritable

def AreAccepted (s : Surroundings) (ps : List Part) : Prop := ∀ p ∈ ps, p.IsAccepted s

theorem exists_piecesOf_iff (ps : List Part) :
    (∃ qs, piecesOf s ps = .ok qs ∧ ∀ q ∈ qs, q.IsWritable) ↔ AreAccepted s ps := by
  induction ps with
  | nil => simp [piecesOf, AreAccepted]
  | cons p ps ih =>
    rw [AreAccepted, List.forall_mem_cons, ← AreAccepted, ← ih, piecesOf]
    constructor
    · rintro ⟨_, h, hwritable⟩
      obtain ⟨xs, hxs, h⟩ := bind_eq_ok.mp h
      obtain ⟨ys, hys, h⟩ := bind_eq_ok.mp h
      obtain rfl := pure_eq_ok.mp h
      obtain ⟨hleft, hright⟩ := List.forall_mem_append.mp hwritable
      exact ⟨⟨xs, hxs, hleft⟩, ys, hys, hright⟩
    · rintro ⟨⟨xs, hxs, hleft⟩, ys, hys, hright⟩
      rw [hxs, hys]
      exact ⟨xs ++ ys, rfl, List.forall_mem_append.mpr ⟨hleft, hright⟩⟩

@[simp] theorem isAccepted_text (token : String) : (text token).IsAccepted s :=
  ⟨_, rfl, by simp [Piece.IsWritable]⟩

@[simp] theorem isAccepted_source (p : ParameterSource) : (source p).IsAccepted s :=
  ⟨_, rfl, by simp [Piece.IsWritable]⟩

@[simp] theorem isAccepted_code (id : CodeId) : (code id).IsAccepted s :=
  ⟨_, rfl, by simp [Piece.IsWritable]⟩

@[simp] theorem not_isAccepted_refusal (e : ConstructionError) : ¬ (refusal e).IsAccepted s := by
  rintro ⟨_, h, -⟩
  cases h

theorem isAccepted_column_iff {c : Column} :
    (column c).IsAccepted s ↔ s.context.AcceptsColumn c := by
  constructor
  · rintro ⟨_, h, -⟩
    obtain ⟨name, hname, -⟩ := bind_eq_ok.mp h
    exact ⟨name, hname⟩
  · rintro ⟨name, hname⟩
    exact ⟨_, bind_eq_ok.mpr ⟨name, hname, rfl⟩, by simp [Piece.IsWritable]⟩

theorem isAccepted_subquery_iff {node : NodeId} :
    (subquery node).IsAccepted s ↔ s.context.AcceptsSubquery node :=
  ExprContext.acceptsSubquery_iff.symm

theorem isAccepted_command_iff {c : Command} :
    (command c).IsAccepted s ↔ (Piece.command c).IsWritable := by
  constructor
  · rintro ⟨_, h, -⟩
    obtain ⟨p, hp, -⟩ := bind_eq_ok.mp h
    obtain ⟨rfl, hp⟩ := Piece.ofCommand_eq_ok_iff.mp hp
    exact hp
  · intro h
    have hpiece := Piece.ofCommand_eq_ok_iff.mpr ⟨rfl, h⟩
    exact ⟨_, bind_eq_ok.mpr ⟨_, hpiece, rfl⟩, by simpa using h⟩

@[simp] theorem areAccepted_nil : AreAccepted s [] := by simp [AreAccepted]

@[simp] theorem areAccepted_cons {p : Part} :
    AreAccepted s (p :: ps) ↔ p.IsAccepted s ∧ AreAccepted s ps := List.forall_mem_cons

@[simp] theorem areAccepted_append :
    AreAccepted s (ps ++ qs) ↔ AreAccepted s ps ∧ AreAccepted s qs := List.forall_mem_append

@[simp] theorem areAccepted_separated {pss : List (List Part)} :
    AreAccepted s (separated pss) ↔ ∀ ps ∈ pss, AreAccepted s ps :=
  Expr.forall_mem_separated (isAccepted_text ",")

@[simp] theorem areAccepted_groupedParts {place : Expr.Slot} {e : Expr} :
    AreAccepted s (Expr.groupedParts place e ps) ↔ AreAccepted s ps :=
  Expr.forall_mem_groupedParts (isAccepted_text "(") (isAccepted_text ")")

end Part

namespace Expr

/-- The operands, from left to right. -/
def children : Expr → List Expr
  | binary _ left right => [left, right]
  | unary _ operand => [operand]
  | call _ args => args
  | array items => items
  | _ => []

/-- The first expression is the second one or inside it, at whatever depth. -/
inductive Occurs (x : Expr) : Expr → Prop
  | here : Occurs x x
  | inside {e child : Expr} : child ∈ e.children → Occurs x child → Occurs x e

/-- What can be tested for rows. -/
def IsTestable : Expr → Prop
  | subquery _ | embedded _ => True
  | _ => False

/-- Tests for rows. -/
def IsTest : Expr → Prop
  | call .exists_ [operand] | call .notExists [operand] => operand.IsTestable
  | _ => False

end Expr

/-- Everything that can be called, and with what. -/
def CallName.Takes (args : List Expr) : CallName → Prop
  | like => args.length = 2
  | count => args.length ≤ 1
  | coalesce => 1 ≤ args.length
  | any => args.length = 1
  | exists_ | notExists => ∃ operand, args = [operand] ∧ operand.IsTestable
  | other _ => False

namespace Expr

/-- The rule for an expression itself, whatever is inside its operands. -/
def IsAllowed (ctx : ExprContext) : Expr → Prop
  | call name args => name.Takes args
  | column c => ctx.AcceptsColumn c
  | subquery node => ctx.AcceptsSubquery node
  | embedded (.immediate c) => c.IsDefined
  | _ => True

/-- All rules are followed, at every depth. -/
structure IsAdmissible (ctx : ExprContext) (e : Expr) : Prop where
  allowed : ∀ x, Occurs x e → x.IsAllowed ctx
  /-- A subquery is an operand of a test. -/
  tested : ∀ x node, Occurs x e → subquery node ∈ x.children → x.IsTest
  bare : ∀ node, e ≠ subquery node

/-- Writes an expression to a buffer. -/
def compile (ctx : ExprContext) (b : CodeBuffer) (e : Expr) :
    Except ConstructionError CodeBuffer := do
  Piece.extend b (← e.pieces ctx)

variable {ctx : ExprContext} {s : Surroundings} {e : Expr}

theorem occurs_iff {x : Expr} : Occurs x e ↔ x = e ∨ ∃ child ∈ e.children, Occurs x child := by
  constructor
  · rintro (_ | ⟨hchild, hx⟩)
    · exact .inl rfl
    · exact .inr ⟨_, hchild, hx⟩
  · rintro (rfl | ⟨child, hchild, hx⟩)
    · exact .here
    · exact .inside hchild hx

theorem isAdmissible_iff (htest : ¬ e.IsTest) : e.IsAdmissible ctx ↔
    (∀ node, e ≠ subquery node) ∧ e.IsAllowed ctx ∧ ∀ c ∈ e.children, c.IsAdmissible ctx := by
  constructor
  · intro h
    refine ⟨h.bare, h.allowed e .here, fun c hc => ⟨fun x hx => ?_, fun x node hx => ?_, ?_⟩⟩
    · exact h.allowed x (.inside hc hx)
    · exact h.tested x node (.inside hc hx)
    · rintro node rfl
      exact htest (h.tested e node .here hc)
  · rintro ⟨hbare, hallowed, hchildren⟩
    refine ⟨fun x hx => ?_, fun x node hx hnode => ?_, hbare⟩
    · rcases occurs_iff.mp hx with rfl | ⟨c, hc, hx⟩
      · exact hallowed
      · exact (hchildren c hc).allowed x hx
    · rcases occurs_iff.mp hx with rfl | ⟨c, hc, hx⟩
      · exact absurd rfl ((hchildren _ hnode).bare node)
      · exact (hchildren c hc).tested x node hx hnode

theorem IsTestable.children_eq_nil (h : e.IsTestable) : e.children = [] := by
  cases e <;> first | rfl | cases h

/-- An operand of a test may be a subquery, and nothing else is different there. -/
theorem isAdmissible_test_iff {name : CallName} (hname : name = .exists_ ∨ name = .notExists)
    (args : List Expr) : (call name args).IsAdmissible ctx ↔
      ∃ operand, args = [operand] ∧ operand.IsTestable ∧ operand.IsAllowed ctx := by
  have htakes : name.Takes args ↔ ∃ operand, args = [operand] ∧ operand.IsTestable := by
    rcases hname with rfl | rfl <;> rfl
  constructor
  · intro h
    obtain ⟨operand, rfl, htestable⟩ := htakes.mp (h.allowed _ .here)
    exact ⟨operand, rfl, htestable, h.allowed operand (.inside List.mem_cons_self .here)⟩
  · rintro ⟨operand, rfl, htestable, hallowed⟩
    have hoccurs : ∀ x, Occurs x (call name [operand]) → x = call name [operand] ∨ x = operand := by
      intro x hx
      rcases occurs_iff.mp hx with rfl | ⟨c, hc, hx⟩
      · exact .inl rfl
      · rw [List.mem_singleton.mp hc, occurs_iff, htestable.children_eq_nil] at hx
        simpa using Or.inr hx
    refine ⟨fun x hx => ?_, fun x node hx hnode => ?_, fun node h => by cases h⟩
    · rcases hoccurs x hx with rfl | rfl
      · exact htakes.mpr ⟨operand, rfl, htestable⟩
      · exact hallowed
    · rcases hoccurs x hx with rfl | rfl
      · rcases hname with rfl | rfl <;> exact htestable
      · rw [htestable.children_eq_nil] at hnode
        cases hnode

theorem areAccepted_existsParts {keyword : String} (args : List Expr) :
    Part.AreAccepted s (existsParts keyword args) ↔
      ∃ operand, args = [operand] ∧ operand.IsTestable ∧ operand.IsAllowed s.context := by
  unfold existsParts
  split
  next node => simp [Part.isAccepted_subquery_iff, IsTestable, IsAllowed]
  next command =>
    cases command <;> simp [Part.isAccepted_command_iff, IsTestable, IsAllowed, Piece.IsWritable]
  next other hsubquery hembedded =>
    cases other <;> simp_all [IsTestable]
  next hone =>
    rcases args with _ | ⟨operand, _ | _⟩
    · simp
    · cases operand <;> simp_all
    · simp

theorem areAccepted_parts_binary (op : BinaryOp) (left right : Expr) :
    Part.AreAccepted s (binary op left right).parts ↔
      Part.AreAccepted s left.parts ∧ Part.AreAccepted s right.parts := by
  cases htest : nullTest? op left right with
  | none => simp [parts, htest]
  | some side =>
    obtain ⟨-, hnull⟩ := of_nullTest? htest
    cases side with
    | left =>
      have hright : Part.AreAccepted s right.parts := by
        obtain rfl : right = null := hnull
        simp [null, parts]
      simp [parts, htest, hright]
    | right =>
      have hleft : Part.AreAccepted s left.parts := by
        obtain rfl : left = null := hnull
        simp [null, parts]
      simp [parts, htest, hleft]

theorem areAccepted_parts_call {name : CallName} (args : List Expr)
    (hname : name ≠ .exists_ ∧ name ≠ .notExists) :
    Part.AreAccepted s (call name args).parts ↔
      name.Takes args ∧ ∀ e ∈ args, Part.AreAccepted s e.parts := by
  cases name with
  | like => rcases args with _ | ⟨value, _ | ⟨pattern, _ | _⟩⟩ <;> simp [parts, CallName.Takes]
  | exists_ => exact absurd rfl hname.1
  | notExists => exact absurd rfl hname.2
  | count => rcases args with _ | ⟨e, _ | _⟩ <;> simp [parts, CallName.Takes]
  | coalesce => cases args <;> simp [parts, CallName.Takes, partsOf_eq_map]
  | any => rcases args with _ | ⟨e, _ | _⟩ <;> simp [parts, CallName.Takes]
  | other name => simp [parts, CallName.Takes]

/-- Each text that is needed is there, and nothing is refused, if all rules are followed. -/
theorem areAccepted_parts_iff (e : Expr) :
    Part.AreAccepted s e.parts ↔ e.IsAdmissible s.context := by
  induction e with
  | literal l =>
    rw [isAdmissible_iff id]
    cases l <;> simp [parts, IsAllowed, children]
  | column c =>
    rw [isAdmissible_iff id]
    simp [parts, IsAllowed, children, Part.isAccepted_column_iff]
  | binary op left right hl hr =>
    rw [isAdmissible_iff id, areAccepted_parts_binary, hl, hr]
    simp [IsAllowed, children]
  | unary op e he =>
    rw [isAdmissible_iff id]
    cases op <;> simp [parts, IsAllowed, children, he]
  | call name args hargs =>
    by_cases hname : name = .exists_ ∨ name = .notExists
    · rw [isAdmissible_test_iff hname]
      rcases hname with rfl | rfl <;> exact areAccepted_existsParts args
    · obtain ⟨hexists, hnot⟩ := not_or.mp hname
      have htest : ¬ (call name args).IsTest := by
        intro h
        unfold IsTest at h
        split at h <;> simp_all
      have hbare : ∀ node, call name args ≠ subquery node := fun _ h => by cases h
      rw [isAdmissible_iff htest, areAccepted_parts_call args ⟨hexists, hnot⟩, and_iff_right hbare]
      exact and_congr_right fun _ => forall₂_congr hargs
  | array items hitems =>
    rw [isAdmissible_iff id]
    simpa [parts, IsAllowed, children, partsOf_eq_map] using forall₂_congr hitems
  | subquery node =>
    rw [isAdmissible_iff id]
    simp [parts]
  | embedded command =>
    rw [isAdmissible_iff id]
    cases command <;>
      simp [parts, IsAllowed, children, Part.isAccepted_command_iff, Piece.IsWritable]
  | delayed code =>
    rw [isAdmissible_iff id]
    simp [parts, IsAllowed, children]

/-- An expression is written, to whatever buffer, exactly if every call in it is known, subqueries
stand in tests only, the query around it accepts each column and each subquery, and each settled
command has a parameter for each of its placeholders. -/
theorem exists_compile_eq_ok_iff (ctx : ExprContext) (b : CodeBuffer) (e : Expr) :
    (∃ b', e.compile ctx b = .ok b') ↔ e.IsAdmissible ctx := by
  let s : Surroundings := ⟨ctx, fun _ => .ok []⟩
  calc (∃ b', e.compile ctx b = .ok b')
    _ ↔ ∃ ps, e.pieces s.context = .ok ps ∧ ∀ p ∈ ps, p.IsWritable := Piece.exists_bind_extend_iff b
    _ ↔ Part.AreAccepted s e.parts := by rw [pieces_eq_piecesOf_parts, Part.exists_piecesOf_iff]
    _ ↔ e.IsAdmissible s.context := areAccepted_parts_iff e

end Expr

end DeclarativeSql
