import DeclarativeSql.Proofs.Embedding.Pieces
import DeclarativeSql.Proofs.Embedding.Steadiness
import DeclarativeSql.Proofs.Parameters.History
import DeclarativeSql.Proofs.Rendering.Relabelling

/-!
# Embedded commands

A command in an expression may be settled or open. A settled one is written at once, behind the
parameters that are there; an open one is kept and written anew each time, behind all parameters of
the text around it. Either way the text says the same.
-/
namespace DeclarativeSql

open Content

/-- Replaces commands only. -/
def Relabelling.ofCommands (f : Command → Command) : Relabelling := ⟨id, f⟩

def Expr.mapCommands (f : Command → Command) (e : Expr) : Expr := e.relabel (.ofCommands f)

def Arena.mapCommands (f : Command → Command) (a : Arena) : Arena := a.relabel (.ofCommands f)

/-- The current text of the statement at a node. -/
def Arena.outcome (a : Arena) (r : CodeRunner) (site : Site) (id : NodeId) : Outcome := do
  (← a.build id).compile r site

/-- The current text of an expression on its own. -/
def Expr.outcome (e : Expr) (ctx : ExprContext) (r : CodeRunner) (site : Site) : Outcome :=
  (e.pieces ctx).outcome r site

/-- A name without the sign of a placeholder, or a command whose current text is that of its
replacement as well. -/
def Part.IsKept (r : CodeRunner) (f g : Command → Command) : Part → Prop
  | text token => '@' ∉ token.toList
  | column c => '@' ∉ c.name.toList
  | table t => '@' ∉ t.name.toList
  | command c => (f c).compile r [] = (g c).compile r []
  | _ => True

/-- Both say the same. -/
def Pieces.SaySame (r : CodeRunner) (fill : Filling) (x y : Pieces) : Prop :=
  ∃ u, x.Says r fill u ∧ y.Says r fill u

variable {r : CodeRunner} {fill left : Filling} {f g : Command → Command}

namespace Pieces

variable {x x' y y' : Pieces}

theorem SaySame.append (h : x.SaySame r fill y) (h' : x'.SaySame r fill y') :
    SaySame r fill (do return (← x) ++ (← x')) (do return (← y) ++ (← y')) := by
  obtain ⟨u, hx, hy⟩ := h
  obtain ⟨v, hx', hy'⟩ := h'
  exact ⟨join? u v, hx.append hx', hy.append hy'⟩

theorem SaySame.agree (h : x.SaySame r fill y) (hr : r.Obeys fill left) (site site' : Site) :
    (x.outcome r site).Agree (y.outcome r site') := by
  obtain ⟨u, hx, hy⟩ := h
  exact hx.agree hy hr site site'

theorem says_single {p : Piece} (hp : p.IsUnmarked) :
    Says r fill (.ok [p]) (p.said r fill) := by
  have hunmarked : ∀ q ∈ [p], q.IsUnmarked := by simpa using hp
  rw [← join?_nil (p.said r fill)]
  exact .ok hunmarked

theorem says_error (e : ConstructionError) : SaySame r fill (.error e) (.error e) :=
  ⟨none, .error, .error⟩

theorem says_text {token : String} (h : '@' ∉ token.toList) :
    SaySame r fill (.ok [.text token]) (.ok [.text token]) :=
  ⟨_, says_single h, says_single h⟩

end Pieces

theorem Compiled.embedded?_of_unknown {c : Compiled} {name : String}
    (h : c.unknownPlaceholder? = some name) : c.embedded? = none := by
  obtain ⟨part, hpart, hname⟩ := List.exists_of_findSome?_eq_some h
  refine if_pos ?_
  refine List.mem_map.mpr ⟨part, hpart, ?_⟩
  cases part with
  | plain c => cases hname
  | placeholder digits =>
    simp only at hname
    rw [TextPart.mark]
    cases hnamed : Parameter.named? c.parameters
        (String.ofList (TextPart.placeholder digits).chars) with
    | none => rfl
    | some p => simp [hnamed] at hname

/-- A settled text with an unknown placeholder is refused when its piece is made, an open one when
it is filled. -/
theorem Piece.says_ofCommand (c : Command) :
    Pieces.Says r fill (do return [← ofCommand c]) (Outcome.embedded? (c.compile r [])) := by
  cases c with
  | delayed b => exact Pieces.says_single (p := .command (.delayed b)) trivial
  | immediate c =>
    rw [ofCommand]
    cases hunknown : c.unknownPlaceholder? with
    | none => exact Pieces.says_single (p := .command (.immediate c)) trivial
    | some name =>
      have hnone : Outcome.embedded? (.ok c) = none := Compiled.embedded?_of_unknown hunknown
      rw [Command.compile, hnone]
      exact .error

theorem Part.isKept_of_comeFrom {leaves ps : List Part} (h : ComeFrom leaves ps)
    (hleaves : ∀ p ∈ leaves, p.IsKept r f g) : ∀ p ∈ ps, p.IsKept r f g := by
  intro p hp
  rcases h p hp with hleaf | hwording
  · exact hleaves p hleaf
  · cases p with
    | text token => exact hwording.1
    | refusal e => trivial
    | _ => exact hwording.elim

namespace Arena

variable {a : Arena} {depth : Nat}

theorem columnReference_saySame {c : Column} (hc : '@' ∉ c.name.toList) :
    Pieces.SaySame r fill (do return [.text (← a.columnReference c)])
      (do return [.text (← a.columnReference c)]) := by
  rw [columnReference]
  cases halias : a.alias? c.table with
  | none => exact Pieces.says_error _
  | some name =>
    have hname := (isPlainText_alias halias).1
    exact Pieces.says_text (by simp [hname, hc])

theorem introduce_saySame {t : Table} (ht : '@' ∉ t.name.toList) :
    Pieces.SaySame r fill (a.introduce t) (a.introduce t) := by
  rw [introduce]
  cases halias : a.alias? t.id with
  | none => exact Pieces.says_error _
  | some name =>
    have hname := (isPlainText_alias halias).1
    exact (Pieces.says_text ht).append (Pieces.says_text hname)

section Parts

variable (hbelow : ∀ id, Pieces.SaySame r fill ((a.mapCommands f).selectPieces depth id)
  ((a.mapCommands g).selectPieces depth id))

include hbelow

theorem part_saySame {p : Part} (hp : p.IsKept r f g) :
    Pieces.SaySame r fill
      ((p.relabel (.ofCommands f)).pieces ((a.mapCommands f).surroundings depth))
      ((p.relabel (.ofCommands g)).pieces ((a.mapCommands g).surroundings depth)) := by
  cases p with
  | text token => exact Pieces.says_text hp
  | source s => exact ⟨_, Pieces.says_single trivial, Pieces.says_single trivial⟩
  | column c => exact columnReference_saySame hp
  | table t => exact introduce_saySame hp
  | command c =>
    have hkept : (f c).compile r [] = (g c).compile r [] := hp
    refine ⟨_, Piece.says_ofCommand (f c), ?_⟩
    rw [hkept]
    exact Piece.says_ofCommand (g c)
  | code id => exact ⟨_, Pieces.says_single trivial, Pieces.says_single trivial⟩
  | subquery id =>
    simp only [Part.relabel, Part.pieces, surroundings, mapCommands, ownerOf_relabel]
    cases a.ownerOf id with
    | error e => exact Pieces.says_error e
    | ok => exact hbelow id
  | refusal e => exact Pieces.says_error e

theorem piecesOf_saySame {ps : List Part} (hps : ∀ p ∈ ps, p.IsKept r f g) :
    Pieces.SaySame r fill
      (Part.piecesOf ((a.mapCommands f).surroundings depth)
        (ps.map (Part.relabel (.ofCommands f))))
      (Part.piecesOf ((a.mapCommands g).surroundings depth)
        (ps.map (Part.relabel (.ofCommands g)))) := by
  induction ps with
  | nil => exact ⟨_, .ok (by simp), .ok (by simp)⟩
  | cons p ps ih =>
    have hfirst := part_saySame hbelow (hps p List.mem_cons_self)
    exact hfirst.append (ih fun q hq => hps q (List.mem_cons_of_mem _ hq))

end Parts

section Kept

variable (ha : ∀ p ∈ a.leaves, p.IsKept r f g)

include ha

theorem selectPieces_saySame (depth : Nat) (id : NodeId) :
    Pieces.SaySame r fill ((a.mapCommands f).selectPieces depth id)
      ((a.mapCommands g).selectPieces depth id) := by
  induction depth generalizing id with
  | zero => exact Pieces.says_error _
  | succ depth ih =>
    have hparts := Part.isKept_of_comeFrom (comeFrom_sourceParts_leaves id) ha
    rw [selectPieces_succ, selectPieces_succ]
    simp only [mapCommands, sourceParts_relabel]
    exact piecesOf_saySame ih hparts

theorem pieces_saySame (id : NodeId) :
    Pieces.SaySame r fill ((a.mapCommands f).pieces id) ((a.mapCommands g).pieces id) := by
  have hparts := Part.isKept_of_comeFrom (comeFrom_statementParts id) ha
  rw [pieces_eq, pieces_eq]
  simp only [mapCommands, statementParts_relabel, statementDepth_relabel]
  exact piecesOf_saySame (selectPieces_saySame ha _) hparts

theorem expr_saySame {e : Expr} (he : ∀ p ∈ e.leaves, p.IsKept r f g) :
    Pieces.SaySame r fill ((e.mapCommands f).pieces (a.mapCommands f).context)
      ((e.mapCommands g).pieces (a.mapCommands g).context) := by
  have hparts := Part.isKept_of_comeFrom (Expr.comeFrom_parts e) he
  have hcontext : ∀ a : Arena, a.context = (a.surroundings (a.size + 1)).context := fun _ => rfl
  rw [hcontext, hcontext, Expr.pieces_eq_piecesOf_parts, Expr.pieces_eq_piecesOf_parts]
  simp only [mapCommands, Expr.mapCommands, Expr.parts_relabel, size_relabel]
  exact piecesOf_saySame (selectPieces_saySame ha _) hparts

end Kept

theorem outcome_eq (id : NodeId) (site : Site) :
    a.outcome r site id =
      Pieces.outcome (do return (← a.pieces id) ++ [Piece.text ";"]) r site := by
  rw [outcome, build, Pieces.outcome]
  simp only [bind_assoc, pure_bind]

end Arena

/-- Wherever commands stand in the expressions of a query tree, each may be replaced by another one
with the same current text and parameters, be it settled or open. What is built from a statement, or
from an expression on its own, has the same text once each placeholder is replaced by its source,
and parameters for the same sources. Only the numbers of the parameters are others. -/
theorem Arena.outcome_of_same_text {l : Library} (hl : l.IsSteady) {f g : Command → Command}
    {a : Arena} (ha : ∀ p ∈ a.leaves, p.IsKept l.runner f g) (site site' : Site) :
    (∀ id, ((a.mapCommands f).outcome l.runner site id).Agree
      ((a.mapCommands g).outcome l.runner site' id)) ∧
    ∀ e : Expr, (∀ p ∈ e.leaves, p.IsKept l.runner f g) →
      ((e.mapCommands f).outcome (a.mapCommands f).context l.runner site).Agree
        ((e.mapCommands g).outcome (a.mapCommands g).context l.runner site') := by
  obtain ⟨left, hobeys⟩ := hl.obeys (l.scripts.length + 1)
  refine ⟨fun id => ?_, fun e he => ?_⟩
  · rw [outcome_eq, outcome_eq]
    have hend : Pieces.SaySame l.runner (l.filling (l.scripts.length + 1)) (.ok [.text ";"])
        (.ok [.text ";"]) := Pieces.says_text (by decide)
    exact ((pieces_saySame ha id).append hend).agree hobeys site site'
  · exact (expr_saySame ha he).agree hobeys site site'

namespace Arena.Users

/-- The text of the first command, asked for again each time. -/
def reopened : CodeBuffer := ⟨[.code ⟨0⟩, .text ";"], []⟩

theorem reopened_isSound : (Command.delayed reopened).IsSound 1 := by
  have hend : IsPlainText ";" := by decide
  refine .delayed ⟨?_, by decide, .start⟩
  intro s hs
  rcases List.mem_cons.mp hs with rfl | hs
  · exact .code (Nat.zero_lt_one)
  · rw [List.mem_singleton.mp hs]
    exact .text (.ofPlain hend)

/-- The users whose id is one that a command selects, asked for twice, or two. -/
def embedding : Arena :=
  byId (.call .coalesce [.embedded (.delayed reopened), .embedded (.delayed reopened)])

theorem embedding_leaf_cases {p : Part} (hp : p ∈ embedding.leaves) :
    p = .table table ∨ p = .column idColumn ∨ p = .command (.delayed reopened) ∨
      ∃ s, p = .source s := by
  have hleaves : embedding.leaves = [.table table, .column idColumn,
      .command (.delayed reopened), .command (.delayed reopened), .column idColumn,
      .source (.value ⟨[2]⟩ (.int 2))] := rfl
  rw [hleaves] at hp
  simp only [List.mem_cons, List.not_mem_nil, or_false] at hp
  rcases hp with rfl | rfl | rfl | rfl | rfl | rfl
  · exact .inl rfl
  · exact .inr (.inl rfl)
  · exact .inr (.inr (.inl rfl))
  · exact .inr (.inr (.inl rfl))
  · exact .inr (.inl rfl)
  · exact .inr (.inr (.inr ⟨_, rfl⟩))

/-- The command may as well be settled: what is built says the same. -/
theorem embedding_agrees : ∃ inner c outer d d', (byId one).build 1 = .ok inner ∧
    (Command.delayed reopened).compile (Library.ofCommands [inner]).runner [] = .ok c ∧
    embedding.build 1 = .ok outer ∧ outer.isDelayed = true ∧
    outer.compile (Library.ofCommands [inner]).runner [] = .ok d ∧
    (embedding.mapCommands fun _ => .immediate c).outcome (Library.ofCommands [inner]).runner [] 1 =
      .ok d' ∧
    d'.content = d.content ∧
    (d'.parameters.map (·.source.id)).Perm (d.parameters.map (·.source.id)) := by
  obtain ⟨inner, outer, hinner, -, -, hbuilt⟩ := nested_built
  have hfirst : ∀ (i : Nat) (c : Command), [inner][i]? = some c → c.IsSound i := by
    intro i c hc
    obtain ⟨rfl, rfl⟩ : i = 0 ∧ c = inner := by
      rcases i with _ | i
      · exact ⟨rfl, (Option.some.inj hc).symm⟩
      · cases hc
    exact hbuilt.isSound 0 c rfl
  have hfills : (Library.ofCommands [inner]).runner.Fills 1 :=
    Library.fills_runnerOfDepth hfirst (by simp) le_rfl
  obtain ⟨c, hc, -⟩ := reopened_isSound.compile hfills []
  have hleaves : ∀ p ∈ embedding.leaves, p.IsSound 1 := by
    intro p hp
    rcases embedding_leaf_cases hp with rfl | rfl | rfl | ⟨s, rfl⟩
    · exact (by decide : IsPlainText table.name)
    · exact (by decide : IsPlainText idColumn.name)
    · exact reopened_isSound
    · trivial
  have houter : ∃ c, embedding.build 1 = .ok c ∧ c.isDelayed = true := ⟨_, rfl, rfl⟩
  obtain ⟨outer, houter, hdelayed⟩ := houter
  obtain ⟨d, hd, -⟩ := (isSound_of_build hleaves houter).compile hfills []
  have hkept : ∀ p ∈ embedding.leaves,
      p.IsKept (Library.ofCommands [inner]).runner id fun _ => .immediate c := by
    intro p hp
    rcases embedding_leaf_cases hp with rfl | rfl | rfl | ⟨s, rfl⟩
    · exact (by decide : '@' ∉ table.name.toList)
    · exact (by decide : '@' ∉ idColumn.name.toList)
    · exact hc
    · trivial
  have hsame : embedding.mapCommands id = embedding := rfl
  have hagree := (outcome_of_same_text (Library.isSteady_ofCommands [inner]) hkept [] []).1 1
  have houtcome : embedding.outcome (Library.ofCommands [inner]).runner [] 1 = .ok d := by
    rw [outcome, houter]
    exact hd
  rw [hsame, houtcome] at hagree
  generalize hother : (embedding.mapCommands fun _ => .immediate c).outcome
    (Library.ofCommands [inner]).runner [] 1 = x at hagree
  cases hagree with
  | @ok _ d' hcontent hsources =>
    exact ⟨inner, c, outer, d, d', hinner, hc, houter, hdelayed, hd, hother, hcontent, hsources⟩

end Arena.Users

end DeclarativeSql
