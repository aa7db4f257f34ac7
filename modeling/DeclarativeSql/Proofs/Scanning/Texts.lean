import DeclarativeSql.Proofs.Query.Runs
import DeclarativeSql.Proofs.Scanning.Statements

/-!
# Scanned texts

The text of a command is scanned token by token, where its names are identifiers, exactly if none
of its operators takes in a sign. Earlier commands inside it are tokens like any others: they begin
with a keyword and do not end in an operator.
-/
namespace DeclarativeSql

open Content (Flow IsAtom Quiet)

variable {fill : CodeId → Content} {n : Nat}

namespace Content

/-- The terminator is written right behind the last token. -/
theorem body_joinAll_concat (us : List Content) :
    body (joinAll (us ++ [[Mark.char ';']])) = joinAll us := by
  have hgap : ∀ o : Option Mark, gap o (some (.char ';')) = [] := by
    intro o
    cases o with
    | none => rfl
    | some x =>
      have hsymbol : Spacing.isSymbol ';' = true := by decide
      have hletter : CharClass.isAlphabetic ';' = false := by decide
      simp [gap, Mark.needsSpace, Mark.first, Spacing.isNeeded, hsymbol, hletter]
  have hjoin : joinAll (us ++ [[Mark.char ';']]) = joinAll us ++ [Mark.char ';'] := by
    rw [joinAll_concat, join, List.head?_cons, hgap, List.append_nil]
  rw [hjoin, body, List.getLast?_concat, if_pos rfl, List.dropLast_concat]

end Content

/-- Each command begins and ends like a name, if what is filled in for the earlier ones does. -/
def Command.AreAtoms (cs : List Command) : Prop :=
  ∀ (i : Nat) (c : Command), cs[i]? = some c → ∀ fill : CodeId → Content,
    (∀ id : CodeId, id.index < i → IsAtom (fill id)) → IsAtom (c.content fill).body

namespace Arena

variable {a : Arena} {id : NodeId}

/-- All names are identifiers, all commands are earlier ones, and the only code there is writes an
earlier command. -/
structure BuildsOnIdentifiers (a : Arena) (earlier : List Command) : Prop where
  tables : ∀ t, .table t ∈ a.leaves → IsIdentifier t.name
  columns : ∀ c, .column c ∈ a.leaves → IsIdentifier c.name
  /-- The names in the head of an insert. -/
  names : ∀ name, .text name ∈ a.leaves → IsIdentifier name
  commands : ∀ c, .command c ∈ a.leaves → c ∈ earlier
  codes : ∀ id, .code id ∈ a.leaves → id.index < earlier.length

theorem isIdentifier_alias {t : TableId} {name : String} (h : a.alias? t = some name) :
    IsIdentifier name := by
  obtain ⟨i, -, rfl⟩ := Option.map_eq_some_iff.mp h
  have hgrows : IsIdentifier "t" := by decide
  exact hgrows.append (.toString_nat i)

namespace BuildsOnIdentifiers

variable {earlier : List Command}

theorem isPlainText_of_isIdentifier {name : String} (h : IsIdentifier name) :
    IsPlainText name :=
  ⟨fun hmem => absurd (h.2 _ hmem) (by decide), fun hmem => absurd (h.2 _ hmem) (by decide)⟩

theorem buildsOn (h : a.BuildsOnIdentifiers earlier) : a.BuildsOn earlier where
  tables t ht := isPlainText_of_isIdentifier (h.tables t ht)
  columns c hc := isPlainText_of_isIdentifier (h.columns c hc)
  names name hname := isPlainText_of_isIdentifier (h.names name hname)
  commands := h.commands
  codes := h.codes

theorem hasNeatLeaves (h : a.BuildsOnIdentifiers earlier)
    (hearlier : Command.AreAtoms earlier)
    (hfill : ∀ id : CodeId, id.index < earlier.length → IsAtom (fill id)) :
    a.HasNeatLeaves fill := by
  have hone : ∀ {q : Piece}, IsAtom (q.content fill) →
      [q] ≠ [] ∧ ∀ x ∈ [q], IsAtom (x.content fill) :=
    fun hq => ⟨List.cons_ne_nil _ _, List.forall_mem_singleton.mpr hq⟩
  intro p hp hquery depth qs hqs
  cases p with
  | text name => exact Part.isNeat_text (h.names name hp).isAtom hqs
  | source p =>
    cases hqs
    refine hone (Content.isAtom_of_forall (List.cons_ne_nil _ _) fun x hx => ?_)
    rw [List.mem_singleton.mp hx]
    rfl
  | column c =>
    simp only [Part.pieces, bind_eq_ok, pure_eq_ok, surroundings, columnReference] at hqs
    obtain ⟨name, hname, rfl⟩ := hqs
    split at hname
    next halias =>
      cases hname
      exact hone (IsIdentifier.isAtom_qualified (isIdentifier_alias halias) (h.columns c hp))
    next => cases hname
  | table t =>
    simp only [Part.pieces, surroundings, introduce] at hqs
    split at hqs
    next halias =>
      cases hqs
      exact ⟨List.cons_ne_nil _ _, List.forall_mem_cons.mpr ⟨(h.tables t hp).isAtom,
        List.forall_mem_singleton.mpr (isIdentifier_alias halias).isAtom⟩⟩
    next => cases hqs
  | command c =>
    simp only [Part.pieces, bind_eq_ok, pure_eq_ok] at hqs
    obtain ⟨q, hq, rfl⟩ := hqs
    rw [Piece.eq_command_of_ofCommand hq]
    obtain ⟨i, hi, rfl⟩ := List.getElem_of_mem (h.commands c hp)
    exact hone (hearlier i _ (List.getElem?_eq_getElem hi) fill
      fun id hid => hfill id (hid.trans hi))
  | code id =>
    cases hqs
    exact hone (hfill id (h.codes id hp))
  | subquery g => exact absurd rfl (hquery g)
  | refusal e => cases hqs

end BuildsOnIdentifiers

/-- The pieces of a statement as contents, with the terminator. -/
theorem IsForest.flow_pieces (h : a.IsForest) (hneat : a.HasNeatLeaves fill) {ps : List Piece}
    (hps : a.pieces id = .ok ps) :
    Flow ((ps ++ [Piece.text ";"]).map (Piece.content fill)) ∧
      (Quiet ((ps ++ [Piece.text ";"]).map (Piece.content fill)) ↔
        a.SignsApart (a.statementExprs id)) ∧
      IsAtom (Content.joinAll (ps.map (Piece.content fill))) := by
  rw [pieces_eq] at hps
  obtain ⟨hflow, hquiet, c, hc, hopens⟩ := h.reads_statementParts hneat id _ hps
  have hend : IsAtom (Scanner.marks ";") := by decide
  have hendFlow : Flow [Piece.content fill (.text ";")] :=
    .atoms (List.forall_mem_singleton.mpr hend)
  have hstarts : c.startsWithOperator = false := by
    by_contra hstarts
    exact hopens.mp (hflow.starts c hc (Bool.not_eq_false _ ▸ hstarts))
  rw [List.map_append, List.map_singleton]
  refine ⟨hflow.append hendFlow, ?_, hflow.isAtom_joinAll hc hstarts⟩
  rw [Content.quiet_append_iff hflow.ends, hquiet]
  exact and_iff_left (.singleton _)

/-- Where the names are identifiers, a command begins and ends like a name. -/
theorem IsForest.isAtom_content (h : a.IsForest) (hneat : a.HasNeatLeaves fill)
    (hsound : ∀ p ∈ a.leaves, p.IsSound n) {c : Command} (hbuild : a.build id = .ok c) :
    IsAtom (c.content fill).body := by
  simp only [build, bind_eq_ok, pure_eq_ok] at hbuild
  obtain ⟨ps, hps, b, hb, rfl⟩ := hbuild
  rw [Piece.content_of_buffer (isSound_of_pieces hsound hps) hb, List.map_append]
  exact (Content.body_joinAll_concat _).symm ▸ (h.flow_pieces hneat hps).2.2

end Arena

/-- Commands that are built one after the other, by runs over tables and columns whose names are
identifiers. -/
inductive BuiltOverIdentifiers : List Command → Prop
  | nil : BuiltOverIdentifiers []
  | build {earlier : List Command} {operations : List Arena.Operation} {id : NodeId} {c : Command}
    (h : BuiltOverIdentifiers earlier)
    (hnames : (Arena.empty.run operations).BuildsOnIdentifiers earlier)
    (hbuild : (Arena.empty.run operations).build id = .ok c) :
    BuiltOverIdentifiers (earlier ++ [c])

namespace BuiltOverIdentifiers

variable {cs : List Command}

theorem builtInTurn (h : BuiltOverIdentifiers cs) : BuiltInTurn cs := by
  induction h with
  | nil => exact .nil
  | build _ hnames hbuild ih => exact .build ih hnames.buildsOn hbuild

theorem areAtoms (h : BuiltOverIdentifiers cs) : Command.AreAtoms cs := by
  induction h with
  | nil => simp [Command.AreAtoms]
  | @build earlier operations id c h hnames hbuild ih =>
    intro i d hd fill hfill
    rcases Nat.lt_trichotomy i earlier.length with hi | rfl | hi
    · rw [List.getElem?_append_left hi] at hd
      exact ih i d hd fill hfill
    · rw [List.getElem?_concat_length] at hd
      cases hd
      exact (Arena.empty_isForest.run operations).isAtom_content (hnames.hasNeatLeaves ih hfill)
        (hnames.buildsOn.isSound_of_mem_leaves h.builtInTurn.isSound) hbuild
    · rw [List.getElem?_eq_none (by simpa using Nat.succ_le_of_lt hi)] at hd
      cases hd

end BuiltOverIdentifiers

/-- The text of a piece that is written by itself. -/
def Piece.CompilesTo (r : CodeRunner) (site : Site) (p : Piece) (d : Compiled) : Prop :=
  ∃ b, Piece.buffer [p] = .ok b ∧ (Command.ofBuffer b).compile r site = .ok d

theorem Piece.IsSound.exists_compilesTo {p : Piece} (hp : p.IsSound n) {r : CodeRunner}
    (hr : r.Writes fill n) (site : Site) :
    ∃ d, p.CompilesTo r site d ∧ d.content = p.content fill := by
  have hall : ∀ q ∈ [p], q.IsSound n := List.forall_mem_singleton.mpr hp
  obtain ⟨b, hb, hcommand⟩ := Piece.isSound_of_buffer hall
  obtain ⟨d, hd, -⟩ := hcommand.compile hr.fills site
  refine ⟨d, ⟨b, hb, hd⟩, ?_⟩
  rw [hcommand.content_compile hr hd, Piece.content_of_buffer hall hb, List.map_singleton]
  exact Content.join_nil _

theorem Piece.exists_compilesTo {ps : List Piece} (hps : ∀ p ∈ ps, p.IsSound n) {r : CodeRunner}
    (hr : r.Writes fill n) (site : Site) :
    ∃ ds, List.Forall₂ (CompilesTo r site) ps ds ∧
      ds.map Compiled.content = ps.map (Piece.content fill) := by
  induction ps with
  | nil => exact ⟨[], .nil, rfl⟩
  | cons p ps ih =>
    obtain ⟨hp, hrest⟩ := List.forall_mem_cons.mp hps
    obtain ⟨d, hd, hcontent⟩ := hp.exists_compilesTo hr site
    obtain ⟨ds, hds, hcontents⟩ := ih hrest
    exact ⟨d :: ds, .cons hd hds, by rw [List.map_cons, hcontent, hcontents, List.map_cons]⟩

theorem Piece.compilesTo_text {token : String} (h : token ≠ "") {r : CodeRunner} {site : Site} :
    CompilesTo r site (.text token) ⟨token, []⟩ := by
  have hne : token.isEmpty = false := by simpa using h
  refine ⟨⟨[.text token], []⟩, ?_, ?_⟩
  · simp [buffer, writeAll, write, CodeBuffer.append, hne, CodeBuffer.empty, Segment.appendToken]
  · simp [Command.ofBuffer, CodeBuffer.isDelayed, Segment.isOpen, CodeBuffer.fixedText, String.join,
      Command.compile, Segment.fixedText]

/-- The lexemes of a text are those of its pieces, one after the other, exactly if no operator of
the statement takes in a sign. -/
theorem BuiltOverIdentifiers.scan_text_iff {earlier : List Command}
    (h : BuiltOverIdentifiers earlier) {operations : List Arena.Operation}
    (hnames : (Arena.empty.run operations).BuildsOnIdentifiers earlier) {id : NodeId} {c : Command}
    (hbuild : (Arena.empty.run operations).build id = .ok c) (site : Site) :
    ∃ ps ds d, (Arena.empty.run operations).pieces id = .ok ps ∧
      List.Forall₂ (Piece.CompilesTo (Library.ofCommands earlier).runner site)
        (ps ++ [.text ";"]) ds ∧
      c.compile (Library.ofCommands earlier).runner site = .ok d ∧
      (Scanner.scan d.content = (ds.map Compiled.content).flatMap Scanner.scan ↔
        (Arena.empty.run operations).SignsApart
          ((Arena.empty.run operations).statementExprs id)) := by
  have hsound := hnames.buildsOn.isSound_of_mem_leaves h.builtInTurn.isSound
  have hcommand := Arena.isSound_of_build hsound hbuild
  have hdepth : earlier.length ≤ (Library.ofCommands earlier).scripts.length + 1 := by
    rw [Library.length_ofCommands]
    exact Nat.le_succ _
  obtain ⟨fill, hwrites, hfill⟩ :=
    Library.writes_runnerOfDepth h.builtInTurn.isSound h.areAtoms hdepth le_rfl
  simp only [Arena.build, bind_eq_ok, pure_eq_ok] at hbuild
  obtain ⟨ps, hps, b, hb, rfl⟩ := hbuild
  have hpieces := Arena.isSound_of_pieces hsound hps
  obtain ⟨ds, hds, hcontents⟩ := Piece.exists_compilesTo hpieces hwrites site
  obtain ⟨d, hd, -⟩ := hcommand.compile hwrites.fills site
  have hcontent : d.content =
      Content.joinAll ((ps ++ [Piece.text ";"]).map (Piece.content fill)) := by
    rw [hcommand.content_compile hwrites hd, Piece.content_of_buffer hpieces hb]
  obtain ⟨hflow, hquiet, -⟩ := (Arena.empty_isForest.run operations).flow_pieces
    (hnames.hasNeatLeaves h.areAtoms hfill) hps
  refine ⟨ps, ds, d, hps, hds, hd, ?_⟩
  rw [hcontent, hcontents, (Content.scan_joinAll hflow.nonempty hflow.noComment hflow.chain).2]
  exact hquiet

namespace Arena.Users

section ById

variable {operand : Expr} {earlier : List Command}
  (hleaves : (byId operand).leaves =
    [Part.table table, .column idColumn] ++ operand.leaves ++
      [Part.column idColumn, .source (.value ⟨[2]⟩ (.int 2))])
  (hoperand : ∀ p ∈ operand.leaves, (∃ s, p = .source s) ∨
    ∃ id : CodeId, p = .code id ∧ id.index < earlier.length)

include hleaves hoperand

theorem byId_buildsOnIdentifiers : (byId operand).BuildsOnIdentifiers earlier := by
  constructor
  · intro t ht
    rcases byId_leaf_cases hleaves hoperand ht with h | h | ⟨_, h⟩ | ⟨_, h, _⟩ <;> cases h
    decide
  · intro c hc
    rcases byId_leaf_cases hleaves hoperand hc with h | h | ⟨_, h⟩ | ⟨_, h, _⟩ <;> cases h
    decide
  · intro name hname
    rcases byId_leaf_cases hleaves hoperand hname with h | h | ⟨_, h⟩ | ⟨_, h, _⟩ <;> cases h
  · exact (byId_buildsOn hleaves hoperand).commands
  · exact (byId_buildsOn hleaves hoperand).codes

end ById

/-- A command is asked for the text of another one. -/
theorem nested_scan_text : ∃ inner outer, (byId one).build 1 = .ok inner ∧
    nested.build 1 = .ok outer ∧ outer.isDelayed = true ∧
    ∃ ps ds d, nested.pieces 1 = .ok ps ∧
      List.Forall₂ (Piece.CompilesTo (Library.ofCommands [inner]).runner [])
        (ps ++ [.text ";"]) ds ∧
      outer.compile (Library.ofCommands [inner]).runner [] = .ok d ∧
      Scanner.scan d.content = (ds.map Compiled.content).flatMap Scanner.scan := by
  obtain ⟨inner, outer, hinner, houter, hdelayed, -⟩ := nested_built
  have hfirst : BuiltOverIdentifiers [inner] :=
    .build .nil (byId_buildsOnIdentifiers rfl (by simp [one, Expr.leaves])) hinner
  have hnested : nested.BuildsOnIdentifiers [inner] :=
    byId_buildsOnIdentifiers rfl (by simp [Expr.leaves, Expr.leavesOf])
  have hsigns : nested.SignsApart (nested.statementExprs 1) :=
    .intro rfl fun g hg => by cases hg
  obtain ⟨ps, ds, d, hps, hds, hd, hiff⟩ := hfirst.scan_text_iff hnested houter []
  exact ⟨inner, outer, hinner, houter, hdelayed, ps, ds, d, hps, hds, hd, hiff.mpr hsigns⟩

/-- Users whose id leaves itself as the remainder by its opposite. -/
def signedRemainder : List Operation :=
  [.source table, .filter 1 (.binary .equal
    (.binary .modulo (.column idColumn) (.unary .negate (.column idColumn))) (.column idColumn))]

/-- The tokens of this query. -/
def signedRemainderTokens : List String :=
  ["SELECT * FROM", "users", "t0", "WHERE", "t0.id", "%", "-", "t0.id", "=", "t0.id"]

/-- The operator and the sign behind it are one lexeme. -/
theorem signedRemainder_takes_in_sign : ∃ c ds d,
    (empty.run signedRemainder).build 1 = .ok c ∧
    (empty.run signedRemainder).pieces 1 = .ok (signedRemainderTokens.map .text) ∧
    List.Forall₂ (Piece.CompilesTo (Library.ofCommands []).runner [])
      (signedRemainderTokens.map .text ++ [.text ";"]) ds ∧
    c.compile (Library.ofCommands []).runner [] = .ok d ∧
    d.text = "SELECT * FROM users t0 WHERE t0.id%-t0.id=t0.id;" ∧
    Scanner.scan d.content ≠ (ds.map Compiled.content).flatMap Scanner.scan := by
  refine ⟨_, (signedRemainderTokens ++ [";"]).map (⟨·, []⟩), _, rfl, rfl, ?_, rfl,
    by decide +kernel, by decide +kernel⟩
  have htokens : signedRemainderTokens.map Piece.text ++ [Piece.text ";"] =
      (signedRemainderTokens ++ [";"]).map .text := rfl
  rw [htokens, List.forall₂_map_left_iff, List.forall₂_map_right_iff, List.forall₂_same]
  have hne : ∀ token ∈ signedRemainderTokens ++ [";"], token ≠ "" := by decide
  exact fun token htoken => Piece.compilesTo_text (hne token htoken)

end Arena.Users

end DeclarativeSql
