import DeclarativeSql.Proofs.Parameters.Replay
import DeclarativeSql.Proofs.Query.Refusals
import DeclarativeSql.Proofs.Rendering.Clauses

/-!
# Commands built in turn

Commands are built one after the other, and each may contain earlier ones, as they are or as code
that is asked again for its text. Whatever the trees, the placeholders of a command's current text
are those of its parameters.
-/
namespace DeclarativeSql

/-- All names are free of placeholders, all commands are earlier ones, and the only code there is
writes an earlier command. -/
structure Arena.BuildsOn (a : Arena) (earlier : List Command) : Prop where
  tables : ∀ t, .table t ∈ a.leaves → IsPlainText t.name
  columns : ∀ c, .column c ∈ a.leaves → IsPlainText c.name
  /-- The names in the head of an insert. -/
  names : ∀ name, .text name ∈ a.leaves → IsPlainText name
  commands : ∀ c, .command c ∈ a.leaves → c ∈ earlier
  codes : ∀ id, .code id ∈ a.leaves → id.index < earlier.length

inductive BuiltInTurn : List Command → Prop
  | nil : BuiltInTurn []
  | build {earlier : List Command} {a : Arena} {id : NodeId} {c : Command}
    (h : BuiltInTurn earlier) (hnames : a.BuildsOn earlier) (hbuild : a.build id = .ok c) :
    BuiltInTurn (earlier ++ [c])

theorem IsPlainText.append {s t : String} (hs : IsPlainText s) (ht : IsPlainText t) :
    IsPlainText (s ++ t) := by
  unfold IsPlainText at *
  simp [hs, ht]

theorem Command.IsSound.mono {n m : Nat} {c : Command} (h : c.IsSound n) (hnm : n ≤ m) :
    c.IsSound m := by
  cases h with
  | immediate hc hordered => exact .immediate hc hordered
  | delayed hb => exact .delayed ⟨fun s hs => (hb.segments s hs).mono hnm, hb.single, hb.numbered⟩

def Part.IsSound (n : Nat) : Part → Prop
  | text token => IsPlainText token
  | column c => IsPlainText c.name
  | table t => IsPlainText t.name
  | command c => c.IsSound n
  | code id => id.index < n
  | _ => True

theorem Part.isSound_of_comeFrom {n : Nat} {leaves ps : List Part} (h : ComeFrom leaves ps)
    (hleaves : ∀ p ∈ leaves, p.IsSound n) : ∀ p ∈ ps, p.IsSound n := by
  intro p hp
  rcases h p hp with hleaf | hwording
  · exact hleaves p hleaf
  · cases p with
    | text token => exact hwording
    | refusal e => trivial
    | _ => exact hwording.elim

theorem Piece.eq_command_of_ofCommand {c : Command} {p : Piece} (h : ofCommand c = .ok p) :
    p = command c := by
  unfold ofCommand at h
  split at h
  · split at h
    · cases h
    · exact (Except.ok.inj h).symm
  · exact (Except.ok.inj h).symm

theorem Piece.isSound_of_ofCommand {n : Nat} {c : Command} {p : Piece} (h : ofCommand c = .ok p)
    (hc : c.IsSound n) : p.IsSound n := by
  rw [Piece.eq_command_of_ofCommand h]
  exact hc

namespace Arena

variable {a : Arena} {n : Nat}

theorem isPlainText_alias {t : TableId} {name : String} (h : a.alias? t = some name) :
    IsPlainText name := by
  obtain ⟨i, -, rfl⟩ := Option.map_eq_some_iff.mp h
  have hprefix : IsPlainText "t" := by decide
  exact hprefix.append (isPlainText_toString i)

theorem isSound_of_part {depth : Nat} {p : Part} (hp : p.IsSound n) {ps : List Piece}
    (h : p.pieces (a.surroundings depth) = .ok ps)
    (hbelow : ∀ id qs, a.selectPieces depth id = .ok qs → ∀ q ∈ qs, q.IsSound n) :
    ∀ q ∈ ps, q.IsSound n := by
  cases p with
  | text token =>
    cases h
    simpa [Piece.IsSound] using show IsPlainText token from hp
  | source s =>
    cases h
    simp [Piece.IsSound]
  | code id =>
    cases h
    simpa [Piece.IsSound] using show id.index < n from hp
  | refusal e => cases h
  | column c =>
    simp only [Part.pieces, bind_eq_ok, pure_eq_ok, surroundings, columnReference] at h
    obtain ⟨name, hname, rfl⟩ := h
    split at hname
    next halias =>
      cases hname
      have hdot : IsPlainText "." := by decide
      simpa [Piece.IsSound] using ((isPlainText_alias halias).append hdot).append hp
    next => cases hname
  | table t =>
    simp only [Part.pieces, surroundings, introduce] at h
    split at h
    next halias =>
      cases h
      simpa [Piece.IsSound] using ⟨hp, isPlainText_alias halias⟩
    next => cases h
  | command c =>
    simp only [Part.pieces, bind_eq_ok, pure_eq_ok] at h
    obtain ⟨q, hq, rfl⟩ := h
    simpa using Piece.isSound_of_ofCommand hq hp
  | subquery id =>
    simp only [Part.pieces, surroundings, bind_eq_ok] at h
    obtain ⟨_, -, hq⟩ := h
    exact hbelow id ps hq

theorem isSound_of_parts {depth : Nat} {ps : List Part} (hps : ∀ p ∈ ps, p.IsSound n)
    {qs : List Piece} (h : Part.piecesOf (a.surroundings depth) ps = .ok qs)
    (hbelow : ∀ id qs, a.selectPieces depth id = .ok qs → ∀ q ∈ qs, q.IsSound n) :
    ∀ q ∈ qs, q.IsSound n := by
  induction ps generalizing qs with
  | nil =>
    cases h
    simp
  | cons p ps ih =>
    simp only [Part.piecesOf, bind_eq_ok, pure_eq_ok] at h
    obtain ⟨first, hfirst, rest, hrest, rfl⟩ := h
    intro q hq
    rcases List.mem_append.mp hq with hq | hq
    · exact isSound_of_part (hps p List.mem_cons_self) hfirst hbelow q hq
    · exact ih (fun x hx => hps x (List.mem_cons_of_mem _ hx)) hrest q hq

theorem isSound_selectPieces (ha : ∀ p ∈ a.leaves, p.IsSound n) {depth : Nat} {id : NodeId}
    {ps : List Piece} (h : a.selectPieces depth id = .ok ps) : ∀ q ∈ ps, q.IsSound n := by
  induction depth generalizing id ps with
  | zero => cases h
  | succ depth ih =>
    rw [selectPieces_succ] at h
    exact isSound_of_parts (Part.isSound_of_comeFrom (comeFrom_sourceParts_leaves id) ha) h
      fun _ _ hq => ih hq

theorem isSound_of_pieces (ha : ∀ p ∈ a.leaves, p.IsSound n) {id : NodeId} {ps : List Piece}
    (h : a.pieces id = .ok ps) : ∀ p ∈ ps ++ [Piece.text ";"], p.IsSound n := by
  rw [pieces_eq] at h
  intro p hp
  rcases List.mem_append.mp hp with hp | hp
  · exact isSound_of_parts (Part.isSound_of_comeFrom (comeFrom_statementParts id) ha) h
      (fun _ _ hq => isSound_selectPieces ha hq) p hp
  · have hend : IsPlainText ";" := by decide
    rw [List.mem_singleton.mp hp]
    exact hend

theorem isSound_of_build (ha : ∀ p ∈ a.leaves, p.IsSound n) {id : NodeId} {c : Command}
    (h : a.build id = .ok c) : c.IsSound n := by
  simp only [build, bind_eq_ok, pure_eq_ok] at h
  obtain ⟨ps, hps, b, hb, rfl⟩ := h
  obtain ⟨b', hb', hcommand⟩ := Piece.isSound_of_buffer (isSound_of_pieces ha hps)
  rw [hb] at hb'
  cases hb'
  exact hcommand

theorem BuildsOn.isSound_of_mem_leaves {earlier : List Command} (h : a.BuildsOn earlier)
    (hearlier : ∀ (i : Nat) (c : Command), earlier[i]? = some c → c.IsSound i) :
    ∀ p ∈ a.leaves, p.IsSound earlier.length := by
  intro p hp
  cases p with
  | text name => exact h.names name hp
  | column c => exact h.columns c hp
  | table t => exact h.tables t hp
  | command c =>
    obtain ⟨i, hi, rfl⟩ := List.getElem_of_mem (h.commands c hp)
    exact (hearlier i _ (List.getElem?_eq_getElem hi)).mono hi.le
  | code id => exact h.codes id hp
  | _ => trivial

end Arena

theorem BuiltInTurn.isSound {cs : List Command} (h : BuiltInTurn cs) :
    ∀ (i : Nat) (c : Command), cs[i]? = some c → c.IsSound i := by
  induction h with
  | nil => simp
  | @build earlier a id c h hnames hbuild ih =>
    intro i d hd
    rcases Nat.lt_trichotomy i earlier.length with hi | rfl | hi
    · rw [List.getElem?_append_left hi] at hd
      exact ih i d hd
    · rw [List.getElem?_concat_length] at hd
      cases hd
      exact Arena.isSound_of_build (hnames.isSound_of_mem_leaves ih) hbuild
    · rw [List.getElem?_eq_none (by simpa using Nat.succ_le_of_lt hi)] at hd
      cases hd

theorem BuiltInTurn.compile {cs : List Command} (h : BuiltInTurn cs) {i : Nat} {c : Command}
    (hi : cs[i]? = some c) (site : Site) :
    ∃ d, c.compile (Library.ofCommands cs).runner site = .ok d ∧ d.IsComplete := by
  have hlt : i < cs.length := (List.getElem?_eq_some_iff.mp hi).1
  have hdepth : i ≤ (Library.ofCommands cs).scripts.length + 1 := by
    rw [Library.length_ofCommands]
    exact hlt.le.trans (Nat.le_succ _)
  exact (h.isSound i c hi).compile (Library.fills_runnerOfDepth h.isSound hdepth hlt.le) site

/-- Every command that was built has a current text. Its parameters are named by their positions and
stand for different sources, and the placeholders in the text are those of the parameters; in a text
that is settled they first occur in this order. With positional placeholders, as long as a machine
word counts the parameters, it names the positions from one on, each in the place of the parameter
it stands for. -/
theorem BuiltInTurn.placeholders_match {cs : List Command} (h : BuiltInTurn cs) {c : Command}
    (hc : c ∈ cs) (site : Site) :
    ∃ d, c.compile (Library.ofCommands cs).runner site = .ok d ∧
      d.parameters.map (·.name) = (List.range d.parameters.length).map placeholderName ∧
      (d.parameters.map (·.source.id)).Nodup ∧
      (∀ name, name ∈ placeholdersIn d.text ↔ name ∈ d.parameters.map (·.name)) ∧
      (c.isDelayed = false →
        (numbersIn d.text).eraseDups = List.range d.parameters.length) ∧
      (d.parameters.length < UInt64.size →
        Postgres.split (Postgres.toPositional d.text).toList =
            (TextPart.split d.text.toList).map Postgres.successor ∧
          ∀ digits, .placeholder digits ∈ Postgres.split (Postgres.toPositional d.text).toList ↔
            ∃ n, 1 ≤ n ∧ n ≤ d.parameters.length ∧ digits = Nat.toDigits 10 n) := by
  obtain ⟨i, hi⟩ := List.getElem?_of_mem hc
  have hcommand := h.isSound i c hi
  obtain ⟨d, hd, hcomplete⟩ := h.compile hi site
  obtain ⟨gs, hgs⟩ := hcomplete.legible
  refine ⟨d, hd, hcomplete.numbered.names, hcomplete.numbered.distinct, ?_, ?_, ?_⟩
  · intro name
    simp only [hgs.placeholdersIn, hcomplete.numbered.names, List.mem_map, hcomplete.numbers,
      List.mem_range]
  · intro hdelayed
    cases hcommand with
    | immediate hc hordered =>
      cases hd
      exact hordered
    | delayed hb => cases hdelayed
  · intro hsize
    have hsmall : ∀ n ∈ numbersIn d.text, n < UInt64.size - 1 :=
      fun n hn => ((hcomplete.numbers n).mp hn).trans_le (Nat.le_pred_of_lt hsize)
    refine ⟨Postgres.split_toPositional hgs hsmall, fun digits => ?_⟩
    rw [Postgres.placeholder_mem_split_toPositional_iff hgs hsmall]
    constructor
    · rintro ⟨n, hn, rfl⟩
      exact ⟨n + 1, Nat.le_add_left _ _, (hcomplete.numbers n).mp hn, rfl⟩
    · rintro ⟨n, hpos, hn, rfl⟩
      obtain ⟨m, rfl⟩ := Nat.exists_eq_add_of_le' hpos
      exact ⟨m, (hcomplete.numbers m).mpr hn, rfl⟩

namespace Arena.Users

def idColumn : Column := ⟨⟨"id", .scalar .int64, .empty⟩, "Id", ⟨1⟩, "users"⟩

def one : Expr := .literal (.source (.value ⟨[1]⟩ (.int 1)))

def two : Expr := .literal (.source (.value ⟨[2]⟩ (.int 2)))

/-- The users whose id is the operand, or two. -/
def byId (operand : Expr) : Arena :=
  empty.run [.source table,
    .filter 1 (.binary .orElse (.binary .equal (.column idColumn) operand)
      (.binary .equal (.column idColumn) two))]

section ById

variable {operand : Expr} {earlier : List Command}
  (hleaves : (byId operand).leaves =
    [Part.table table, .column idColumn] ++ operand.leaves ++
      [Part.column idColumn, .source (.value ⟨[2]⟩ (.int 2))])
  (hoperand : ∀ p ∈ operand.leaves, (∃ s, p = .source s) ∨
    ∃ id : CodeId, p = .code id ∧ id.index < earlier.length)

include hleaves hoperand

theorem byId_leaf_cases {p : Part} (hp : p ∈ (byId operand).leaves) :
    p = .table table ∨ p = .column idColumn ∨ (∃ s, p = .source s) ∨
      ∃ id : CodeId, p = .code id ∧ id.index < earlier.length := by
  rw [hleaves] at hp
  simp only [List.mem_append, List.mem_cons, List.not_mem_nil, or_false] at hp
  rcases hp with ((rfl | rfl) | hp) | rfl | rfl
  · exact .inl rfl
  · exact .inr (.inl rfl)
  · exact .inr (.inr (hoperand p hp))
  · exact .inr (.inl rfl)
  · exact .inr (.inr (.inl ⟨_, rfl⟩))

theorem byId_buildsOn : (byId operand).BuildsOn earlier := by
  constructor
  · intro t ht
    rcases byId_leaf_cases hleaves hoperand ht with h | h | ⟨_, h⟩ | ⟨_, h, _⟩ <;> cases h
    decide
  · intro c hc
    rcases byId_leaf_cases hleaves hoperand hc with h | h | ⟨_, h⟩ | ⟨_, h, _⟩ <;> cases h
    decide
  · intro name hname
    rcases byId_leaf_cases hleaves hoperand hname with h | h | ⟨_, h⟩ | ⟨_, h, _⟩ <;> cases h
  · intro c hc
    rcases byId_leaf_cases hleaves hoperand hc with h | h | ⟨_, h⟩ | ⟨_, h, _⟩ <;> cases h
  · intro id hid
    rcases byId_leaf_cases hleaves hoperand hid with h | h | ⟨_, h⟩ | ⟨_, h, hlt⟩ <;> cases h
    exact hlt

end ById

/-- The users whose id is among those with the id one, or two. -/
def nested : Arena := byId (.call .any [.delayed ⟨0⟩])

theorem nested_built : ∃ inner outer, (byId one).build 1 = .ok inner ∧
    nested.build 1 = .ok outer ∧ outer.isDelayed = true ∧ BuiltInTurn [inner, outer] := by
  have hinner : ∃ c, (byId one).build 1 = .ok c := ⟨_, rfl⟩
  have houter : ∃ c, nested.build 1 = .ok c ∧ c.isDelayed = true := ⟨_, rfl, rfl⟩
  obtain ⟨inner, hinner⟩ := hinner
  obtain ⟨outer, houter, hdelayed⟩ := houter
  refine ⟨inner, outer, hinner, houter, hdelayed, ?_⟩
  have hfirst : BuiltInTurn [inner] :=
    .build .nil (byId_buildsOn rfl (by simp [one, Expr.leaves])) hinner
  exact .build hfirst (byId_buildsOn rfl (by simp [Expr.leaves, Expr.leavesOf])) houter

/-- A command that asks for the text of another one, with a value in each of the two. -/
theorem nested_placeholders_match : ∃ inner outer, BuiltInTurn [inner, outer] ∧
    outer.isDelayed = true ∧
    ∃ d, outer.compile (Library.ofCommands [inner, outer]).runner [] = .ok d ∧
      d.parameters.map (·.name) = (List.range d.parameters.length).map placeholderName ∧
      (d.parameters.map (·.source.id)).Nodup ∧
      ∀ name, name ∈ placeholdersIn d.text ↔ name ∈ d.parameters.map (·.name) := by
  obtain ⟨inner, outer, -, -, hdelayed, hbuilt⟩ := nested_built
  obtain ⟨d, hd, hnames, hdistinct, hmatch, -⟩ :=
    hbuilt.placeholders_match (List.mem_cons_of_mem _ (List.mem_singleton_self outer)) []
  exact ⟨inner, outer, hbuilt, hdelayed, d, hd, hnames, hdistinct, hmatch⟩

end Arena.Users

end DeclarativeSql
