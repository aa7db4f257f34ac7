import DeclarativeSql.Proofs.Binding.Bindings
import DeclarativeSql.Proofs.Binding.OpenParts
import DeclarativeSql.Proofs.Binding.References
import DeclarativeSql.Proofs.Embedding.Steadiness

/-!
# Binding commands

Commands are built one after the other, and each may contain earlier ones, as they are or as code.
A command is bound once there is a value for each argument that its statement shows, or that a
statement inside it does. Where the name of a table or column looks like a placeholder, the text of
a command inside may be refused, and then nothing is bound at all.
-/
namespace DeclarativeSql

open Relation (ReflTransGen TransGen)

/-- A command, and the statement that it was built from. -/
structure Build where
  operations : List Arena.Operation
  node : NodeId
  command : Command

namespace Build

def arena (b : Build) : Arena := .run .empty b.operations

/-- The statement is written from the part. -/
def Shows (b : Build) (p : Part) : Prop := b.arena.Shows b.node p

end Build

/-- Builds in turn. Code is the command of the build at its index. -/
abbrev History := List Build

/-- Placeholders in the name of a table or column. -/
def Part.names : Part → List String
  | text name => TextPart.namesIn name
  | column c => TextPart.namesIn c.name
  | table t => TextPart.namesIn t.name
  | _ => []

namespace History

def runner (h : History) : CodeRunner := (Library.ofCommands (h.map (·.command))).runner

/-- Each command is what its statement is built as, and contains earlier commands only. -/
structure IsBuilt (h : History) : Prop where
  built : ∀ {i : Nat} {b : Build}, h[i]? = some b → b.arena.build b.node = .ok b.command
  commands : ∀ {i : Nat} {b : Build} {c : Command}, h[i]? = some b → b.Shows (.command c) →
    ∃ j d, j < i ∧ h[j]? = some d ∧ d.command = c
  codes : ∀ {i : Nat} {b : Build} {id : CodeId}, h[i]? = some b → b.Shows (.code id) →
    id.index < i

/-- The statement of the first command contains the second one, as it is or as code. -/
inductive Embeds (h : History) : Nat → Nat → Prop
  | command {i j : Nat} {b d : Build} (hj : j < i) (hb : h[i]? = some b) (hd : h[j]? = some d)
      (hshown : b.Shows (.command d.command)) : Embeds h i j
  | code {i : Nat} {b : Build} {id : CodeId} (hb : h[i]? = some b) (hshown : b.Shows (.code id)) :
      Embeds h i id.index

/-- The part is shown by the statement of the command, or by one of those inside it. -/
def Includes (h : History) (i : Nat) (p : Part) : Prop :=
  ∃ j b, ReflTransGen h.Embeds i j ∧ h[j]? = some b ∧ b.Shows p

/-- The values and arguments that the command refers to. -/
def sources (h : History) (i : Nat) : Set ParameterSource := {s | h.Includes i (.source s)}

/-- What looks like a placeholder inside the command, but is part of a name. -/
def strangeNames (h : History) (i : Nat) : Set String :=
  {name | ∃ j p, h.Embeds i j ∧ h.Includes j p ∧ name ∈ p.names}

variable {h : History} {i j : Nat} {b : Build} {p : Part}

theorem includes_iff : h.Includes i p ↔
    (∃ b, h[i]? = some b ∧ b.Shows p) ∨ ∃ j, h.Embeds i j ∧ h.Includes j p := by
  constructor
  · rintro ⟨j, b, hreach, hb, hp⟩
    rcases Relation.ReflTransGen.cases_head hreach with rfl | ⟨k, hk, hrest⟩
    · exact .inl ⟨b, hb, hp⟩
    · exact .inr ⟨k, hk, j, b, hrest, hb, hp⟩
  · rintro (⟨b, hb, hp⟩ | ⟨k, hk, j, b, hrest, hb, hp⟩)
    · exact ⟨i, b, .refl, hb, hp⟩
    · exact ⟨j, b, .head hk hrest, hb, hp⟩

theorem isBuilt_nil : IsBuilt [] := by
  constructor <;> simp

theorem IsBuilt.push (hbuilt : h.IsBuilt) (hbuild : b.arena.build b.node = .ok b.command)
    (hcommands : ∀ c, b.Shows (.command c) → ∃ d ∈ h, d.command = c)
    (hcodes : ∀ id, b.Shows (.code id) → id.index < h.length) : IsBuilt (h ++ [b]) := by
  have hcases : ∀ {i d}, (h ++ [b])[i]? = some d →
      h[i]? = some d ∨ i = h.length ∧ d = b := by
    intro i d hd
    rw [List.getElem?_append] at hd
    split at hd
    · exact .inl hd
    · obtain ⟨hi, hd⟩ := List.getElem?_eq_some_iff.mp hd
      simp only [List.length_singleton] at hi
      exact .inr ⟨by omega, by simpa using hd.symm⟩
  have hkeeps : ∀ {j d}, h[j]? = some d → (h ++ [b])[j]? = some d := fun {j d} hd => by
    rw [List.getElem?_append_left (List.getElem?_eq_some_iff.mp hd).1, hd]
  constructor
  · intro i d hd
    rcases hcases hd with hd | ⟨-, rfl⟩
    · exact hbuilt.built hd
    · exact hbuild
  · intro i d c hd hshown
    rcases hcases hd with hd | ⟨rfl, rfl⟩
    · obtain ⟨j, e, hj, he, hc⟩ := hbuilt.commands hd hshown
      exact ⟨j, e, hj, hkeeps he, hc⟩
    · obtain ⟨e, he, hc⟩ := hcommands c hshown
      obtain ⟨j, hj⟩ := List.getElem?_of_mem he
      exact ⟨j, e, (List.getElem?_eq_some_iff.mp hj).1, hkeeps hj, hc⟩
  · intro i d id hd hshown
    rcases hcases hd with hd | ⟨rfl, rfl⟩
    · exact hbuilt.codes hd hshown
    · exact hcodes id hshown

end History

theorem TextPart.namesIn_append_dot {table : String} (htable : '@' ∉ table.toList)
    (column : String) : namesIn (table ++ "." ++ column) = namesIn column := by
  have hbreak : IsBreak '.' := isBreak_of_isSymbol (by decide)
  have hlist : (table ++ "." ++ column).toList = table.toList ++ '.' :: column.toList := by simp
  have hnone : (split table.toList).filterMap name? = [] := namesIn_of_notMem htable
  rw [namesIn, hlist, split_append_break hbreak, List.filterMap_append, hnone]
  rfl

/-- The text of a part has the names of the part only. -/
theorem Part.names_of_yields {a : Arena} {p : Part} {token : String}
    (h : p.Yields a (.text token)) : TextPart.namesIn token ⊆ p.names := by
  cases h with
  | text => exact List.Subset.refl _
  | column halias =>
    rw [TextPart.namesIn_append_dot (Arena.isPlainText_alias halias).1]
    exact List.Subset.refl _
  | table => exact List.Subset.refl _
  | shortName halias =>
    rw [TextPart.namesIn_of_notMem (Arena.isPlainText_alias halias).1]
    exact List.nil_subset _

theorem Part.names_of_isWording {p : Part} (h : p.IsWording) : p.names = [] := by
  cases p with
  | text token => exact TextPart.namesIn_of_notMem h.1
  | refusal => rfl
  | _ => exact h.elim

namespace History

variable {h : History} {i j : Nat} {b : Build} {ps : List Piece} {strange inside : Set String}
  {codes : Set CodeId}

/-- Code inside the command. -/
def codesInside (h : History) (i : Nat) : Set CodeId := {x | TransGen h.Embeds i x.index}

def fill (h : History) : CodeSources := fun id => h.sources id.index

section Pieces

variable (hbuilt : h.IsBuilt) (hj : h[j]? = some b) (hps : b.arena.pieces b.node = .ok ps)
include hbuilt hj hps

/-- Each piece names what its part does, as far as the commands inside do. -/
theorem isNamed_of_mem_pieces (hnames : ∀ p, b.Shows p → ∀ name ∈ p.names, name ∈ strange)
    (hbelow : ∀ k d, h.Embeds j k → h[k]? = some d → d.command.IsNamed inside inside codes)
    (hcodes : ∀ x : CodeId, h.Embeds j x.index → x ∈ codes) :
    ∀ q ∈ ps, q.IsNamed strange inside codes := by
  intro q hq
  have hforest := Arena.empty_isForest.run b.operations
  obtain ⟨p, hp, hyields⟩ := hforest.explains_of_mem_pieces hps hq
  cases q with
  | text token =>
    intro name hname
    have hmem := Part.names_of_yields hyields hname
    rcases hp with hshown | hwording
    · exact hnames p hshown name hmem
    · rw [Part.names_of_isWording hwording] at hmem
      cases hmem
  | source s => trivial
  | command c =>
    cases hyields
    have hshown : b.Shows (.command c) := hp.resolve_right id
    obtain ⟨k, d, hk, hd, rfl⟩ := hbuilt.commands hj hshown
    exact hbelow k d (.command hk hj hd hshown) hd
  | code x =>
    cases hyields
    exact hcodes x (.code hj (hp.resolve_right id))

theorem represents_bringsAll
    (hbelow : ∀ k d, h.Embeds j k → h[k]? = some d →
      Represents (d.command.brings h.fill) (h.sources k)) :
    Represents (Piece.bringsAll h.fill ps) (h.sources j) := by
  have hforest := Arena.empty_isForest.run b.operations
  constructor
  · rintro s ⟨q, hq, hs⟩
    obtain ⟨p, hp, hyields⟩ := hforest.explains_of_mem_pieces hps hq
    refine includes_iff.mpr ?_
    cases q with
    | text token => cases hs
    | source s' =>
      cases hyields
      cases hs
      exact .inl ⟨b, hj, hp.resolve_right id⟩
    | command c =>
      cases hyields
      have hshown : b.Shows (.command c) := hp.resolve_right id
      obtain ⟨k, d, hk, hd, rfl⟩ := hbuilt.commands hj hshown
      have hembeds : h.Embeds j k := .command hk hj hd hshown
      exact .inr ⟨k, hembeds, (hbelow k d hembeds hd).1 hs⟩
    | code x =>
      cases hyields
      have hshown : b.Shows (.code x) := hp.resolve_right id
      exact .inr ⟨x.index, .code hj hshown, hs⟩
  · intro s hs
    obtain ⟨hsource, hcommand, hcode⟩ := hforest.mem_pieces_of_shows hps
    rcases includes_iff.mp hs with ⟨b', hb', hshown⟩ | ⟨k, hk, hs⟩
    · cases hj.symm.trans hb'
      exact ⟨s, ⟨_, hsource s hshown, rfl⟩, rfl⟩
    · cases hk with
      | command hlt hb' hd hshown =>
        cases hj.symm.trans hb'
        obtain ⟨t, ht, hid⟩ := (hbelow k _ (.command hlt hj hd hshown) hd).2 s hs
        exact ⟨t, ⟨_, hcommand _ hshown, ht⟩, hid⟩
      | code hb' hshown =>
        cases hj.symm.trans hb'
        exact ⟨s, ⟨_, hcode _ hshown, hs⟩, rfl⟩

end Pieces

theorem IsBuilt.represents_of_below (hbuilt : h.IsBuilt) (hj : h[j]? = some b)
    (hnames : ∀ p, b.Shows p → ∀ name ∈ p.names, name ∈ strange)
    (hbelow : ∀ k d, h.Embeds j k → h[k]? = some d →
      d.command.IsNamed inside inside codes ∧
        Represents (d.command.brings h.fill) (h.sources k))
    (hcodes : ∀ x : CodeId, h.Embeds j x.index → x ∈ codes) :
    b.command.IsNamed strange inside codes ∧
      Represents (b.command.brings h.fill) (h.sources j) := by
  have hbuild := hbuilt.built hj
  simp only [Arena.build, bind_eq_ok, pure_eq_ok] at hbuild
  obtain ⟨ps, hps, buffer, hbuffer, hcommand⟩ := hbuild
  have hnamed := isNamed_of_mem_pieces hbuilt hj hps hnames
    (fun k d hk hd => (hbelow k d hk hd).1) hcodes
  have hend : (Piece.text ";").IsNamed strange inside codes := by
    intro name hname
    rw [TextPart.namesIn_of_notMem (by decide)] at hname
    cases hname
  have hall : Piece.bringsAll h.fill (ps ++ [Piece.text ";"]) = Piece.bringsAll h.fill ps := by
    ext s
    simp [Piece.bringsAll, Piece.brings, or_and_right, exists_or]
  have hwhole := Piece.represents_of_buffer h.fill
    (by simpa [or_imp, forall_and] using ⟨hnamed, hend⟩) hbuffer
  rw [hcommand, hall] at hwhole
  exact ⟨hwhole.1, hwhole.2.trans (represents_bringsAll hbuilt hj hps
    fun k d hk hd => (hbelow k d hk hd).2)⟩

theorem IsBuilt.lt_of_embeds (hbuilt : h.IsBuilt) (hembeds : h.Embeds i j) : j < i := by
  cases hembeds with
  | command hlt => exact hlt
  | code hb hshown => exact hbuilt.codes hb hshown

theorem IsBuilt.lt_of_inside (hbuilt : h.IsBuilt) (hinside : TransGen h.Embeds i j) : j < i := by
  induction hinside with
  | single hstep => exact hbuilt.lt_of_embeds hstep
  | tail _ hstep ih => exact (hbuilt.lt_of_embeds hstep).trans ih

/-- The induction is on the position, since everything inside a command is earlier. -/
theorem IsBuilt.represents_inside (hbuilt : h.IsBuilt) (hinside : TransGen h.Embeds i j)
    (hj : h[j]? = some b) :
    b.command.IsNamed (h.strangeNames i) (h.strangeNames i) {x ∈ h.codesInside i | x.index < j} ∧
      Represents (b.command.brings h.fill) (h.sources j) := by
  induction j using Nat.strong_induction_on generalizing b with
  | _ j ih =>
    refine hbuilt.represents_of_below hj (fun p hp name hname => ?_) (fun k d hk hd => ?_)
      fun x hx => ⟨hinside.tail hx, hbuilt.lt_of_embeds hx⟩
    · obtain ⟨k, hk, hrest⟩ := Relation.TransGen.head'_iff.mp hinside
      exact ⟨k, p, hk, ⟨j, b, hrest, hj, hp⟩, hname⟩
    · have hlt := hbuilt.lt_of_embeds hk
      obtain ⟨hnamed, hrepresents⟩ := ih k hlt (hinside.tail hk) hd
      exact ⟨hnamed.mono fun x hx => ⟨hx.1, hx.2.trans hlt⟩, hrepresents⟩

/-- The statement itself may have any names. -/
theorem IsBuilt.represents (hbuilt : h.IsBuilt) (hi : h[i]? = some b) :
    b.command.IsNamed Set.univ (h.strangeNames i) {x ∈ h.codesInside i | x.index < i} ∧
      Represents (b.command.brings h.fill) (h.sources i) := by
  refine hbuilt.represents_of_below hi (fun _ _ _ _ => trivial) (fun k d hk hd => ?_)
    fun x hx => ⟨.single hx, hbuilt.lt_of_embeds hx⟩
  have hlt := hbuilt.lt_of_embeds hk
  obtain ⟨hnamed, hrepresents⟩ := hbuilt.represents_inside (.single hk) hd
  exact ⟨hnamed.mono fun x hx => ⟨hx.1, hx.2.trans hlt⟩, hrepresents⟩

theorem IsBuilt.refers_compile (hbuilt : h.IsBuilt) (hi : h[i]? = some b) (site : Site) :
    Command.Refers Set.univ (h.strangeNames i) (h.sources i)
      (b.command.compile h.runner site) := by
  obtain ⟨hnamed, hrepresents⟩ := hbuilt.represents hi
  have hlength : i < h.length := (List.getElem?_eq_some_iff.mp hi).1
  have hcodes : ∀ x ∈ h.codesInside i, ∃ c, (h.map (·.command))[x.index]? = some c ∧
      c.IsNamed (h.strangeNames i) (h.strangeNames i) {y ∈ h.codesInside i | y.index < x.index} ∧
      Represents (c.brings h.fill) (h.fill x) := by
    intro x hx
    have hlt : x.index < h.length := (hbuilt.lt_of_inside hx).trans hlength
    have hget := List.getElem?_eq_getElem hlt
    exact ⟨_, by rw [List.getElem?_map, hget]; rfl, hbuilt.represents_inside hx hget⟩
  have hdepth : i ≤ (Library.ofCommands (h.map (·.command))).scripts.length + 1 := by
    rw [Library.length_ofCommands, List.length_map]
    omega
  have hbrings := Library.brings_runnerOfDepth hcodes hdepth
  exact (hnamed.compile hbrings site).of_represents hrepresents

end History

namespace Command

/-- How a command is bound that has this current text and refers to these sources. -/
structure BindsAs (c : Command) (r : CodeRunner) (sources : Set ParameterSource)
    (current : Compiled) : Prop where
  /-- The text is the same whenever it is asked for. -/
  compiled : ∀ site, c.compile r site = .ok current
  /-- There is one parameter for each source, and none for another one. -/
  refers : current.RefersTo sources
  /-- Binding fails where an argument without any value is referred to. -/
  fails : ∀ site bindings, (∃ name, c.bind r site bindings = .error (.unboundArgument name)) ↔
    ∃ a, .argument a ∈ sources ∧ ¬ bindings.Binds a.id
  /-- Otherwise each parameter is sent, in order, with its own value or that of its argument. -/
  binds : ∀ site bindings, (∀ a, .argument a ∈ sources → bindings.Binds a.id) →
    ∃ bound, c.bind r site bindings = .ok (current.text, bound) ∧
      List.Forall₂ (Parameter.IsSentAs bindings) current.parameters bound
  /-- The position of an argument carries the first value that is bound to it. -/
  positions : ∀ site site' bindings text bound a, .argument a ∈ sources →
    c.bind r site bindings = .ok (text, bound) →
      ∃ n x, c.indexOf r site' a = .ok n ∧ bound[n]? = some x ∧ bindings.First a.id x.value
  unknown : ∀ site a, (∀ a', .argument a' ∈ sources → a'.id ≠ a.id) →
    c.indexOf r site a = .error (.unknownArgument a.name)
  /-- Neither what is bound to other arguments matters, nor the order of different ones. -/
  rearranged : ∀ site site' bindings bindings',
    ReflTransGen (Bindings.Rearranges fun k => ∃ a, .argument a ∈ sources ∧ a.id = k)
      bindings bindings' → c.bind r site bindings = c.bind r site' bindings'
  /-- With other values only the parameters of arguments are others. -/
  differ : ∀ site site' bindings bindings' text text' bound bound',
    c.bind r site bindings = .ok (text, bound) → c.bind r site' bindings' = .ok (text', bound') →
      text = text' ∧ bound.map (·.name) = bound'.map (·.name) ∧
        ∀ n, bound[n]? ≠ bound'[n]? →
          ∃ a, .argument a ∈ sources ∧ ∀ site, c.indexOf r site a = .ok n

variable {c : Command} {r : CodeRunner} {sources : Set ParameterSource} {current : Compiled}
  {site : Site} {bindings : Bindings}

theorem bind_of_compile (h : c.compile r site = .ok current) :
    c.bind r site bindings = (current.bind bindings).map (current.text, ·) := by
  rw [Command.bind, h, ok_bind]
  cases current.bind bindings <;> rfl

theorem bind_eq_ok_iff (h : c.compile r site = .ok current) {text : String}
    {bound : List BoundParameter} : c.bind r site bindings = .ok (text, bound) ↔
      current.text = text ∧ current.bind bindings = .ok bound := by
  rw [bind_of_compile h, map_eq_ok]
  grind

theorem bind_eq_error_iff (h : c.compile r site = .ok current) {e : ConstructionError} :
    c.bind r site bindings = .error e ↔ current.bind bindings = .error e := by
  rw [bind_of_compile h]
  cases current.bind bindings <;> simp [Except.map]

theorem indexOf_of_compile (h : c.compile r site = .ok current) (a : Argument) :
    c.indexOf r site a = current.indexOf a := by
  rw [Command.indexOf, h, ok_bind]

theorem bindsAs_of_compile (h : ∀ site, c.compile r site = .ok current)
    (hrefers : current.RefersTo sources) : c.BindsAs r sources current where
  compiled := h
  refers := hrefers
  fails site bindings := by
    simp only [bind_eq_error_iff (h site)]
    exact hrefers.bind_fails_iff
  binds site bindings hbinds := by
    obtain ⟨bound, hbound, hsent⟩ := hrefers.exists_bound hbinds
    exact ⟨bound, (bind_eq_ok_iff (h site)).mpr ⟨rfl, hbound⟩, hsent⟩
  positions site site' bindings text bound a ha hbind := by
    rw [indexOf_of_compile (h site')]
    exact hrefers.exists_indexOf ha ((bind_eq_ok_iff (h site)).mp hbind).2
  unknown site a ha := by
    rw [indexOf_of_compile (h site)]
    exact hrefers.indexOf_of_not_referred ha
  rearranged site site' bindings bindings' hrearranges := by
    rw [bind_of_compile (h site), bind_of_compile (h site'), hrefers.bind_congr fun a ha =>
      Bindings.value?_of_rearranged hrearranges ⟨a, ha, rfl⟩]
  differ site site' bindings bindings' text text' bound bound' hbind hbind' := by
    obtain ⟨htext, hbound⟩ := (bind_eq_ok_iff (h site)).mp hbind
    obtain ⟨htext', hbound'⟩ := (bind_eq_ok_iff (h site')).mp hbind'
    refine ⟨htext.symm.trans htext', ?_, fun n hne => ?_⟩
    · rw [Compiled.names_of_bind hbound, Compiled.names_of_bind hbound']
    · obtain ⟨a, ha, hn⟩ := hrefers.differ_at_arguments hbound hbound' hne
      exact ⟨a, ha, fun site => (indexOf_of_compile (h site) a).trans hn⟩

end Command

namespace History

variable {h : History} {i : Nat} {b : Build}

theorem compile_site (h : History) (c : Command) (site : Site) :
    c.compile h.runner site = c.compile h.runner [] :=
  Command.compile_of_isSteady ((Library.isSteady_ofCommands _).runnerOfDepth _) c site []

/-- Binding fails exactly where an argument that the command refers to has no value, and otherwise
the bound parameters are those of the current text. The exception is code that cannot be written
where it stands, since the name of a table or column in it is taken for a placeholder. -/
theorem IsBuilt.binds_or_refuses (hbuilt : h.IsBuilt) (hi : h[i]? = some b) :
    (∃ current, b.command.BindsAs h.runner (h.sources i) current) ∨
      b.command.isDelayed = true ∧ ∃ name ∈ h.strangeNames i, ∀ site bindings,
        b.command.bind h.runner site bindings = .error (.unknownArgument name) := by
  have hrefers := hbuilt.refers_compile hi []
  cases hcompile : b.command.compile h.runner [] with
  | ok current =>
    rw [hcompile] at hrefers
    cases hrefers with
    | ok named represents =>
      have hsources : current.RefersTo (h.sources i) := by
        refine ⟨named.numbered.distinct, fun p hp => represents.1 ⟨p, hp, rfl⟩, fun s hs => ?_⟩
        obtain ⟨_, ⟨p, hp, rfl⟩, hid⟩ := represents.2 s hs
        exact ⟨p, hp, hid⟩
      exact .inl ⟨current, Command.bindsAs_of_compile
        (fun site => (h.compile_site _ site).trans hcompile) hsources⟩
  | error e =>
    rw [hcompile] at hrefers
    cases hrefers with
    | @refused name hname =>
      refine .inr ⟨?_, name, hname, fun site bindings => ?_⟩
      · cases hc : b.command with
        | immediate c =>
          rw [hc] at hcompile
          cases hcompile
        | delayed buffer => rfl
      · rw [Command.bind, h.compile_site, hcompile]
        rfl

namespace Users

open Arena.Users (table idColumn)

/-- Arguments of one name, to be told apart. -/
def sought (n : Nat) : Argument := ⟨n, "id"⟩

def idIs (operand : Expr) : Expr := .binary .equal (.column idColumn) operand

def idIsSought (n : Nat) : Expr := idIs (.literal (.source (.argument (sought n))))

/-- The id is one of those that the first command finds. -/
def idIsFound : Expr := idIs (.call .any [.delayed ⟨0⟩])

/-- The rows of a table that meet the conditions. -/
def rows (t : Table) (conditions : List Expr) (c : Command) : Build :=
  ⟨.source t :: conditions.map (.filter 1), 1, c⟩

theorem rows_isBuilt {t t' : Table} {conditions conditions' : List Expr} {c c' : Command}
    (hc : (rows t conditions c).arena.build 1 = .ok c)
    (hc' : (rows t' conditions' c').arena.build 1 = .ok c')
    (hfirst : ∀ p ∈ (rows t conditions c).arena.leaves,
      (∀ d, p ≠ .command d) ∧ ∀ id, p ≠ .code id)
    (hsecond : ∀ p ∈ (rows t' conditions' c').arena.leaves,
      (∀ d, p ≠ .command d) ∧ ∀ id : CodeId, p = .code id → id.index < 1) :
    IsBuilt [rows t conditions c, rows t' conditions' c'] := by
  have hone : IsBuilt ([] ++ [rows t conditions c]) := isBuilt_nil.push hc
    (fun d hd => absurd rfl ((hfirst _ (Arena.mem_leaves_of_shows hd)).1 d))
    fun id hid => absurd rfl ((hfirst _ (Arena.mem_leaves_of_shows hid)).2 id)
  exact hone.push hc'
    (fun d hd => absurd rfl ((hsecond _ (Arena.mem_leaves_of_shows hd)).1 d))
    fun id hid => (hsecond _ (Arena.mem_leaves_of_shows hid)).2 id rfl

/-- The condition of a query for one argument. The other query is inside it as code. -/
def both : Expr := .binary .andAlso (idIsSought 1) idIsFound

/-- A query for one argument, and one after it for both. -/
def nested (c c' : Command) : History := [rows table [idIsSought 0] c, rows table [both] c']

theorem nested_isBuilt {c c' : Command} (hc : (rows table [idIsSought 0] c).arena.build 1 = .ok c)
    (hc' : (rows table [both] c').arena.build 1 = .ok c') : (nested c c').IsBuilt := by
  refine rows_isBuilt hc hc' (fun p hp => ?_) fun p hp => ?_
  · have hleaves : p ∈ [.table table, .column idColumn, .source (.argument (sought 0))] := hp
    simp only [List.mem_cons, List.not_mem_nil, or_false] at hleaves
    rcases hleaves with rfl | rfl | rfl <;> simp
  · have hleaves : p ∈ [.table table, .column idColumn, .source (.argument (sought 1)),
      .column idColumn, .code ⟨0⟩] := hp
    simp only [List.mem_cons, List.not_mem_nil, or_false] at hleaves
    rcases hleaves with rfl | rfl | rfl | rfl | rfl <;> simp

theorem nested_refers (c c' : Command) : .argument (sought 0) ∈ (nested c c').sources 1 ∧
    .argument (sought 1) ∈ (nested c c').sources 1 := by
  have hinner : (rows table [idIsSought 0] c).Shows (.source (.argument (sought 0))) := by
    refine .leaf (c := 2) (.inr rfl) rfl ?_
    simp [NodeKind.leaves, NodeKind.expressions, Expr.leaves, Expr.leavesOf, idIsSought, idIs]
  have houter : ∀ p ∈ [Part.source (.argument (sought 1)), .code ⟨0⟩],
      (rows table [both] c').Shows p := by
    intro p hp
    have hleaves : [Part.source (.argument (sought 1)), .code ⟨0⟩] ⊆
        (NodeKind.filter both).leaves := by
      simp [NodeKind.leaves, NodeKind.expressions, Expr.leaves, Expr.leavesOf, both, idIsSought,
        idIsFound, idIs]
    exact .leaf (c := 2) (.inr rfl) rfl (hleaves hp)
  constructor
  · have hcode : (nested c c').Embeds 1 0 := .code rfl (houter (.code ⟨0⟩) (by simp))
    exact includes_iff.mpr (.inr ⟨0, hcode, includes_iff.mpr (.inl ⟨_, rfl, hinner⟩)⟩)
  · exact includes_iff.mpr (.inl ⟨_, rfl, houter _ (by simp)⟩)

/-- The argument of the outer query comes first. -/
theorem nested_binds : ∃ c c', (nested c c').IsBuilt ∧
    .argument (sought 0) ∈ (nested c c').sources 1 ∧
    .argument (sought 1) ∈ (nested c c').sources 1 ∧
    c'.indexOf (nested c c').runner [] (sought 0) = .ok 1 ∧
    c'.indexOf (nested c c').runner [] (sought 1) = .ok 0 ∧
    ∃ current, c'.BindsAs (nested c c').runner ((nested c c').sources 1) current := by
  obtain ⟨c, c', hc, hc', hbind, hindex, hindex'⟩ : ∃ c c',
      (rows table [idIsSought 0] c).arena.build 1 = .ok c ∧
      (rows table [both] c').arena.build 1 = .ok c' ∧
      (c'.bind (nested c c').runner [] [(sought 0, .int 1), (sought 1, .int 2)]).isOk = true ∧
      c'.indexOf (nested c c').runner [] (sought 0) = .ok 1 ∧
      c'.indexOf (nested c c').runner [] (sought 1) = .ok 0 :=
    ⟨_, _, rfl, rfl, by decide +kernel⟩
  have hbuilt := nested_isBuilt hc hc'
  obtain ⟨hfirst, hsecond⟩ := nested_refers c c'
  refine ⟨c, c', hbuilt, hfirst, hsecond, hindex, hindex', ?_⟩
  rcases hbuilt.binds_or_refuses (i := 1) rfl with hbinds | ⟨-, name, -, hrefused⟩
  · exact hbinds
  · have herror : c'.bind (nested c c').runner [] [(sought 0, .int 1), (sought 1, .int 2)] =
        .error (.unknownArgument name) := hrefused _ _
    rw [herror] at hbind
    cases hbind

/-- A table whose name looks like a placeholder. -/
def strangeTable : Table := { table with name := "users@p9" }

/-- A query over this table, and one after it with the first query as code. -/
def strange (c c' : Command) : History := [rows strangeTable [] c, rows table [idIsFound] c']

/-- There is no argument at all, but the name is refused as one. -/
theorem strange_refused : ∃ c c', (strange c c').IsBuilt ∧
    (∀ a, .argument a ∉ (strange c c').sources 1) ∧
    ∀ site bindings, c'.bind (strange c c').runner site bindings =
      .error (.unknownArgument "@p9") := by
  obtain ⟨c, c', hc, hc', hcompile⟩ : ∃ c c',
      (rows strangeTable [] c).arena.build 1 = .ok c ∧
      (rows table [idIsFound] c').arena.build 1 = .ok c' ∧
      (c'.compile (strange c c').runner []).map (fun _ => ()) =
        .error (.unknownArgument "@p9") :=
    ⟨_, _, rfl, rfl, by decide +kernel⟩
  have hfirst : ∀ p ∈ (rows strangeTable [] c).arena.leaves, p = .table strangeTable :=
    fun p hp => List.mem_singleton.mp hp
  have hsecond : ∀ p ∈ (rows table [idIsFound] c').arena.leaves,
      p = .table table ∨ p = .column idColumn ∨ p = .code ⟨0⟩ := by
    intro p hp
    have hleaves : p ∈ [.table table, .column idColumn, .code ⟨0⟩] := hp
    simpa using hleaves
  refine ⟨c, c', ?_, ?_, fun site bindings => ?_⟩
  · refine rows_isBuilt hc hc' (fun p hp => ?_) fun p hp => ?_
    · simp [hfirst p hp]
    · rcases hsecond p hp with rfl | rfl | rfl <;> simp
  · rintro a ⟨_ | _ | j, b, -, hb, hshown⟩
    · cases hb
      cases hfirst _ (Arena.mem_leaves_of_shows hshown)
    · cases hb
      rcases hsecond _ (Arena.mem_leaves_of_shows hshown) with h | h | h <;> cases h
    · cases hb
  · rw [Command.bind, compile_site, Arena.eq_error_of_map hcompile]
    rfl

end Users

end History

end DeclarativeSql
