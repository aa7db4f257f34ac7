import DeclarativeSql.Proofs.Binding.Sources
import DeclarativeSql.Proofs.Embedding.Filling

/-!
# Sources of open parts

Which sources a command refers to once its open parts are filled. All parameters of a command are
named in its text whenever this is asked for, so they are those of the sources of its pieces.
-/
namespace DeclarativeSql

open Parameter

/-- The sources that code refers to. -/
abbrev CodeSources := CodeId → Set ParameterSource

variable {fill : CodeSources} {strange inside : Set String} {codes codes' : Set CodeId}
  {r : CodeRunner}

namespace Segment

/-- Filled in, the segment refers to the source. -/
inductive Brings (fill : CodeSources) : Segment → ParameterSource → Prop
  | code {id : CodeId} {s : ParameterSource} (h : s ∈ fill id) : Brings fill (.code id) s
  | own {segments : List Segment} {ps : List Parameter} {s : ParameterSource}
    (h : s ∈ sources ps) : Brings fill (.embedded segments ps) s
  | inner {segments : List Segment} {ps : List Parameter} {t : Segment} {s : ParameterSource}
    (ht : t ∈ segments) (h : Brings fill t s) : Brings fill (.embedded segments ps) s

def brings (fill : CodeSources) (s : Segment) : Set ParameterSource := {x | s.Brings fill x}

def bringsAll (fill : CodeSources) (segments : List Segment) : Set ParameterSource :=
  {x | ∃ s ∈ segments, s.Brings fill x}

theorem brings_text (s : String) : brings fill (.text s) = ∅ :=
  Set.eq_empty_of_forall_notMem fun _ h => by cases h

theorem brings_code (id : CodeId) : brings fill (.code id) = fill id :=
  Set.ext fun _ => ⟨fun h => by cases h; assumption, .code⟩

theorem brings_embedded (segments : List Segment) (ps : List Parameter) :
    brings fill (.embedded segments ps) = sources ps ∪ bringsAll fill segments := by
  ext x
  constructor
  · rintro (_ | h | ⟨ht, h⟩)
    · exact .inl h
    · exact .inr ⟨_, ht, h⟩
  · rintro (h | ⟨t, ht, h⟩)
    · exact .own h
    · exact .inner ht h

theorem bringsAll_nil : bringsAll fill [] = ∅ := by simp [bringsAll]

theorem bringsAll_cons (s : Segment) (segments : List Segment) :
    bringsAll fill (s :: segments) = brings fill s ∪ bringsAll fill segments := by
  ext x
  simp [bringsAll, brings]

theorem bringsAll_of_closed {segments : List Segment} (h : segments.any isOpen = false) :
    bringsAll fill segments = ∅ := by
  refine Set.eq_empty_of_forall_notMem ?_
  rintro x ⟨s, hs, hx⟩
  rw [List.any_eq_false] at h
  cases s with
  | text s => cases hx
  | _ => exact absurd rfl (h _ hs)

/-- Each embedded command names all its parameters, and the code is among these. -/
inductive IsNamed (inside : Set String) (codes : Set CodeId) : Segment → Prop
  | text (s : String) : IsNamed inside codes (.text s)
  | code {id : CodeId} (h : id ∈ codes) : IsNamed inside codes (.code id)
  | embedded {segments : List Segment} {ps : List Parameter}
    (hsegments : ∀ s ∈ segments, IsNamed inside codes s)
    (h : CodeBuffer.IsNamed inside [] ⟨segments, ps⟩) :
    IsNamed inside codes (.embedded segments ps)

theorem IsNamed.mono {s : Segment} (h : s.IsNamed inside codes) (hcodes : codes ⊆ codes') :
    s.IsNamed inside codes' := by
  induction h with
  | text s => exact .text s
  | code h => exact .code (hcodes h)
  | embedded _ h ih => exact .embedded ih h

end Segment

namespace CodeBuffer

/-- What the buffer refers to once its open parts are filled. -/
def brings (fill : CodeSources) (b : CodeBuffer) : Set ParameterSource :=
  Segment.brings fill (.embedded b.segments b.parameters)

/-- The text names all parameters, as far as it is settled, and so does that of each command
inside. -/
def AreNamed (strange inside : Set String) (codes : Set CodeId) (b : CodeBuffer) : Prop :=
  b.IsNamed strange [] ∧ ∀ s ∈ b.segments, s.IsNamed inside codes

end CodeBuffer

namespace Command

/-- What the current text refers to. -/
def brings (fill : CodeSources) : Command → Set ParameterSource
  | immediate c => sources c.parameters
  | delayed b => b.brings fill

def IsNamed (strange inside : Set String) (codes : Set CodeId) : Command → Prop
  | immediate c => c.IsNamed strange
  | delayed b => b.AreNamed strange inside codes

theorem IsNamed.mono {c : Command} (h : c.IsNamed strange inside codes)
    (hcodes : codes ⊆ codes') : c.IsNamed strange inside codes' := by
  cases c with
  | immediate c => exact h
  | delayed b => exact ⟨h.1, fun s hs => (h.2 s hs).mono hcodes⟩

/-- The current text refers to these sources, or one inside it has a strange name that is
refused. -/
inductive Refers (strange inside : Set String) (all : Set ParameterSource) :
    Except ConstructionError Compiled → Prop
  | ok {d : Compiled} (named : d.IsNamed strange)
    (represents : Represents (sources d.parameters) all) : Refers strange inside all (.ok d)
  | refused {name : String} (h : name ∈ inside) :
    Refers strange inside all (.error (.unknownArgument name))

end Command

/-- Code is filled in with text for its sources. -/
structure CodeRunner.Brings (r : CodeRunner) (inside : Set String) (fill : CodeSources)
    (codes : Set CodeId) : Prop where
  run : ∀ {id : CodeId} (site : Site) {strange : Set String} {start : List Parameter}
    {b : CodeBuffer}, id ∈ codes → b.IsNamed strange start → b.isDelayed = false →
      (r.run id site b).Adds strange inside start (fill id) b

namespace Command

variable {start : List Parameter} {b : CodeBuffer} {all : Set ParameterSource} {c : Command}
  {site : Site}

theorem Refers.of_represents {outcome : Except ConstructionError Compiled}
    (h : Refers strange inside all outcome) {all' : Set ParameterSource}
    (hall : Represents all all') : Refers strange inside all' outcome := by
  cases h with
  | ok named represents => exact .ok named (represents.trans hall)
  | refused h => exact .refused h

/-- What is inside one text is inside the text that takes it over. -/
theorem Refers.writeTo (h : Refers inside inside all (c.compile r site))
    (hb : b.IsNamed strange start) : (c.writeTo r site b).Adds strange inside start all b := by
  rw [Command.writeTo]
  generalize c.compile r site = outcome at h
  cases h with
  | ok named represents => exact (hb.appendCompiled named).of_represents represents
  | refused h => exact .refused h b

end Command

namespace Segment

variable {segments : List Segment}

/-- Wherever the segment is written, its sources are added, and its names are there. -/
def Adds (r : CodeRunner) (inside : Set String) (fill : CodeSources) (s : Segment) : Prop :=
  ∀ (site : Site) {strange : Set String} {start : List Parameter} {b : CodeBuffer},
    b.IsNamed strange start → b.isDelayed = false →
    (∀ name ∈ s.names, name ∈ start.map Parameter.name ∨ name ∈ strange) →
      (s.replay r site b).Adds strange inside start (s.brings fill) b ∧
        ∀ b', s.replay r site b = (.ok (), b') → s.names ⊆ b'.names

theorem adds_replayAll (hall : ∀ s ∈ segments, s.Adds r inside fill) (site : Site) (k : Nat)
    {start : List Parameter} {b : CodeBuffer} (hb : b.IsNamed strange start)
    (hclosed : b.isDelayed = false)
    (hnames : ∀ name ∈ namesOf segments, name ∈ start.map Parameter.name ∨ name ∈ strange) :
    (replayAll r site segments k b).Adds strange inside start (bringsAll fill segments) b ∧
      ∀ b', replayAll r site segments k b = (.ok (), b') → namesOf segments ⊆ b'.names := by
  induction segments generalizing k b with
  | nil =>
    rw [bringsAll_nil]
    exact ⟨.ok hb (.refl b), fun _ _ => List.nil_subset _⟩
  | cons s segments ih =>
    obtain ⟨hfirst, hown⟩ := hall s List.mem_cons_self (k :: site) hb hclosed
      fun name hname => hnames name (List.mem_append_left _ hname)
    rw [replayAll, bringsAll_cons]
    obtain ⟨b', hreplay, hb', hadds⟩ | ⟨name, hname, b', hreplay⟩ := hfirst.cases
    · obtain ⟨hrest, hothers⟩ := ih (fun t ht => hall t (List.mem_cons_of_mem _ ht)) (k + 1) hb'
        (hadds.isDelayed_eq.trans hclosed)
        fun name hname => hnames name (List.mem_append_right _ hname)
      rw [hreplay]
      simp only
      obtain ⟨b'', hreplay', hb'', hadds'⟩ | ⟨name, hname, b'', hreplay'⟩ := hrest.cases
      · rw [hreplay']
        refine ⟨.ok hb'' (hadds.trans hadds'), ?_⟩
        intro _ h
        cases h
        exact List.append_subset.mpr ⟨fun name hname => hadds'.names (hown b' hreplay hname),
          hothers b'' hreplay'⟩
      · rw [hreplay']
        exact ⟨.refused hname b'', fun _ h => by cases h⟩
    · rw [hreplay]
      exact ⟨.refused hname b', fun _ h => by cases h⟩

theorem refers_compile (hall : ∀ s ∈ segments, s.Adds r inside fill) {ps : List Parameter}
    (h : CodeBuffer.IsNamed strange [] ⟨segments, ps⟩) (site : Site) :
    Command.Refers strange inside (brings fill (.embedded segments ps))
      (CodeBuffer.compile ⟨segments, ps⟩ r site) := by
  obtain ⟨hadds, hnames⟩ := adds_replayAll hall site 1
    (CodeBuffer.isNamed_start strange h.numbered) rfl h.known
  rw [CodeBuffer.compile]
  obtain ⟨out, hreplay, hout, hgrown⟩ | ⟨name, hname, b', hreplay⟩ := hadds.cases
  · have hclosed : out.isDelayed = false := hgrown.isDelayed_eq
    rw [hreplay]
    simp only [CodeRunner.settle, hclosed]
    refine .ok (hout.settled hclosed fun p hp => hnames out hreplay ?_) ?_
    · exact (h.named p hp).resolve_left List.not_mem_nil
    · rw [brings_embedded]
      exact hgrown.represents
  · rw [hreplay]
    exact .refused hname

theorem IsNamed.adds {s : Segment} (h : s.IsNamed inside codes)
    (hr : r.Brings inside fill codes) : s.Adds r inside fill := by
  induction h with
  | text s =>
    intro site strange start b hb _ hnames
    have hknown : ∀ name ∈ TextPart.namesIn s,
        name ∈ b.parameters.map Parameter.name ∨ name ∈ strange :=
      fun name hname => (hnames name hname).imp_left fun hmem => (hb.grows.map _).subset hmem
    obtain ⟨hnamed, hadds⟩ := hb.appendText hknown
    rw [brings_text]
    refine ⟨.ok hnamed hadds, ?_⟩
    intro _ h
    cases h
    exact fun name hname => CodeBuffer.mem_names_append.mpr (.inr hname)
  | code hid =>
    intro site strange start b hb hclosed _
    rw [brings_code]
    exact ⟨hr.run site hid hb hclosed, fun _ _ => List.nil_subset _⟩
  | embedded _ h ih =>
    intro site strange start b hb hclosed _
    rw [replay_embedded]
    exact ⟨Command.Refers.writeTo (refers_compile ih h site) hb, fun _ _ => List.nil_subset _⟩

end Segment

/-- The current text of a command refers to what the command brings. -/
theorem Command.IsNamed.compile {c : Command} (h : c.IsNamed strange inside codes)
    (hr : r.Brings inside fill codes) (site : Site) :
    Refers strange inside (c.brings fill) (c.compile r site) := by
  cases c with
  | immediate c => exact .ok h (.refl _)
  | delayed b => exact Segment.refers_compile (fun s hs => (h.2 s hs).adds hr) h.1 site

namespace Piece

def brings (fill : CodeSources) : Piece → Set ParameterSource
  | text _ => ∅
  | source s => {s}
  | command c => c.brings fill
  | code id => fill id

def bringsAll (fill : CodeSources) (ps : List Piece) : Set ParameterSource :=
  {x | ∃ p ∈ ps, x ∈ p.brings fill}

/-- Only strange names are in its text, and a command names all its parameters. -/
def IsNamed (strange inside : Set String) (codes : Set CodeId) : Piece → Prop
  | text token => ∀ name ∈ TextPart.namesIn token, name ∈ strange
  | source _ => True
  | command c => c.IsNamed inside inside codes
  | code id => id ∈ codes

theorem bringsAll_cons (p : Piece) (ps : List Piece) :
    bringsAll fill (p :: ps) = p.brings fill ∪ bringsAll fill ps := by
  ext x
  simp [bringsAll]

end Piece

namespace CodeBuffer

variable {b b' : CodeBuffer} {x : Set ParameterSource}

theorem Adds.bringsAll_eq (h : Adds x b b') :
    Segment.bringsAll fill b'.segments = Segment.bringsAll fill b.segments := by
  ext y
  refine exists_congr fun s => ?_
  cases s with
  | text s => exact iff_of_false (fun h => nomatch h.2) fun h => nomatch h.2
  | _ => rw [h.opens _ rfl]

theorem Adds.represents_brings (h : Adds x b b') :
    Represents (b'.brings fill) (b.brings fill ∪ x) := by
  rw [brings, brings, Segment.brings_embedded, Segment.brings_embedded, h.bringsAll_eq,
    Set.union_right_comm]
  exact h.represents.union (.refl _)

theorem AreNamed.of_adds (h : b.AreNamed strange inside codes) (hadds : Adds x b b')
    (hb' : b'.IsNamed strange []) : b'.AreNamed strange inside codes := by
  refine ⟨hb', fun s hs => ?_⟩
  cases s with
  | text s => exact .text s
  | _ => exact h.2 _ ((hadds.opens _ rfl).mp hs)

theorem AreNamed.appendOpen (fill : CodeSources) (h : b.AreNamed strange inside codes) {s : Segment}
    (hs : s.IsNamed inside codes) (hopen : s.isOpen = true) :
    (b.appendOpen s).AreNamed strange inside codes ∧
      (b.appendOpen s).brings fill = b.brings fill ∪ s.brings fill := by
  have hnames : (b.appendOpen s).names = b.names := by
    have hnone : s.names = [] := by
      cases s with
      | text => cases hopen
      | _ => rfl
    simp [names, CodeBuffer.appendOpen, Segment.namesOf, hnone]
  have hnamed : (b.appendOpen s).IsNamed strange [] := {
    numbered := h.1.numbered
    grows := h.1.grows
    named := by
      rw [hnames]
      exact h.1.named
    known := by
      rw [hnames]
      exact h.1.known
    single := by
      intro hclosed
      simp [isDelayed, CodeBuffer.appendOpen, hopen] at hclosed }
  refine ⟨⟨hnamed, ?_⟩, ?_⟩
  · intro t ht
    rcases List.mem_append.mp ht with ht | ht
    · exact h.2 t ht
    · rwa [List.mem_singleton.mp ht]
  · have hall : Segment.bringsAll fill (b.segments ++ [s]) =
        Segment.bringsAll fill b.segments ∪ s.brings fill := by
      ext x
      simp [Segment.bringsAll, Segment.brings, or_and_right, exists_or]
    rw [brings, brings, Segment.brings_embedded, Segment.brings_embedded, Set.union_assoc, ← hall]
    rfl

theorem AreNamed.write (fill : CodeSources) (h : b.AreNamed strange inside codes) {p : Piece}
    (hp : p.IsNamed strange inside codes) (hwrite : p.write b = (.ok (), b')) :
    b'.AreNamed strange inside codes ∧
      Represents (b'.brings fill) (b.brings fill ∪ p.brings fill) := by
  cases p with
  | text token =>
    cases hwrite
    obtain ⟨hnamed, hadds⟩ := h.1.appendText fun name hname => .inr (hp name hname)
    exact ⟨h.of_adds hadds hnamed, hadds.represents_brings⟩
  | source s =>
    cases hwrite
    obtain ⟨hnamed, hadds⟩ := h.1.appendSource s
    exact ⟨h.of_adds hadds hnamed, hadds.represents_brings⟩
  | code id =>
    cases hwrite
    obtain ⟨hnamed, hbrings⟩ := h.appendOpen fill (.code hp) rfl
    rw [hbrings, Segment.brings_code]
    exact ⟨hnamed, .refl _⟩
  | command c =>
    cases c with
    | immediate c =>
      obtain ⟨b'', hb'', hnamed, hadds⟩ | ⟨_, _, _, herror⟩ := (h.1.appendCompiled hp).cases
      · cases hwrite.symm.trans hb''
        exact ⟨h.of_adds hadds hnamed, hadds.represents_brings⟩
      · cases hwrite.symm.trans herror
    | delayed c =>
      cases hwrite
      obtain ⟨hnamed, hbrings⟩ := h.appendOpen fill (.embedded hp.2 hp.1) rfl
      rw [hbrings]
      exact ⟨hnamed, .refl _⟩

theorem AreNamed.writeAll (fill : CodeSources) (h : b.AreNamed strange inside codes)
    {ps : List Piece} (hps : ∀ p ∈ ps, p.IsNamed strange inside codes)
    (hwrite : Piece.writeAll ps b = (.ok (), b')) :
    b'.AreNamed strange inside codes ∧
      Represents (b'.brings fill) (b.brings fill ∪ Piece.bringsAll fill ps) := by
  induction ps generalizing b with
  | nil =>
    cases hwrite
    have hnone : Piece.bringsAll fill [] = ∅ := by simp [Piece.bringsAll]
    rw [hnone, Set.union_empty]
    exact ⟨h, .refl _⟩
  | cons p ps ih =>
    rw [Piece.writeAll] at hwrite
    cases hfirst : p.write b with
    | mk result next =>
      rw [hfirst] at hwrite
      cases result with
      | error e => cases hwrite
      | ok =>
        obtain ⟨hnext, hrepresents⟩ := h.write fill (hps p List.mem_cons_self) hfirst
        obtain ⟨hb', hrest⟩ := ih hnext (fun q hq => hps q (List.mem_cons_of_mem _ hq)) hwrite
        rw [Piece.bringsAll_cons, ← Set.union_assoc]
        exact ⟨hb', hrest.trans (hrepresents.union (.refl _))⟩

end CodeBuffer

/-- What is built from pieces refers to what they bring. -/
theorem Piece.represents_of_buffer (fill : CodeSources) {ps : List Piece}
    (hps : ∀ p ∈ ps, p.IsNamed strange inside codes) {b : CodeBuffer}
    (hb : Piece.buffer ps = .ok b) :
    (Command.ofBuffer b).IsNamed strange inside codes ∧
      Represents ((Command.ofBuffer b).brings fill) (Piece.bringsAll fill ps) := by
  have hempty : CodeBuffer.empty.AreNamed strange inside codes :=
    ⟨CodeBuffer.isNamed_start strange .nil, by simp [CodeBuffer.empty]⟩
  have hwrite : Piece.writeAll ps .empty = (.ok (), b) := by
    rw [Piece.buffer] at hb
    split at hb
    · cases hb
    next hwrite => rw [hwrite, Except.ok.inj hb]
  obtain ⟨hnamed, hrepresents⟩ := hempty.writeAll fill hps hwrite
  have hnone : CodeBuffer.empty.brings fill = ∅ := by
    rw [CodeBuffer.brings, Segment.brings_embedded]
    simp [CodeBuffer.empty, sources, Segment.bringsAll]
  rw [hnone, Set.empty_union] at hrepresents
  rw [Command.ofBuffer]
  split
  · exact ⟨hnamed, hrepresents⟩
  next hclosed =>
    rw [Bool.not_eq_true] at hclosed
    refine ⟨hnamed.1.settled hclosed (by simp), ?_⟩
    rwa [CodeBuffer.brings, Segment.brings_embedded, Segment.bringsAll_of_closed hclosed,
      Set.union_empty] at hrepresents

theorem Library.brings_runnerOfDepth {cs : List Command}
    (hcodes : ∀ id ∈ codes, ∃ c, cs[id.index]? = some c ∧
      c.IsNamed inside inside {x ∈ codes | x.index < id.index} ∧
        Represents (c.brings fill) (fill id))
    {n depth : Nat} (hdepth : n ≤ depth) :
    ((ofCommands cs).runnerOfDepth depth).Brings inside fill {x ∈ codes | x.index < n} := by
  induction depth generalizing n with
  | zero => exact ⟨fun _ _ _ _ hid => absurd (hid.2.trans_le hdepth) (Nat.not_lt_zero _)⟩
  | succ depth ih =>
    refine ⟨fun {id} site {strange start b} hid hb _ => ?_⟩
    obtain ⟨c, hget, hnamed, hfill⟩ := hcodes id hid.1
    have hscript : (ofCommands cs).script id = [.command c] := by
      simp [script_ofCommands, hget]
    have hbelow := ih (n := id.index) (Nat.le_of_lt_succ (hid.2.trans_le hdepth))
    have hrefers := hnamed.compile hbelow (0 :: site)
    have hwrite := (hrefers.writeTo hb).of_represents hfill
    simp only [runnerOfDepth, hscript, Script.writeFrom, ScriptStep.write]
    obtain ⟨b', hb', hnamed', hadds⟩ | ⟨name, hname, b', hb'⟩ := hwrite.cases
    · rw [hb']
      exact .ok hnamed' hadds
    · rw [hb']
      exact .refused hname b'

end DeclarativeSql
