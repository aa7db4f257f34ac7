import DeclarativeSql.Proofs.Scanning.Renaming
import Mathlib.Data.Set.Lattice

/-!
# Sources of a text

Which sources a text comes to refer to while it is written. Each new parameter is named in the text,
so whatever takes the text over takes over all parameters. Names of tables and columns may look like
placeholders: what a text names is a parameter, or part of such a strange name.
-/
namespace DeclarativeSql

open Parameter

/-- Sources that parameters stand for. -/
def Parameter.sources (ps : List Parameter) : Set ParameterSource := {s | ∃ p ∈ ps, p.source = s}

/-- The source has a parameter afterwards, and at most that one is new. -/
theorem Parameter.exists_of_register {ps : List Parameter} (hps : AreNumbered ps)
    (source : ParameterSource) : ∃ p new, register ps source = (p.name, ps ++ new) ∧
      AreNumbered (ps ++ new) ∧ p ∈ ps ++ new ∧ p.source.id = source.id ∧
      ∀ q ∈ new, q = p ∧ q.source = source := by
  unfold register
  cases hfind : standingFor? ps source.id with
  | some p =>
    exact ⟨p, [], by rw [List.append_nil], by rwa [List.append_nil],
      by simpa using List.mem_of_find?_eq_some hfind, by simpa using List.find?_some hfind,
      by simp⟩
  | none =>
    have hnew : ∀ p ∈ ps, p.source.id ≠ source.id :=
      fun p hp => by simpa using List.find?_eq_none.mp hfind p hp
    exact ⟨_, _, rfl, hps.push hnew, List.mem_concat_self, rfl, by simp⟩

/-- Some of the sources, with one for each identity. -/
def Represents (some all : Set ParameterSource) : Prop :=
  some ⊆ all ∧ ∀ s ∈ all, ∃ t ∈ some, t.id = s.id

namespace Represents

variable {x y z x' y' : Set ParameterSource}

theorem refl (x : Set ParameterSource) : Represents x x := ⟨subset_rfl, fun s hs => ⟨s, hs, rfl⟩⟩

theorem trans (h : Represents x y) (h' : Represents y z) : Represents x z := by
  refine ⟨h.1.trans h'.1, fun s hs => ?_⟩
  obtain ⟨t, ht, hid⟩ := h'.2 s hs
  obtain ⟨u, hu, hid'⟩ := h.2 t ht
  exact ⟨u, hu, hid'.trans hid⟩

theorem union (h : Represents x y) (h' : Represents x' y') : Represents (x ∪ x') (y ∪ y') := by
  refine ⟨Set.union_subset_union h.1 h'.1, fun s hs => ?_⟩
  rcases hs with hs | hs
  · obtain ⟨t, ht, hid⟩ := h.2 s hs
    exact ⟨t, .inl ht, hid⟩
  · obtain ⟨t, ht, hid⟩ := h'.2 s hs
    exact ⟨t, .inr ht, hid⟩

end Represents

section Names

variable {s t name : String}

theorem TextPart.mem_namesIn_iff (source : ParameterSource) :
    name ∈ namesIn s ↔ .placeholder (some source.id) ∈ contentOf [⟨name, source⟩] s := by
  rw [namesIn, contentOf, List.mem_filterMap, List.mem_map]
  refine exists_congr fun part => and_congr_right fun _ => ?_
  cases part with
  | plain c => simp [name?, mark]
  | placeholder digits =>
    by_cases hname : name = nameOf digits
    · simp [name?, mark_placeholder, named?, hname]
    · simp [name?, mark_placeholder, named?, hname, Ne.symm hname]

theorem TextPart.mem_namesIn_join :
    name ∈ namesIn (Spacing.join s t) ↔ name ∈ namesIn s ∨ name ∈ namesIn t := by
  have source : ParameterSource := .argument ⟨0, name⟩
  rw [mem_namesIn_iff source, contentOf_join, Content.placeholder_mem_join_iff,
    ← mem_namesIn_iff, ← mem_namesIn_iff]

theorem TextPart.mem_namesIn_body {c : Compiled} :
    name ∈ namesIn c.body ↔ name ∈ namesIn c.text := by
  have source : ParameterSource := .argument ⟨0, name⟩
  rw [mem_namesIn_iff source, mem_namesIn_iff source, contentOf_body, Content.body]
  split
  next hlast =>
    obtain ⟨front, hfront⟩ := List.getLast?_eq_some_iff.mp hlast
    simp [hfront]
  next => rfl

theorem TextPart.namesIn_of_notMem (h : '@' ∉ s.toList) : namesIn s = [] := by
  rw [namesIn, split_of_notMem h, List.filterMap_map, List.filterMap_eq_nil_iff]
  exact fun _ _ => rfl

theorem TextPart.namesIn_placeholderName (n : Nat) :
    namesIn (placeholderName n) = [placeholderName n] := by
  rw [namesIn, (Spells.placeholderName n).split]
  refine congrArg (· :: []) ?_
  rw [← String.ofList_toList (s := placeholderName n), toList_placeholderName]
  rfl

end Names

namespace Segment

/-- Names in a segment. Those in open parts are not known yet. -/
def names : Segment → List String
  | text s => TextPart.namesIn s
  | _ => []

def namesOf (segments : List Segment) : List String := segments.flatMap names

theorem mem_namesOf_appendToken {name token : String} (segments : List Segment) :
    name ∈ namesOf (appendToken token segments) ↔
      name ∈ namesOf segments ∨ name ∈ TextPart.namesIn token := by
  induction segments with
  | nil => simp [appendToken, namesOf, names]
  | cons s segments ih =>
    rcases appendToken_cons token s segments with ⟨t, rfl, rfl⟩ | hcons
    · simp [appendToken, namesOf, names, TextPart.mem_namesIn_join]
    · have hrest : ∀ rest, namesOf (s :: rest) = s.names ++ namesOf rest := fun _ => rfl
      rw [hcons, hrest, hrest, List.mem_append, ih, List.mem_append, or_assoc]

theorem mem_appendToken_of_isOpen {token : String} {segments : List Segment} {s : Segment}
    (hs : s.isOpen = true) : s ∈ appendToken token segments ↔ s ∈ segments := by
  have hne : ∀ t, s ≠ text t := by
    rintro t rfl
    cases hs
  induction segments with
  | nil => simp [appendToken, hne]
  | cons t segments ih =>
    rcases appendToken_cons token t segments with ⟨u, rfl, rfl⟩ | hcons
    · simp [appendToken, hne]
    · have htail : s ∈ appendToken token segments ↔ s ∈ segments := ih
      rw [hcons, List.mem_cons, htail, List.mem_cons]

end Segment

namespace CodeBuffer

def names (b : CodeBuffer) : List String := Segment.namesOf b.segments

theorem mem_names_append {b : CodeBuffer} {name token : String} :
    name ∈ (b.append token).names ↔ name ∈ b.names ∨ name ∈ TextPart.namesIn token := by
  unfold append
  split
  next hempty =>
    have hnil : TextPart.namesIn token = [] := by
      rw [String.isEmpty_iff.mp hempty]
      rfl
    simp [hnil]
  next => exact Segment.mem_namesOf_appendToken b.segments

/-- Each parameter is one of those at the start or is named, and what is named is a parameter or
strange. -/
structure IsNamed (strange : Set String) (start : List Parameter) (b : CodeBuffer) : Prop where
  numbered : AreNumbered b.parameters
  grows : start <+: b.parameters
  named : ∀ p ∈ b.parameters, p ∈ start ∨ p.name ∈ b.names
  known : ∀ name ∈ b.names, name ∈ b.parameters.map Parameter.name ∨ name ∈ strange
  single : b.isDelayed = false → b.segments.length ≤ 1

/-- What is there stays, and sources are added that have no parameter yet. Only text is written. -/
structure Adds (sources : Set ParameterSource) (b b' : CodeBuffer) : Prop where
  grows : b.parameters <+: b'.parameters
  names : b.names ⊆ b'.names
  opens : ∀ s : Segment, s.isOpen = true → (s ∈ b'.segments ↔ s ∈ b.segments)
  sound : ∀ p ∈ b'.parameters, p ∈ b.parameters ∨ p.source ∈ sources
  complete : ∀ s ∈ sources, ∃ p ∈ b'.parameters, p.source.id = s.id

variable {strange : Set String} {start qs : List Parameter} {b b' b'' : CodeBuffer}
  {x y : Set ParameterSource}

theorem isNamed_start (strange : Set String) (h : AreNumbered start) :
    IsNamed strange start ⟨[], start⟩ where
  numbered := h
  grows := List.prefix_rfl
  named := fun _ hp => .inl hp
  known := by simp [names, Segment.namesOf]
  single := fun _ => Nat.zero_le _

namespace Adds

theorem refl (b : CodeBuffer) : Adds ∅ b b where
  grows := List.prefix_rfl
  names := List.Subset.refl _
  opens := fun _ _ => .rfl
  sound := fun _ hp => .inl hp
  complete := by simp

theorem trans (h : Adds x b b') (h' : Adds y b' b'') : Adds (x ∪ y) b b'' where
  grows := h.grows.trans h'.grows
  names := fun _ hname => h'.names (h.names hname)
  opens := fun s hs => (h'.opens s hs).trans (h.opens s hs)
  sound := by
    intro p hp
    rcases h'.sound p hp with hp | hp
    · exact (h.sound p hp).imp_right .inl
    · exact .inr (.inr hp)
  complete := by
    rintro s (hs | hs)
    · obtain ⟨p, hp, hid⟩ := h.complete s hs
      exact ⟨p, h'.grows.subset hp, hid⟩
    · exact h'.complete s hs

theorem of_represents (h : Adds x b b') (hxy : Represents x y) : Adds y b b' where
  grows := h.grows
  names := h.names
  opens := h.opens
  sound := fun p hp => (h.sound p hp).imp_right fun hs => hxy.1 hs
  complete := by
    intro s hs
    obtain ⟨t, ht, hid⟩ := hxy.2 s hs
    obtain ⟨p, hp, hid'⟩ := h.complete t ht
    exact ⟨p, hp, hid'.trans hid⟩

theorem represents (h : Adds x b b') :
    Represents (sources b'.parameters) (sources b.parameters ∪ x) := by
  constructor
  · rintro _ ⟨p, hp, rfl⟩
    exact (h.sound p hp).imp_left fun hp => ⟨p, hp, rfl⟩
  · rintro s (⟨p, hp, rfl⟩ | hs)
    · exact ⟨p.source, ⟨p, h.grows.subset hp, rfl⟩, rfl⟩
    · obtain ⟨p, hp, hid⟩ := h.complete s hs
      exact ⟨p.source, ⟨p, hp, rfl⟩, hid⟩

theorem isDelayed_eq (h : Adds x b b') : b'.isDelayed = b.isDelayed := by
  rw [Bool.eq_iff_iff, isDelayed, isDelayed, List.any_eq_true, List.any_eq_true]
  exact exists_congr fun s => and_congr_left fun hs => h.opens s hs

end Adds

theorem isDelayed_append (b : CodeBuffer) (token : String) :
    (b.append token).isDelayed = b.isDelayed := by
  unfold append
  split
  · rfl
  · exact Segment.any_isOpen_appendToken token b.segments

theorem IsNamed.append (h : b.IsNamed strange start) (hqs : AreNumbered qs)
    (hgrows : b.parameters <+: qs) {token : String}
    (hnew : ∀ p ∈ qs, p ∈ b.parameters ∨ p.name ∈ TextPart.namesIn token)
    (hknown : ∀ name ∈ TextPart.namesIn token, name ∈ qs.map Parameter.name ∨ name ∈ strange) :
    ({ b with parameters := qs }.append token).IsNamed strange start := by
  have hparameters := parameters_append { b with parameters := qs } token
  have hnames : ∀ {name}, name ∈ ({ b with parameters := qs }.append token).names ↔
      name ∈ b.names ∨ name ∈ TextPart.namesIn token := mem_names_append
  constructor
  · rwa [hparameters]
  · rw [hparameters]
    exact h.grows.trans hgrows
  · intro p hp
    rw [hparameters] at hp
    rw [hnames]
    rcases hnew p hp with hp | hp
    · exact (h.named p hp).imp_right .inl
    · exact .inr (.inr hp)
  · intro name hname
    rw [hparameters]
    rcases hnames.mp hname with hname | hname
    · exact (h.known name hname).imp_left fun hmem => (hgrows.map _).subset hmem
    · exact hknown name hname
  · intro hdelayed
    rw [isDelayed_append] at hdelayed
    unfold CodeBuffer.append
    split
    · exact h.single hdelayed
    · exact Segment.length_appendToken hdelayed (h.single hdelayed)

theorem adds_append (hgrows : b.parameters <+: qs)
    (hsound : ∀ p ∈ qs, p ∈ b.parameters ∨ p.source ∈ x)
    (hcomplete : ∀ s ∈ x, ∃ p ∈ qs, p.source.id = s.id) (token : String) :
    Adds x b ({ b with parameters := qs }.append token) := by
  have hparameters := parameters_append { b with parameters := qs } token
  refine ⟨by rwa [hparameters], fun name hname => mem_names_append.mpr (.inl hname), ?_,
    by rwa [hparameters], by rwa [hparameters]⟩
  intro s hs
  unfold CodeBuffer.append
  split
  · rfl
  · exact Segment.mem_appendToken_of_isOpen hs

/-- A text names parameters that are there, or what is strange. -/
theorem IsNamed.appendText (h : b.IsNamed strange start) {token : String}
    (htoken : ∀ name ∈ TextPart.namesIn token,
      name ∈ b.parameters.map Parameter.name ∨ name ∈ strange) :
    (b.append token).IsNamed strange start ∧ Adds ∅ b (b.append token) :=
  ⟨h.append h.numbered List.prefix_rfl (fun _ hp => .inl hp) htoken,
    adds_append List.prefix_rfl (fun _ hp => .inl hp) (by simp) token⟩

theorem IsNamed.appendSource (h : b.IsNamed strange start) (source : ParameterSource) :
    (b.appendSource source).IsNamed strange start ∧ Adds {source} b (b.appendSource source) := by
  obtain ⟨p, new, hregister, hnumbered, hp, hid, hnew⟩ := exists_of_register h.numbered source
  have hnames : TextPart.namesIn p.name = [p.name] := by
    obtain ⟨n, hn, rfl⟩ := List.getElem_of_mem hp
    rw [hnumbered.name_getElem hn, TextPart.namesIn_placeholderName]
  have hgrows : b.parameters <+: b.parameters ++ new := List.prefix_append _ _
  simp only [CodeBuffer.appendSource, CodeBuffer.register, hregister]
  constructor
  · refine h.append hnumbered hgrows (fun q hq => ?_) fun name hname => ?_
    · rw [hnames]
      exact (List.mem_append.mp hq).imp_right fun hq => by simp [(hnew q hq).1]
    · rw [hnames] at hname
      rw [List.mem_singleton.mp hname]
      exact .inl (List.mem_map_of_mem hp)
  · refine adds_append hgrows (fun q hq => ?_) ?_ _
    · exact (List.mem_append.mp hq).imp_right fun hq => (hnew q hq).2
    · rintro _ rfl
      exact ⟨p, hp, hid⟩

end CodeBuffer

/-- A text names all its parameters. What else it names is strange. -/
structure Compiled.IsNamed (strange : Set String) (c : Compiled) : Prop where
  numbered : AreNumbered c.parameters
  named : ∀ p ∈ c.parameters, p.name ∈ TextPart.namesIn c.text
  known : ∀ name ∈ TextPart.namesIn c.text,
    name ∈ c.parameters.map Parameter.name ∨ name ∈ strange

/-- Text for these sources was written, or a strange name in a text that is taken over was
refused. -/
inductive Written.Adds (strange inside : Set String) (start : List Parameter)
    (sources : Set ParameterSource) (b : CodeBuffer) : Written → Prop
  | ok {b' : CodeBuffer} (named : b'.IsNamed strange start) (adds : b.Adds sources b') :
    Adds strange inside start sources b (.ok (), b')
  | refused {name : String} (h : name ∈ inside) (b' : CodeBuffer) :
    Adds strange inside start sources b (.error (.unknownArgument name), b')

namespace Written.Adds

variable {strange inside : Set String} {start : List Parameter} {b : CodeBuffer} {w : Written}
  {x y : Set ParameterSource}

theorem cases (h : w.Adds strange inside start x b) :
    (∃ b', w = (.ok (), b') ∧ b'.IsNamed strange start ∧ b.Adds x b') ∨
      ∃ name ∈ inside, ∃ b', w = (.error (.unknownArgument name), b') := by
  cases h with
  | @ok b' named adds => exact .inl ⟨b', rfl, named, adds⟩
  | @refused name h b' => exact .inr ⟨name, h, b', rfl⟩

theorem of_represents (h : w.Adds strange inside start x b) (hxy : Represents x y) :
    w.Adds strange inside start y b := by
  cases h with
  | ok named adds => exact .ok named (adds.of_represents hxy)
  | refused h b' => exact .refused h b'

end Written.Adds

namespace CodeBuffer

variable {strange inside : Set String} {start given : List Parameter} {b b' : CodeBuffer}
  {parts parts' : List TextPart}

section Renames

variable (h : List.Forall₂ (TextPart.Renames given b.parameters) parts parts')

include h

/-- A renamed text names parameters only. -/
theorem mem_names_of_renames {name : String} (hname : name ∈ parts'.filterMap TextPart.name?) :
    name ∈ b.parameters.map Parameter.name := by
  induction h with
  | nil => cases hname
  | cons hpart _ ih =>
    cases hpart with
    | plain c =>
      rw [List.filterMap_cons_none rfl] at hname
      exact ih hname
    | placeholder _ hnew =>
      rw [List.filterMap_cons, TextPart.name?, List.mem_cons] at hname
      rcases hname with rfl | hname
      · obtain ⟨p, hp, hp'⟩ := hnew.1
        exact List.mem_map.mpr ⟨p, hp, hp'⟩
      · exact ih hname

/-- Where a parameter was named, one for its source is named afterwards. -/
theorem exists_named_of_renames {p : Parameter} (hp : p ∈ given)
    (hname : p.name ∈ parts.filterMap TextPart.name?) :
    ∃ q ∈ b.parameters, q.source.id = p.source.id ∧ q.name ∈ parts'.filterMap TextPart.name? := by
  induction h with
  | nil => cases hname
  | cons hpart _ ih =>
    cases hpart with
    | plain c =>
      rw [List.filterMap_cons_none rfl] at hname ⊢
      exact ih hname
    | @placeholder old new id hold hnew =>
      rw [List.filterMap_cons, TextPart.name?, List.mem_cons] at hname
      rcases hname with hname | hname
      · obtain ⟨q, hq, hqname⟩ := hnew.1
        refine ⟨q, hq, (hnew.2 q hq hqname).trans (hold.2 p hp hname).symm, ?_⟩
        rw [List.filterMap_cons, TextPart.name?, hqname]
        exact List.mem_cons_self
      · obtain ⟨q, hq, hid, hqname⟩ := ih hname
        exact ⟨q, hq, hid, List.mem_cons_of_mem _ hqname⟩

end Renames

theorem IsNamed.appendCompiled (h : b.IsNamed strange start) {c : Compiled}
    (hc : c.IsNamed inside) : (b.appendCompiled c.body c.parameters).Adds strange inside start
      (sources c.parameters) b := by
  by_cases hknown : ∀ name ∈ TextPart.namesIn c.body, name ∈ c.parameters.map Parameter.name
  · obtain ⟨parts, b', hrename, htaken, halike, hrenames⟩ :=
      rename_eq_ok hc.numbered.nodup_names h.numbered hknown
    obtain ⟨new, rfl, hnumbered, hnew⟩ := htaken
    have hsplit := ((TextPart.AreSplit.split c.body.toList).of_alike halike).split_join
    have htoken : TextPart.namesIn (String.ofList (TextPart.join parts)) =
        parts.filterMap TextPart.name? := by
      rw [TextPart.namesIn, String.toList_ofList, hsplit]
    have hnamed : ∀ p ∈ c.parameters, ∃ q ∈ b.parameters ++ new, q.source.id = p.source.id ∧
        q.name ∈ TextPart.namesIn (String.ofList (TextPart.join parts)) := by
      intro p hp
      rw [htoken]
      exact exists_named_of_renames hrenames hp (TextPart.mem_namesIn_body.mpr (hc.named p hp))
    have hgrows : b.parameters <+: b.parameters ++ new := List.prefix_append _ _
    rw [appendCompiled_of_rename hrename]
    refine .ok (h.append hnumbered hgrows (fun q hq => ?_) fun name hname => ?_)
      (adds_append hgrows (fun q hq => ?_) ?_ _)
    · refine (List.mem_append.mp hq).imp_right fun hmem => ?_
      obtain ⟨p, hp, hsource⟩ := hnew q hmem
      obtain ⟨q', hq', hid, hname⟩ := hnamed p hp
      have hsame : q' = q := List.inj_on_of_nodup_map hnumbered.distinct hq' hq (by
        rw [hid, hsource])
      rwa [← hsame]
    · rw [htoken] at hname
      exact .inl (mem_names_of_renames hrenames hname)
    · refine (List.mem_append.mp hq).imp_right fun hmem => ?_
      obtain ⟨p, hp, hsource⟩ := hnew q hmem
      exact ⟨p, hp, hsource.symm⟩
    · rintro _ ⟨p, hp, rfl⟩
      obtain ⟨q, hq, hid, -⟩ := hnamed p hp
      exact ⟨q, hq, hid⟩
  · -- the first name that is not given is none of a parameter, so it is strange
    obtain ⟨name, hfind⟩ : ∃ name, (TextPart.namesIn c.body).find?
        (· ∉ c.parameters.map Parameter.name) = some name := by
      rw [← Option.isSome_iff_exists, List.find?_isSome]
      simpa using hknown
    obtain ⟨b', hrename⟩ := rename_eq_error_iff.mpr ⟨name, hfind, rfl⟩
    rw [appendCompiled_eq_error_iff.mpr hrename]
    have hname := List.mem_of_find?_eq_some hfind
    have hunknown : name ∉ c.parameters.map Parameter.name := by
      simpa using List.find?_some hfind
    exact .refused ((hc.known name (TextPart.mem_namesIn_body.mp hname)).resolve_left hunknown) b'

/-- A buffer without open parts is a text. All its parameters are named once those of the start
are. -/
theorem IsNamed.settled (h : b.IsNamed strange start) (hclosed : b.isDelayed = false)
    (hstart : ∀ p ∈ start, p.name ∈ b.names) :
    Compiled.IsNamed strange ⟨b.fixedText, b.parameters⟩ := by
  have hnames : TextPart.namesIn b.fixedText = b.names := by
    obtain ⟨segments, parameters⟩ := b
    have hlength := h.single hclosed
    rcases segments with _ | ⟨s, _ | ⟨t, rest⟩⟩
    · rfl
    · cases s with
      | text s => simp [names, Segment.namesOf, Segment.names, fixedText, Segment.fixedText,
          String.join]
      | _ => simp [isDelayed, Segment.isOpen] at hclosed
    · simp at hlength
  refine ⟨h.numbered, fun p hp => ?_, fun name hname => ?_⟩
  · rw [hnames]
    exact (h.named p hp).elim (hstart p) id
  · rw [hnames] at hname
    exact h.known name hname

end CodeBuffer

end DeclarativeSql
