import DeclarativeSql.Proofs.Scanning.Writing

/-!
# Renamed placeholders

Text that was compiled elsewhere names its own parameters. It is taken over with other names for the
same sources, all at once: names may swap, and one may begin like another one. What is no
placeholder is taken over as it is.
-/
namespace DeclarativeSql

open Parameter

namespace Parameter

theorem named?_eq_none_iff {ps : List Parameter} {name : String} :
    named? ps name = none ↔ name ∉ ps.map Parameter.name := by
  simp [named?]

theorem of_named? {ps : List Parameter} {name : String} {p : Parameter}
    (h : named? ps name = some p) : p ∈ ps ∧ p.name = name :=
  ⟨List.mem_of_find?_eq_some h, by simpa using List.find?_some h⟩

theorem register_grows {ps : List Parameter} (hps : AreNumbered ps) (source : ParameterSource) :
    ∃ new, (register ps source).2 = ps ++ new ∧ AreNumbered (ps ++ new) ∧
      ∀ q ∈ new, q.source = source := by
  unfold register
  cases hfind : standingFor? ps source.id with
  | some p => exact ⟨[], (List.append_nil ps).symm, by rwa [List.append_nil], by simp⟩
  | none =>
    have hnew : ∀ p ∈ ps, p.source.id ≠ source.id :=
      fun p hp => by simpa using List.find?_eq_none.mp hfind p hp
    exact ⟨_, rfl, hps.push hnew, by simp⟩

end Parameter

namespace TextPart

/-- The name in a placeholder with these digits. -/
def nameOf (digits : List Char) : String := String.ofList (placeholder digits).chars

def name? : TextPart → Option String
  | plain _ => none
  | placeholder digits => some (nameOf digits)

/-- Names in the order of a text. -/
def namesIn (text : String) : List String := (split text.toList).filterMap name?

theorem mark_placeholder (ps : List Parameter) (digits : List Char) :
    mark ps (placeholder digits) =
      .placeholder ((named? ps (nameOf digits)).map (·.source.id)) := rfl

theorem isKnown_iff {given : List Parameter} {parts : List TextPart} :
    .placeholder none ∉ parts.map (mark given) ↔
      ∀ name ∈ parts.filterMap name?, name ∈ given.map Parameter.name := by
  induction parts with
  | nil => simp
  | cons part parts ih =>
    rw [List.map_cons, List.mem_cons, not_or, ih]
    cases part with
    | plain c => simp [mark, name?]
    | placeholder digits =>
      have hknown : Mark.placeholder none ≠ mark given (placeholder digits) ↔
          nameOf digits ∈ given.map Parameter.name := by
        rw [mark_placeholder, ← not_iff_not, not_not, ← named?_eq_none_iff]
        cases named? given (nameOf digits) <;> simp
      rw [← Ne, hknown, List.filterMap_cons, name?, List.forall_mem_cons]

end TextPart

namespace CodeBuffer

/-- The text is as it was, and behind the parameters that were there stand new ones for given
sources. No source has two parameters. -/
def TakesOver (given : List Parameter) (b b' : CodeBuffer) : Prop :=
  ∃ new, b' = ⟨b.segments, b.parameters ++ new⟩ ∧ AreNumbered b'.parameters ∧
    ∀ q ∈ new, ∃ p ∈ given, q.source = p.source

variable {given : List Parameter} {parts : List TextPart} {b b' b'' : CodeBuffer}
  {e : ConstructionError}

theorem rename_placeholder (given : List Parameter) (b : CodeBuffer) (digits : List Char)
    (parts : List TextPart) : b.rename given (.placeholder digits :: parts) =
      match named? given (TextPart.nameOf digits) with
      | none => (.error (.unknownArgument (TextPart.nameOf digits)), b)
      | some p =>
        match (b.register p.source).2.rename given parts with
        | (.ok text, b') => (.ok ((b.register p.source).1.toList ++ text), b')
        | (.error e, b') => (.error e, b') := rfl

theorem register_snd (b : CodeBuffer) (source : ParameterSource) :
    (b.register source).2 = ⟨b.segments, (Parameter.register b.parameters source).2⟩ := rfl

namespace TakesOver

theorem refl (hb : AreNumbered b.parameters) : TakesOver given b b :=
  ⟨[], by rw [List.append_nil], hb, by simp⟩

theorem areNumbered (h : TakesOver given b b') : AreNumbered b'.parameters := by
  obtain ⟨-, -, hnumbered, -⟩ := h
  exact hnumbered

theorem trans (h : TakesOver given b b') (h' : TakesOver given b' b'') :
    TakesOver given b b'' := by
  obtain ⟨new, rfl, -, hnew⟩ := h
  obtain ⟨new', rfl, hnumbered, hnew'⟩ := h'
  refine ⟨new ++ new', by rw [List.append_assoc], hnumbered, fun q hq => ?_⟩
  exact (List.mem_append.mp hq).elim (hnew q) (hnew' q)

theorem register (hb : AreNumbered b.parameters) {p : Parameter} (hp : p ∈ given) :
    TakesOver given b (b.register p.source).2 := by
  obtain ⟨new, hgrows, hnumbered, hsource⟩ := register_grows hb p.source
  refine ⟨new, ?_, ?_, fun q hq => ⟨p, hp, hsource q hq⟩⟩
  · rw [register_snd, hgrows]
  · rwa [register_snd, hgrows]

/-- Also where a placeholder turns out to be unknown. -/
theorem rename (hb : AreNumbered b.parameters) (parts : List TextPart) :
    TakesOver given b (b.rename given parts).2 := by
  induction parts generalizing b with
  | nil => exact .refl hb
  | cons part parts ih =>
    cases part with
    | plain c =>
      have hrest := ih hb
      rw [CodeBuffer.rename]
      cases hr : b.rename given parts with
      | mk result next =>
        rw [hr] at hrest
        cases result <;> exact hrest
    | placeholder digits =>
      rw [rename_placeholder]
      cases hnamed : named? given (TextPart.nameOf digits) with
      | none => exact .refl hb
      | some p =>
        have hfirst : TakesOver given b (b.register p.source).2 := register hb (of_named? hnamed).1
        have hrest := ih hfirst.areNumbered
        simp only
        cases hr : (b.register p.source).2.rename given parts with
        | mk result next =>
          rw [hr] at hrest
          cases result <;> exact hfirst.trans hrest

end TakesOver

/-- What a buffer can be after any calls, failing ones included. Code that is written anew starts
without text, but with the parameters of the buffer around it. -/
inductive IsWritten : CodeBuffer → Prop
  | empty : IsWritten .empty
  | append {b : CodeBuffer} (token : String) : IsWritten b → IsWritten (b.append token)
  | appendOpen {b : CodeBuffer} (s : Segment) : IsWritten b → IsWritten (b.appendOpen s)
  | register {b : CodeBuffer} (source : ParameterSource) :
      IsWritten b → IsWritten (b.register source).2
  | appendCompiled {b : CodeBuffer} (text : String) (given : List Parameter) :
      IsWritten b → IsWritten (b.appendCompiled text given).2
  | restart {b : CodeBuffer} : IsWritten b → IsWritten ⟨[], b.parameters⟩

theorem parameters_append (b : CodeBuffer) (token : String) :
    (b.append token).parameters = b.parameters := by
  unfold append
  split <;> rfl

theorem IsWritten.areNumbered (h : b.IsWritten) : AreNumbered b.parameters := by
  induction h with
  | empty => exact .nil
  | append token _ ih => rwa [parameters_append]
  | appendOpen s _ ih => exact ih
  | register source _ ih =>
    obtain ⟨new, hgrows, hnumbered, -⟩ := register_grows ih source
    rwa [register_snd, hgrows]
  | @appendCompiled b text given _ ih =>
    have htaken : TakesOver given b (b.rename given (TextPart.split text.toList)).2 := .rename ih _
    rw [CodeBuffer.appendCompiled]
    cases hr : b.rename given (TextPart.split text.toList) with
    | mk result next =>
      rw [hr] at htaken
      cases result with
      | error e => exact htaken.areNumbered
      | ok text =>
        rw [parameters_append]
        exact htaken.areNumbered
  | restart _ ih => exact ih

end CodeBuffer

namespace Parameter

/-- The name is that of a parameter for this source, and of none for another one. -/
def StandsFor (ps : List Parameter) (name : String) (id : SourceId) : Prop :=
  (∃ p ∈ ps, p.name = name) ∧ ∀ p ∈ ps, p.name = name → p.source.id = id

theorem StandsFor.of_named? {ps : List Parameter} (hps : (ps.map Parameter.name).Nodup)
    {name : String} {p : Parameter} (h : named? ps name = some p) :
    StandsFor ps name p.source.id := by
  obtain ⟨hp, rfl⟩ := Parameter.of_named? h
  refine ⟨⟨p, hp, rfl⟩, fun q hq hname => ?_⟩
  rw [List.inj_on_of_nodup_map hps hq hp hname]

theorem AreNumbered.nodup_names {ps : List Parameter} (h : AreNumbered ps) :
    (ps.map Parameter.name).Nodup := by
  rw [h.names]
  exact List.nodup_range.map placeholderName_injective

end Parameter

/-- The same character, or placeholders that stand for one source each among its parameters. -/
inductive TextPart.Renames (given ps : List Parameter) : TextPart → TextPart → Prop
  | plain (c : Char) : Renames given ps (.plain c) (.plain c)
  | placeholder {old new : List Char} {id : SourceId} (hold : StandsFor given (nameOf old) id)
      (hnew : StandsFor ps (nameOf new) id) : Renames given ps (.placeholder old) (.placeholder new)

namespace CodeBuffer

variable {given : List Parameter} {parts : List TextPart} {b b' : CodeBuffer}
  {e : ConstructionError}

/-- The first name that is not given decides. -/
theorem rename_eq_error_iff : (∃ b', b.rename given parts = (.error e, b')) ↔
    ∃ name, (parts.filterMap TextPart.name?).find? (· ∉ given.map Parameter.name) = some name ∧
      e = .unknownArgument name := by
  induction parts generalizing b with
  | nil => simp [rename]
  | cons part parts ih =>
    cases part with
    | plain c =>
      rw [List.filterMap_cons_none rfl, ← ih (b := b), rename]
      cases b.rename given parts with
      | mk result next => cases result <;> simp
    | placeholder digits =>
      rw [List.filterMap_cons, TextPart.name?, List.find?_cons, rename_placeholder]
      cases hnamed : named? given (TextPart.nameOf digits) with
      | none => simp [named?_eq_none_iff.mp hnamed, eq_comm]
      | some p =>
        have hknown : TextPart.nameOf digits ∈ given.map Parameter.name := by
          by_contra hunknown
          rw [named?_eq_none_iff.mpr hunknown] at hnamed
          cases hnamed
        simp only [hknown, not_true_eq_false, decide_false, ← ih (b := (b.register p.source).2)]
        cases (b.register p.source).2.rename given parts with
        | mk result next => cases result <;> simp

/-- What says the same under other names is renamed. -/
theorem renames_of_marks {parts' : List TextPart} {ps : List Parameter}
    (hgiven : (given.map Parameter.name).Nodup) (hps : AreNumbered ps)
    (hknown : .placeholder none ∉ parts.map (TextPart.mark given))
    (halike : List.Forall₂ TextPart.Alike parts parts')
    (hmarks : parts'.map (TextPart.mark ps) = parts.map (TextPart.mark given)) :
    List.Forall₂ (TextPart.Renames given ps) parts parts' := by
  induction halike with
  | nil => exact .nil
  | cons hpart _ ih =>
    rw [List.map_cons, List.map_cons, List.cons.injEq] at hmarks
    rw [List.map_cons, List.mem_cons, not_or] at hknown
    refine .cons ?_ (ih hknown.2 hmarks.2)
    cases hpart with
    | plain c => exact .plain c
    | placeholder digits n =>
      rw [TextPart.mark_placeholder] at hknown
      rw [TextPart.mark_placeholder, TextPart.mark_placeholder] at hmarks
      cases hold : named? given (TextPart.nameOf digits) with
      | none => exact absurd (by rw [hold]; rfl) hknown.1
      | some p =>
        cases hnew : named? ps (TextPart.nameOf (Nat.toDigits 10 n)) with
        | none => simp [hold, hnew] at hmarks
        | some q =>
          have hid : q.source.id = p.source.id := by simpa [hold, hnew] using hmarks.1
          exact .placeholder (.of_named? hgiven hold) (hid ▸ .of_named? hps.nodup_names hnew)

theorem rename_eq_ok (hgiven : (given.map Parameter.name).Nodup) (hb : AreNumbered b.parameters)
    (hknown : ∀ name ∈ parts.filterMap TextPart.name?, name ∈ given.map Parameter.name) :
    ∃ parts' b', b.rename given parts = (.ok (TextPart.join parts'), b') ∧
      TakesOver given b b' ∧ List.Forall₂ TextPart.Alike parts parts' ∧
      List.Forall₂ (TextPart.Renames given b'.parameters) parts parts' := by
  have hmarked := TextPart.isKnown_iff.mpr hknown
  obtain ⟨parts', qs, hrename, halike, hqs, -, hmarks, -⟩ := rename_content hmarked hb
  have htaken : TakesOver given b (b.rename given parts).2 := .rename hb parts
  rw [hrename] at htaken
  exact ⟨parts', _, hrename, htaken, halike, renames_of_marks hgiven hqs hmarked halike hmarks⟩

end CodeBuffer

/-- What is there after a token: it stands behind the last text, apart from a space between the two,
or is a text of its own. -/
inductive Segment.Gains (token : String) : List Segment → List Segment → Prop
  | nothing (segments : List Segment) (h : token = "") : Gains token segments segments
  | behind (front : List Segment) (s : String) {gap : String} (h : gap = "" ∨ gap = " ") :
      Gains token (front ++ [Segment.text s]) (front ++ [Segment.text (s ++ gap ++ token)])
  | apart (segments : List Segment) : Gains token segments (segments ++ [Segment.text token])

theorem Spacing.join_eq (s token : String) :
    ∃ gap, (gap = "" ∨ gap = " ") ∧ Spacing.join s token = s ++ gap ++ token := by
  unfold join
  split
  next =>
    split
    · exact ⟨" ", .inr rfl, rfl⟩
    · exact ⟨"", .inl rfl, by rw [String.append_empty]⟩
  next => exact ⟨"", .inl rfl, by rw [String.append_empty]⟩

theorem Segment.Gains.cons {token : String} {segments segments' : List Segment}
    (h : Gains token segments segments') (s : Segment) :
    Gains token (s :: segments) (s :: segments') := by
  cases h with
  | nothing _ h => exact .nothing _ h
  | behind front t h => exact .behind (s :: front) t h
  | apart _ => exact .apart (s :: segments)

theorem Segment.gains_appendToken (token : String) (segments : List Segment) :
    Gains token segments (appendToken token segments) := by
  induction segments with
  | nil => exact .apart []
  | cons s segments ih =>
    rcases appendToken_cons token s segments with ⟨t, rfl, rfl⟩ | hcons
    · obtain ⟨gap, hgap, hjoin⟩ := Spacing.join_eq t token
      rw [appendToken, hjoin]
      exact .behind [] t hgap
    · rw [hcons]
      exact ih.cons s

namespace CodeBuffer

variable {given : List Parameter} {b b' : CodeBuffer}

theorem gains_append (b : CodeBuffer) (token : String) :
    Segment.Gains token b.segments (b.append token).segments := by
  unfold append
  split
  next h => exact .nothing _ (by simpa using h)
  next => exact Segment.gains_appendToken token b.segments

theorem appendCompiled_of_rename {text : String} {chars : List Char} {mid : CodeBuffer}
    (h : b.rename given (TextPart.split text.toList) = (.ok chars, mid)) :
    b.appendCompiled text given = (.ok (), mid.append (String.ofList chars)) := by
  rw [appendCompiled, h]

theorem appendCompiled_eq_error_iff {text : String} {e : ConstructionError} :
    b.appendCompiled text given = (.error e, b') ↔
      b.rename given (TextPart.split text.toList) = (.error e, b') := by
  unfold appendCompiled
  cases b.rename given (TextPart.split text.toList) with
  | mk result next => cases result <;> simp

/-- Text whose placeholders are all given is written with other names for the same sources, whatever
the buffer holds. The parameters of the buffer stay where they are, and the ones behind them are for
further sources. The first placeholder that is not given is refused, and nothing is written. -/
theorem IsWritten.appendCompiled_renames (hb : b.IsWritten)
    (hgiven : (given.map Parameter.name).Nodup) (text : String) :
    ((∀ name ∈ TextPart.namesIn text, name ∈ given.map Parameter.name) →
      ∃ b' new token, b.appendCompiled text given = (.ok (), b') ∧
        b'.parameters = b.parameters ++ new ∧ AreNumbered b'.parameters ∧
        (∀ q ∈ new, ∃ p ∈ given, q.source = p.source) ∧
        Segment.Gains token b.segments b'.segments ∧
        List.Forall₂ (TextPart.Renames given b'.parameters) (TextPart.split text.toList)
          (TextPart.split token.toList)) ∧
    (∀ e, (∃ b', b.appendCompiled text given = (.error e, b')) ↔
      ∃ name, (TextPart.namesIn text).find? (· ∉ given.map Parameter.name) = some name ∧
        e = .unknownArgument name) ∧
    ∀ e b', b.appendCompiled text given = (.error e, b') → TakesOver given b b' := by
  refine ⟨fun hknown => ?_, fun e => ?_, fun e b' h => ?_⟩
  · obtain ⟨parts, mid, hrename, htaken, halike, hrenames⟩ :=
      rename_eq_ok hgiven hb.areNumbered hknown
    have hsplit := ((TextPart.AreSplit.split text.toList).of_alike halike).split_join
    obtain ⟨new, rfl, hnumbered, hsource⟩ := htaken
    refine ⟨_, new, String.ofList (TextPart.join parts), appendCompiled_of_rename hrename,
      parameters_append _ _, ?_, hsource, gains_append ⟨b.segments, b.parameters ++ new⟩ _, ?_⟩
    · rwa [parameters_append]
    · rwa [parameters_append, String.toList_ofList, hsplit]
  · simp only [appendCompiled_eq_error_iff, rename_eq_error_iff]
    rfl
  · have htaken : TakesOver given b (b.rename given (TextPart.split text.toList)).2 :=
      .rename hb.areNumbered _
    rwa [appendCompiled_eq_error_iff.mp h] at htaken

theorem IsWritten.appendSource (h : b.IsWritten) (source : ParameterSource) :
    (b.appendSource source).IsWritten := (h.register source).append _

/-- Two arguments with one name, to be told apart. -/
def twin (id : Nat) : ParameterSource := .argument ⟨id, "id"⟩

def twins : CodeBuffer := (empty.appendSource (twin 0)).appendSource (twin 1)

/-- The twins the other way round, under names of which one begins like the other. -/
def swapped : List Parameter := [⟨"@p1", twin 0⟩, ⟨"@p10", twin 1⟩, ⟨"@p0", twin 2⟩]

theorem twins_take_swapped :
    (twins.appendCompiled "@p10+@p1,@p10@p" swapped).2.fixedText = "@p0 @p1 @p1+@p0,@p1@p" ∧
      ∃ b' new token, twins.appendCompiled "@p10+@p1,@p10@p" swapped = (.ok (), b') ∧
        b'.parameters = twins.parameters ++ new ∧ AreNumbered b'.parameters ∧
        (∀ q ∈ new, ∃ p ∈ swapped, q.source = p.source) ∧
        Segment.Gains token twins.segments b'.segments ∧
        List.Forall₂ (TextPart.Renames swapped b'.parameters)
          (TextPart.split "@p10+@p1,@p10@p".toList) (TextPart.split token.toList) := by
  have htwins : twins.IsWritten := (IsWritten.empty.appendSource _).appendSource _
  exact ⟨by decide +kernel, (htwins.appendCompiled_renames (by decide) _).1 (by decide +kernel)⟩

end CodeBuffer

end DeclarativeSql
