import DeclarativeSql.Proofs.Parameters.History
import DeclarativeSql.Proofs.Scanning.Content

/-!
# Contents of commands

Writing a piece joins what it says to what the buffer says, and so does filling an open part. So a
command says what its pieces say, one after the other, whenever its text is asked for.
-/
namespace DeclarativeSql

open Parameter

variable {n : Nat} {ps qs : List Parameter}

theorem Parameter.register_content (hps : AreNumbered ps) (source : ParameterSource) :
    ∃ m qs, register ps source = (placeholderName m, qs) ∧ AreNumbered qs ∧ ps <+: qs ∧
      contentOf qs (placeholderName m) = [.placeholder (some source.id)] ∧
      ∀ p ∈ qs, p ∈ ps ∨ p.source.id = source.id := by
  have hmark : ∀ {m qs}, AreNumbered qs → contentOf qs (placeholderName m) =
      [.placeholder (qs[m]?.map (·.source.id))] := fun hqs =>
    (Spells.placeholderName _).contentOf_eq hqs
  unfold register
  cases hfind : standingFor? ps source.id with
  | some p =>
    obtain ⟨m, hm, rfl⟩ := List.getElem_of_mem (List.mem_of_find?_eq_some hfind)
    have hid : ps[m].source.id = source.id := by simpa using List.find?_some hfind
    refine ⟨m, ps, congrArg (·, ps) (hps.name_getElem hm), hps, List.prefix_rfl, ?_, ?_⟩
    · rw [hmark hps, List.getElem?_eq_getElem hm, Option.map_some, hid]
    · exact fun p hp => .inl hp
  | none =>
    have hnew : ∀ p ∈ ps, p.source.id ≠ source.id :=
      fun p hp => by simpa using List.find?_eq_none.mp hfind p hp
    refine ⟨ps.length, _, rfl, hps.push hnew, List.prefix_append _ _, ?_, ?_⟩
    · rw [hmark (hps.push hnew), List.getElem?_concat_length, Option.map_some]
    · intro p hp
      rcases List.mem_append.mp hp with hp | hp
      · exact .inl hp
      · exact .inr (List.mem_singleton.mp hp ▸ rfl)

namespace CodeBuffer

variable {given : List Parameter} {parts : List TextPart} {b : CodeBuffer}

theorem rename_content (hknown : .placeholder none ∉ parts.map (TextPart.mark given))
    (hb : AreNumbered b.parameters) :
    ∃ parts' qs, b.rename given parts = (.ok (TextPart.join parts'), ⟨b.segments, qs⟩) ∧
      List.Forall₂ TextPart.Alike parts parts' ∧ AreNumbered qs ∧ b.parameters <+: qs ∧
      parts'.map (TextPart.mark qs) = parts.map (TextPart.mark given) ∧
      ∀ p ∈ qs, p ∈ b.parameters ∨
        .placeholder (some p.source.id) ∈ parts.map (TextPart.mark given) := by
  induction parts generalizing b with
  | nil => exact ⟨[], b.parameters, rfl, .nil, hb, List.prefix_rfl, rfl, fun p hp => .inl hp⟩
  | cons part parts ih =>
    rw [List.map_cons, List.mem_cons, not_or] at hknown
    cases part with
    | plain c =>
      obtain ⟨parts', qs, heq, halike, hqs, hgrows, hmarks, hnew⟩ := ih hknown.2 hb
      refine ⟨.plain c :: parts', qs, ?_, .cons (.plain c) halike, hqs, hgrows, ?_, ?_⟩
      · rw [rename, heq]
        rfl
      · rw [List.map_cons, List.map_cons, hmarks]
        rfl
      · exact fun p hp => (hnew p hp).imp_right (List.mem_cons_of_mem _)
    | placeholder digits =>
      cases hnamed : named? given (String.ofList (TextPart.placeholder digits).chars) with
      | none => exact absurd (by rw [TextPart.mark, hnamed]; rfl) hknown.1
      | some p =>
        obtain ⟨m, ps, hregister, hps, hfirst, hcontent, hsource⟩ := register_content hb p.source
        obtain ⟨parts', qs, heq, halike, hqs, hgrows, hmarks, hnew⟩ :=
          ih (b := ⟨b.segments, ps⟩) hknown.2 hps
        -- the new name is known once it is registered, whatever parameters follow
        have hmark : TextPart.mark qs (.placeholder (Nat.toDigits 10 m)) =
            .placeholder (some p.source.id) := by
          have hknown : (contentOf ps (placeholderName m)).IsKnown := by
            simp [hcontent, Content.IsKnown]
          have hname := contentOf_of_isKnown hknown hgrows
          rw [hcontent, contentOf, (Spells.placeholderName m).split] at hname
          exact List.singleton_inj.mp hname
        have hgiven : TextPart.mark given (.placeholder digits) =
            .placeholder (some p.source.id) := by rw [TextPart.mark, hnamed, Option.map_some]
        refine ⟨.placeholder (Nat.toDigits 10 m) :: parts', qs, ?_,
          .cons (.placeholder digits m) halike, hqs, hfirst.trans hgrows, ?_, fun q hq => ?_⟩
        · rw [rename]
          simp only [hnamed, register, hregister, heq, toList_placeholderName]
          rfl
        · rw [List.map_cons, List.map_cons, hmarks, hmark, hgiven]
        · rw [List.map_cons, hgiven]
          rcases hnew q hq with hq | hq
          · refine (hsource q hq).imp_right fun hid => ?_
            rw [hid]
            exact List.mem_cons_self
          · exact .inr (List.mem_cons_of_mem _ hq)

theorem rename_of_unknown (h : .placeholder none ∈ parts.map (TextPart.mark given)) :
    ∃ e b', b.rename given parts = (.error e, b') := by
  induction parts generalizing b with
  | nil => cases h
  | cons part parts ih =>
    rw [List.map_cons, List.mem_cons] at h
    cases part with
    | plain c =>
      obtain ⟨e, b', heq⟩ := ih (b := b) (h.resolve_left (by simp [TextPart.mark]))
      exact ⟨e, b', by rw [rename, heq]⟩
    | placeholder digits =>
      cases hnamed : named? given (String.ofList (TextPart.placeholder digits).chars) with
      | none =>
        refine ⟨.unknownArgument (String.ofList (TextPart.placeholder digits).chars), b, ?_⟩
        rw [rename]
        simp only [hnamed]
      | some p =>
        have hrest := h.resolve_left (by simp [TextPart.mark, hnamed])
        obtain ⟨e, b', heq⟩ := ih (b := (b.register p.source).2) hrest
        refine ⟨e, b', ?_⟩
        rw [rename]
        simp only [hnamed, heq]

theorem exists_of_appendCompiled {text : String} (hknown : (contentOf given text).IsKnown)
    (hb : AreNumbered b.parameters) :
    ∃ token qs, b.appendCompiled text given = (.ok (), { b with parameters := qs }.append token) ∧
      AreNumbered qs ∧ b.parameters <+: qs ∧ contentOf qs token = contentOf given text ∧
      ∀ p ∈ qs, p ∈ b.parameters ∨ .placeholder (some p.source.id) ∈ contentOf given text := by
  obtain ⟨parts, qs, hrename, halike, hqs, hgrows, hmarks, hnew⟩ := rename_content hknown hb
  refine ⟨String.ofList (TextPart.join parts), qs, ?_, hqs, hgrows, ?_, hnew⟩
  · rw [appendCompiled, hrename]
  · have hsplit := (TextPart.AreSplit.split text.toList).of_alike halike
    rw [contentOf, String.toList_ofList, hsplit.split_join, hmarks]
    rfl

end CodeBuffer

mutual

/-- What a segment says, given what fills the code in it. -/
def Segment.content (fill : CodeId → Content) (ps : List Parameter) : Segment → Content
  | .text s => contentOf ps s
  | .code id => fill id
  | .embedded segments qs => (Segment.contentAll fill qs segments).body

def Segment.contentAll (fill : CodeId → Content) (ps : List Parameter) : List Segment → Content
  | [] => []
  | s :: rest => Content.join (s.content fill ps) (Segment.contentAll fill ps rest)

end

def CodeBuffer.content (fill : CodeId → Content) (b : CodeBuffer) : Content :=
  Segment.contentAll fill b.parameters b.segments

def Command.content (fill : CodeId → Content) : Command → Content
  | immediate c => c.content
  | delayed b => b.content fill

def Piece.content (fill : CodeId → Content) : Piece → Content
  | text token => Scanner.marks token
  | source s => [.placeholder (some s.id)]
  | command c => (c.content fill).body
  | code id => fill id

variable {fill : CodeId → Content}

namespace Segment

theorem contentAll_append_singleton (segments : List Segment) (s : Segment) :
    contentAll fill ps (segments ++ [s]) =
      Content.join (contentAll fill ps segments) (s.content fill ps) := by
  induction segments with
  | nil => simp [contentAll]
  | cons t segments ih => rw [List.cons_append, contentAll, ih, contentAll, Content.join_assoc]

theorem contentAll_of_isPrefix {segments : List Segment}
    (hsegments : ∀ s ∈ segments, s.IsSound n) (hps : AreNumbered ps) (hqs : AreNumbered qs)
    (hgrows : ps <+: qs) (hknown : ∀ m ∈ numbersOf segments, m < ps.length) :
    contentAll fill qs segments = contentAll fill ps segments := by
  induction segments with
  | nil => rfl
  | cons s segments ih =>
    rw [contentAll, contentAll, ih (fun t ht => hsegments t (List.mem_cons_of_mem _ ht))
      fun m hm => hknown m (List.mem_append_right _ hm)]
    cases hsegments s List.mem_cons_self with
    | text hs =>
      rw [content, content, hs.contentOf_of_isPrefix hps hqs hgrows
        fun m hm => hknown m (List.mem_append_left _ hm)]
    | _ => rw [content, content]

theorem contentAll_appendToken (token : String) (segments : List Segment) :
    contentAll fill ps (appendToken token segments) =
      Content.join (contentAll fill ps segments) (contentOf ps token) := by
  induction segments with
  | nil => simp [appendToken, contentAll, content]
  | cons s segments ih =>
    rcases appendToken_cons token s segments with ⟨t, rfl, rfl⟩ | hcons
    · simp [appendToken, contentAll, content, contentOf_join]
    · rw [hcons, contentAll, ih, contentAll, Content.join_assoc]

end Segment

theorem Compiled.IsComplete.isKnown_body {c : Compiled} (h : c.IsComplete) :
    (contentOf c.parameters c.body).IsKnown := by
  obtain ⟨gs, hgs⟩ := h.legible
  obtain ⟨ks, hks, hnumbers⟩ := hgs.body
  rw [hks.contentOf_eq h.numbered]
  intro hmem
  obtain ⟨g, hg, hmark⟩ := List.mem_map.mp hmem
  cases g with
  | char c => cases hmark
  | parameter m =>
    have hm : m ∈ numbersIn c.text := by
      rw [hgs.numbersIn, ← hnumbers]
      exact List.mem_filterMap.mpr ⟨_, hg, rfl⟩
    rw [Glyph.mark, List.getElem?_eq_getElem ((h.numbers m).mp hm)] at hmark
    cases hmark

namespace CodeBuffer

variable {start : List Parameter} {b b' : CodeBuffer}

/-- The parameters may have grown before the token that names the new ones is written. -/
theorem IsSound.content_append (h : b.IsSound n start) (hstart : AreNumbered start)
    (hps : AreNumbered ps) (hgrows : b.parameters <+: ps) (token : String) :
    ({ b with parameters := ps }.append token).content fill =
      Content.join (b.content fill) (contentOf ps token) := by
  have hsame : Segment.contentAll fill ps b.segments = b.content fill :=
    Segment.contentAll_of_isPrefix h.segments (h.numbered.areNumbered hstart) hps hgrows
      h.numbered.lt_length
  rw [← hsame]
  unfold CodeBuffer.append
  split
  next hempty =>
    rw [String.isEmpty_iff.mp hempty]
    exact (Content.join_nil _).symm
  next => exact Segment.contentAll_appendToken token b.segments

theorem IsSound.content_appendCompiled (h : b.IsSound n start) (hstart : AreNumbered start)
    {c : Compiled} (hc : c.IsComplete)
    (happend : b.appendCompiled c.body c.parameters = (.ok (), b')) :
    b'.content fill = Content.join (b.content fill) c.content.body := by
  obtain ⟨token, qs, heq, hqs, hgrows, hcontent, -⟩ :=
    exists_of_appendCompiled hc.isKnown_body (h.numbered.areNumbered hstart)
  cases happend.symm.trans heq
  rw [h.content_append hstart hqs hgrows, hcontent, contentOf_body]
  rfl

theorem IsSound.content_write (h : b.IsSound n []) {p : Piece} (hp : p.IsSound n)
    (hwrite : p.write b = (.ok (), b')) :
    b'.content fill = Content.join (b.content fill) (p.content fill) := by
  have hb := h.numbered.areNumbered .nil
  cases p with
  | text token =>
    cases hwrite
    refine (h.content_append .nil hb List.prefix_rfl token).trans ?_
    rw [contentOf_of_notMem hp.1]
    rfl
  | source s =>
    obtain ⟨m, qs, hregister, hqs, hgrows, hname, -⟩ := register_content hb s
    simp only [Piece.write, CodeBuffer.appendSource, CodeBuffer.register, hregister,
      Prod.mk.injEq, true_and] at hwrite
    rw [← hwrite, h.content_append .nil hqs hgrows, hname]
    rfl
  | code id =>
    cases hwrite
    exact Segment.contentAll_append_singleton _ _
  | command c =>
    cases hp with
    | immediate hc => exact h.content_appendCompiled .nil hc hwrite
    | delayed hc =>
      cases hwrite
      exact Segment.contentAll_append_singleton _ _

theorem IsSound.content_writeAll (h : b.IsSound n []) {ps : List Piece}
    (hps : ∀ p ∈ ps, p.IsSound n) (hwrite : Piece.writeAll ps b = (.ok (), b')) :
    b'.content fill =
      Content.join (b.content fill) (Content.joinAll (ps.map (Piece.content fill))) := by
  induction ps generalizing b with
  | nil =>
    cases hwrite
    exact (Content.join_nil _).symm
  | cons p ps ih =>
    obtain ⟨c, hc, hsound⟩ := h.write (hps p List.mem_cons_self)
    rw [Piece.writeAll, hc] at hwrite
    rw [ih hsound (fun q hq => hps q (List.mem_cons_of_mem _ hq)) hwrite,
      h.content_write (hps p List.mem_cons_self) hc, Content.join_assoc, List.map_cons,
      Content.joinAll_cons]

/-- A buffer in one piece says what its text says. -/
theorem IsSound.content_fixedText (h : b.IsSound n start) (hdelayed : b.isDelayed = false) :
    b.content fill = contentOf b.parameters b.fixedText := by
  have hlength := h.single hdelayed
  obtain ⟨segments, parameters⟩ := b
  match segments with
  | [] => rfl
  | [.text s] => simp [CodeBuffer.content, Segment.contentAll, Segment.content,
      CodeBuffer.fixedText, Segment.fixedText, String.join]
  | [.code _] => simp [CodeBuffer.isDelayed, Segment.isOpen] at hdelayed
  | [.embedded ..] => simp [CodeBuffer.isDelayed, Segment.isOpen] at hdelayed
  | _ :: _ :: _ => simp at hlength

end CodeBuffer

theorem Piece.content_of_buffer {pieces : List Piece} (h : ∀ p ∈ pieces, p.IsSound n)
    {b : CodeBuffer} (hb : Piece.buffer pieces = .ok b) :
    (Command.ofBuffer b).content fill = Content.joinAll (pieces.map (content fill)) := by
  have hempty := CodeBuffer.IsSound.empty n
  obtain ⟨b', hwrite, hsound⟩ := hempty.writeAll h
  rw [Piece.buffer, hwrite] at hb
  cases hb
  have hnil : CodeBuffer.empty.content fill = [] := rfl
  have hcontent : b.content fill = _ := hempty.content_writeAll h hwrite
  rw [hnil, Content.nil_join] at hcontent
  rw [← hcontent, Command.ofBuffer]
  split
  · rfl
  next hdelayed =>
    exact (hsound.content_fixedText (Bool.not_eq_true _ ▸ hdelayed)).symm

theorem Parameter.Numbered.isPrefix {ns : List Nat} (h : Numbered ps ns qs) : ps <+: qs := by
  induction h with
  | start => exact List.prefix_rfl
  | again _ _ ih => exact ih
  | fresh _ _ ih => exact ih.trans (List.prefix_append _ _)

/-- The text of a buffer without open parts. -/
def CodeBuffer.settled (b : CodeBuffer) : Compiled := ⟨b.fixedText, b.parameters⟩

/-- The first `n` commands are filled in with what they say, wherever that is. -/
structure CodeRunner.Writes (fill : CodeId → Content) (r : CodeRunner) (n : Nat) : Prop where
  fills : r.Fills n
  content : ∀ {id : CodeId} (site : Site) {start : List Parameter} {b b' : CodeBuffer},
    id.index < n → AreNumbered start → b.IsSettled start → r.run id site b = (.ok (), b') →
      b'.settled.content = Content.join b.settled.content (fill id)

namespace CodeBuffer

variable {start : List Parameter} {b b' : CodeBuffer}

theorem IsSettled.content_eq (h : b.IsSettled start) : b.content fill = b.settled.content :=
  h.sound.content_fixedText h.closed

theorem IsSettled.content_append (h : b.IsSettled start) (hstart : AreNumbered start)
    {token : String} {gs : List Glyph} (htoken : Spells gs token)
    (hknown : ∀ m ∈ numbersIn token, m < start.length) :
    (b.append token).settled.content =
      Content.join b.settled.content (contentOf start token) := by
  have hb := h.sound.numbered.areNumbered hstart
  have hnext : (b.append token).IsSettled start := (h.append htoken hknown).1.settled
  have happend : (b.append token).content (fun _ => []) = _ :=
    h.sound.content_append hstart hb List.prefix_rfl token
  rw [h.content_eq] at happend
  rw [← htoken.contentOf_of_isPrefix hstart hb h.sound.numbered.isPrefix hknown, ← happend]
  exact hnext.content_eq.symm

theorem IsSettled.content_appendCompiled (h : b.IsSettled start) (hstart : AreNumbered start)
    {c : Compiled} (hc : c.IsComplete)
    (happend : b.appendCompiled c.body c.parameters = (.ok (), b')) :
    b'.settled.content = Content.join b.settled.content c.content.body := by
  obtain ⟨d, hd, hgoes⟩ := h.appendCompiled hstart hc
  cases happend.symm.trans hd
  have hcontent : b'.content (fun _ => []) = _ :=
    h.sound.content_appendCompiled hstart hc happend
  rwa [h.content_eq, hgoes.settled.content_eq] at hcontent

end CodeBuffer

namespace Segment

variable {r : CodeRunner} {segments : List Segment}

/-- Wherever the segment is written, what it says is joined to what is there. -/
def ReplaysAs (fill : CodeId → Content) (r : CodeRunner) (s : Segment) : Prop :=
  ∀ (site : Site) {start : List Parameter} {b b' : CodeBuffer}, AreNumbered start →
    b.IsSettled start → (∀ m ∈ s.numbers, m < start.length) →
      s.replay r site b = (.ok (), b') →
        b'.settled.content = Content.join b.settled.content (s.content fill start)

theorem content_replayAll (hsound : ∀ s ∈ segments, s.Replays r)
    (hall : ∀ s ∈ segments, s.ReplaysAs fill r) (site : Site) (k : Nat) {start : List Parameter}
    {b b' : CodeBuffer} (hstart : AreNumbered start) (hb : b.IsSettled start)
    (hknown : ∀ m ∈ numbersOf segments, m < start.length)
    (hreplay : replayAll r site segments k b = (.ok (), b')) :
    b'.settled.content = Content.join b.settled.content (contentAll fill start segments) := by
  induction segments generalizing k b with
  | nil =>
    cases hreplay
    exact (Content.join_nil _).symm
  | cons s segments ih =>
    have hfirst : ∀ m ∈ s.numbers, m < start.length :=
      fun m hm => hknown m (List.mem_append_left _ hm)
    obtain ⟨c, hc, hgoes, -⟩ := hsound s List.mem_cons_self (k :: site) hstart hb hfirst
    rw [replayAll, hc] at hreplay
    rw [ih (fun t ht => hsound t (List.mem_cons_of_mem _ ht))
        (fun t ht => hall t (List.mem_cons_of_mem _ ht)) (k + 1) hgoes.settled
        (fun m hm => hknown m (List.mem_append_right _ hm)) hreplay,
      hall s List.mem_cons_self (k :: site) hstart hb hfirst hc, Content.join_assoc, contentAll]

/-- Segments that are filled behind their own parameters say what they said before. -/
theorem content_settle (hsound : ∀ s ∈ segments, s.Replays r)
    (hall : ∀ s ∈ segments, s.ReplaysAs fill r) (site : Site)
    (hnumbers : Numbered [] (numbersOf segments) ps) {b : CodeBuffer} {c : Compiled}
    (hreplay : replayAll r site segments 1 ⟨[], ps⟩ = (.ok (), b))
    (hsettle : r.settle site b = .ok c) : c.content = contentAll fill ps segments := by
  have hps := hnumbers.areNumbered .nil
  have hstart := CodeBuffer.isSettled_start ps
  obtain ⟨b', hb', hgoes, -⟩ :=
    replayAll_of_replays hsound site 1 hps hstart hnumbers.lt_length
  cases hreplay.symm.trans hb'
  have hcontent := content_replayAll hsound hall site 1 hps hstart hnumbers.lt_length hreplay
  have hempty : (CodeBuffer.settled ⟨[], ps⟩).content = [] := rfl
  rw [hempty, Content.nil_join] at hcontent
  rw [CodeRunner.settle, hgoes.settled.closed] at hsettle
  cases hsettle
  exact hcontent

theorem IsSound.replaysAs {s : Segment} (h : s.IsSound n) (hr : r.Writes fill n) :
    s.ReplaysAs fill r := by
  induction h with
  | text hs =>
    intro site start b b' hstart hb hknown hreplay
    cases hreplay
    exact hb.content_append hstart hs hknown
  | code hid =>
    intro site start b b' hstart hb _ hreplay
    exact hr.content site hid hstart hb hreplay
  | embedded hsegments hnumbers ih =>
    intro site start b b' hstart hb _ hreplay
    have hsound := fun s hs => (hsegments s hs).replays hr.fills
    obtain ⟨inner, c, hinner, hsettle, hc⟩ := settle_of_replays hsound site hnumbers
    rw [replay, hinner] at hreplay
    simp only [hsettle] at hreplay
    rw [hb.content_appendCompiled hstart hc hreplay,
      content_settle hsound ih site hnumbers hinner hsettle, content]

end Segment

theorem Command.IsSound.content_compile {c : Command} (h : c.IsSound n) {r : CodeRunner}
    (hr : r.Writes fill n) {site : Site} {d : Compiled} (hd : c.compile r site = .ok d) :
    d.content = c.content fill := by
  cases h with
  | immediate hc =>
    cases hd
    rfl
  | @delayed b hb =>
    have hsound : ∀ s ∈ b.segments, s.Replays r := fun s hs => (hb.segments s hs).replays hr.fills
    obtain ⟨inner, c, hinner, hsettle, -⟩ :=
      Segment.settle_of_replays hsound site hb.numbered
    rw [Command.compile, CodeBuffer.compile, hinner] at hd
    exact Segment.content_settle hsound (fun s hs => (hb.segments s hs).replaysAs hr) site
      hb.numbered hinner hd

theorem CodeRunner.Writes.mono {r : CodeRunner} {m : Nat} (h : r.Writes fill n) (hm : m ≤ n) :
    r.Writes fill m := by
  refine ⟨⟨fun {id} site {start b} hid => ?_⟩, fun {id} site {start b b'} hid => ?_⟩
  · exact h.fills.run site (hid.trans_le hm)
  · exact h.content site (hid.trans_le hm)

/-- A command that refers to earlier ones only is filled with what these say. A property that passes
from the earlier commands to each next one holds of all that is filled in. -/
theorem Library.writes_runnerOfDepth {cs : List Command}
    (hcs : ∀ (i : Nat) (c : Command), cs[i]? = some c → c.IsSound i) {holds : Content → Prop}
    (hholds : ∀ (i : Nat) (c : Command), cs[i]? = some c → ∀ fill : CodeId → Content,
      (∀ id : CodeId, id.index < i → holds (fill id)) → holds (c.content fill).body)
    {depth : Nat} (hdepth : n ≤ depth) (hn : n ≤ cs.length) :
    ∃ fill, ((ofCommands cs).runnerOfDepth depth).Writes fill n ∧
      ∀ id : CodeId, id.index < n → holds (fill id) := by
  induction depth generalizing n with
  | zero =>
    have hnone : ∀ id : CodeId, ¬ id.index < n :=
      fun id hid => absurd (hid.trans_le hdepth) (Nat.not_lt_zero _)
    refine ⟨fun _ => [], ⟨fills_runnerOfDepth hcs hdepth hn, fun {id} _ {start b b'} hid => ?_⟩,
      fun id hid => ?_⟩
    · exact absurd hid (hnone id)
    · exact absurd hid (hnone id)
  | succ depth ih =>
    obtain ⟨below, hbelow, hbelowHolds⟩ := ih (n := n - 1) (by omega) (by omega)
    refine ⟨fun id => Content.body (cs[id.index]?.elim [] (Command.content below)),
      ⟨fills_runnerOfDepth hcs hdepth hn, ?_⟩, ?_⟩
    · intro id site start b b' hid hstart hb hrun
      have hlt : id.index < cs.length := hid.trans_le hn
      have hsound := hcs _ _ (List.getElem?_eq_getElem hlt)
      have hwrites := hbelow.mono (m := id.index) (by omega)
      have hscript : (ofCommands cs).script id = [.command cs[id.index]] := by
        simp [script, ofCommands, hlt]
      obtain ⟨d, hd, hcomplete⟩ := hsound.compile hwrites.fills (0 :: site)
      obtain ⟨c, hc, -⟩ := hb.appendCompiled hstart hcomplete
      simp only [runnerOfDepth, hscript, Script.writeFrom, ScriptStep.write, Command.writeTo, hd,
        hc, Prod.mk.injEq, true_and] at hrun
      rw [← hrun, hb.content_appendCompiled hstart hcomplete hc,
        hsound.content_compile hwrites hd, List.getElem?_eq_getElem hlt, Option.elim_some]
    · intro id hid
      have hlt : id.index < cs.length := hid.trans_le hn
      have hget := List.getElem?_eq_getElem hlt
      simp only [hget, Option.elim_some]
      exact hholds _ _ hget below fun id' hid' => hbelowHolds id' (by omega)

end DeclarativeSql
