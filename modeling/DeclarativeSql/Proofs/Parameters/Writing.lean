import DeclarativeSql.Code.Piece
import DeclarativeSql.Proofs.Parameters.Numbering

/-!
# Writing pieces

Whatever is written to a buffer, its texts stay legible and its parameters numbered in the order of
their first use. Writing never fails as long as the commands among the pieces are sound themselves.
-/
namespace DeclarativeSql

open Parameter

namespace Segment

/-- The numbers in a segment. Those in open parts are not known yet. -/
def numbers : Segment → List Nat
  | text s => numbersIn s
  | _ => []

def numbersOf (segments : List Segment) : List Nat := segments.flatMap numbers

/-- Legible text, or an open part that can be filled from the first `n` commands. -/
inductive IsSound (n : Nat) : Segment → Prop
  | text {s : String} {gs : List Glyph} (h : Spells gs s) : IsSound n (.text s)
  | code {id : CodeId} (h : id.index < n) : IsSound n (.code id)
  | embedded {segments : List Segment} {ps : List Parameter}
    (hsegments : ∀ s ∈ segments, IsSound n s) (hnumbers : Numbered [] (numbersOf segments) ps) :
    IsSound n (.embedded segments ps)

theorem IsSound.mono {n m : Nat} {s : Segment} (h : s.IsSound n) (hnm : n ≤ m) : s.IsSound m := by
  induction h with
  | text h => exact .text h
  | code h => exact .code (h.trans_le hnm)
  | embedded _ hnumbers ih => exact .embedded ih hnumbers

theorem appendToken_cons (token : String) (s : Segment) (rest : List Segment) :
    (∃ t, s = text t ∧ rest = []) ∨
      appendToken token (s :: rest) = s :: appendToken token rest := by
  cases s with
  | text t =>
    cases rest with
    | nil => exact .inl ⟨t, rfl, rfl⟩
    | cons => exact .inr rfl
  | _ => cases rest <;> exact .inr rfl

theorem any_isOpen_appendToken (token : String) (segments : List Segment) :
    (appendToken token segments).any isOpen = segments.any isOpen := by
  induction segments with
  | nil => rfl
  | cons s rest ih =>
    rcases appendToken_cons token s rest with ⟨t, rfl, rfl⟩ | hcons
    · rfl
    · rw [hcons, List.any_cons, ih, List.any_cons]

/-- A token goes into the last text or becomes a new one, and its numbers come last. -/
theorem appendToken_sound {n : Nat} {segments : List Segment}
    (hsegments : ∀ s ∈ segments, s.IsSound n) {token : String} {gs : List Glyph}
    (htoken : Spells gs token) :
    (∀ s ∈ appendToken token segments, s.IsSound n) ∧
      numbersOf (appendToken token segments) = numbersOf segments ++ numbersIn token := by
  induction segments with
  | nil =>
    have happend : appendToken token [] = [text token] := rfl
    rw [happend]
    exact ⟨by simpa using IsSound.text htoken, by simp [numbersOf, numbers]⟩
  | cons s rest ih =>
    have hs := hsegments s List.mem_cons_self
    rcases appendToken_cons token s rest with ⟨t, rfl, rfl⟩ | hcons
    · cases hs with
      | text ht =>
        obtain ⟨ks, hks, hnumbers⟩ := ht.join htoken
        have happend : appendToken token [text t] = [text (Spacing.join t token)] := rfl
        rw [happend]
        refine ⟨by simpa using IsSound.text hks, ?_⟩
        simp only [numbersOf, List.flatMap_cons, List.flatMap_nil, List.append_nil, numbers,
          hks.numbersIn, hnumbers, ht.numbersIn, htoken.numbersIn]
    · obtain ⟨hsound, hnumbers⟩ := ih fun x hx => hsegments x (List.mem_cons_of_mem _ hx)
      rw [hcons]
      refine ⟨?_, ?_⟩
      · intro x hx
        rcases List.mem_cons.mp hx with rfl | hx
        · exact hs
        · exact hsound x hx
      · rw [numbersOf, List.flatMap_cons, ← numbersOf, hnumbers, numbersOf, numbersOf,
          List.flatMap_cons, List.append_assoc]

theorem length_appendToken {segments : List Segment} (hopen : segments.any isOpen = false)
    (hlength : segments.length ≤ 1) {token : String} :
    (appendToken token segments).length ≤ 1 := by
  match segments with
  | [] => exact le_rfl
  | [.text s] => exact le_rfl
  | [.code _] => simp [isOpen] at hopen
  | [.embedded ..] => simp [isOpen] at hopen
  | _ :: _ :: _ => simp at hlength

end Segment

namespace CodeBuffer

/-- Texts and open parts are sound, text without open parts is in one piece, and the parameters are
numbered from `start` on. -/
structure IsSound (n : Nat) (start : List Parameter) (b : CodeBuffer) : Prop where
  segments : ∀ s ∈ b.segments, s.IsSound n
  single : b.isDelayed = false → b.segments.length ≤ 1
  numbered : Numbered start (Segment.numbersOf b.segments) b.parameters

variable {n : Nat} {start : List Parameter} {b : CodeBuffer}

theorem numbersIn_of_isEmpty {token : String} (h : token.isEmpty = true) :
    numbersIn token = [] := by
  rw [String.isEmpty_iff.mp h]
  rfl

/-- Parameters may be registered before the token that names them is written. -/
theorem IsSound.append (h : b.IsSound n start) {token : String} {gs : List Glyph}
    (htoken : Spells gs token) {ps : List Parameter}
    (hnumbered : Numbered start (Segment.numbersOf b.segments ++ numbersIn token) ps) :
    ({ b with parameters := ps }.append token).IsSound n start ∧
      ({ b with parameters := ps }.append token).isDelayed = b.isDelayed ∧
      Segment.numbersOf ({ b with parameters := ps }.append token).segments =
        Segment.numbersOf b.segments ++ numbersIn token := by
  unfold CodeBuffer.append
  split
  next hempty =>
    rw [numbersIn_of_isEmpty hempty, List.append_nil] at hnumbered ⊢
    exact ⟨⟨h.segments, h.single, hnumbered⟩, rfl, rfl⟩
  next hne =>
    have hopen := Segment.any_isOpen_appendToken token b.segments
    obtain ⟨hsound, hnumbers⟩ := Segment.appendToken_sound h.segments htoken
    refine ⟨⟨hsound, ?_, ?_⟩, hopen, hnumbers⟩
    · intro hdelayed
      exact Segment.length_appendToken (hopen.symm.trans hdelayed)
        (h.single (hopen.symm.trans hdelayed))
    · rw [hnumbers]
      exact hnumbered

theorem IsSound.appendPlain (h : b.IsSound n start) {token : String} (htoken : IsPlainText token) :
    (b.append token).IsSound n start := by
  have hspells := Spells.ofPlain htoken
  have hnumbers : numbersIn token = [] := by
    rw [hspells.numbersIn]
    simp [Glyph.number?]
  exact (h.append hspells (by simpa [hnumbers] using h.numbered)).1

theorem IsSound.appendSource (h : b.IsSound n start) (hstart : AreNumbered start)
    (source : ParameterSource) : (b.appendSource source).IsSound n start := by
  obtain ⟨m, ps, hregister, hnumbered⟩ :=
    register_numbered (h.numbered.areNumbered hstart) h.numbered source
  have hspells := Spells.placeholderName m
  have hnumbers : numbersIn (placeholderName m) = [m] := hspells.numbersIn
  simp only [CodeBuffer.appendSource, CodeBuffer.register, hregister]
  exact (h.append hspells (by rwa [hnumbers])).1

theorem IsSound.appendOpen (h : b.IsSound n start) {s : Segment} (hs : s.IsSound n)
    (hopen : s.isOpen = true) : (b.appendOpen s).IsSound n start := by
  have hnumbers : s.numbers = [] := by
    cases s with
    | text => cases hopen
    | _ => rfl
  refine ⟨?_, ?_, ?_⟩
  · intro x hx
    rcases List.mem_append.mp hx with hx | hx
    · exact h.segments x hx
    · rwa [List.mem_singleton.mp hx]
  · intro hdelayed
    simp [CodeBuffer.isDelayed, CodeBuffer.appendOpen, hopen] at hdelayed
  · simpa [CodeBuffer.appendOpen, Segment.numbersOf, hnumbers] using h.numbered

end CodeBuffer

/-- A text with the parameters that it names, and these only. -/
structure Compiled.IsComplete (c : Compiled) : Prop where
  legible : ∃ gs, Spells gs c.text
  numbered : AreNumbered c.parameters
  numbers : ∀ n, n ∈ numbersIn c.text ↔ n < c.parameters.length

namespace CodeBuffer

variable {n : Nat} {start : List Parameter} {b : CodeBuffer}

/-- Text that was compiled elsewhere is taken over without failure. -/
theorem IsSound.appendCompiled (h : b.IsSound n start) (hstart : AreNumbered start) {c : Compiled}
    (hc : c.IsComplete) : ∃ b', b.appendCompiled c.body c.parameters = (.ok (), b') ∧
      b'.IsSound n start ∧ b'.isDelayed = b.isDelayed ∧
      Segment.numbersOf b.segments ⊆ Segment.numbersOf b'.segments := by
  obtain ⟨gs, hgs⟩ := hc.legible
  obtain ⟨ks, hks, hnumbers⟩ := hgs.body
  have hknown : ∀ m, .parameter m ∈ ks → m < c.parameters.length := by
    intro m hm
    rw [← hc.numbers, hgs.numbersIn, ← hnumbers]
    exact List.mem_filterMap.mpr ⟨_, hm, rfl⟩
  obtain ⟨hs, ps, hrename, halike, hnumbered⟩ :=
    rename_numbered hc.numbered hstart hknown h.numbered
  have hspells : Spells hs (String.ofList (Glyph.text hs)) :=
    ⟨String.toList_ofList, Glyph.areLegible_of_alike halike hks.2⟩
  rw [← hspells.numbersIn] at hnumbered
  obtain ⟨hsound, hdelayed, hall⟩ := h.append hspells hnumbered
  refine ⟨_, ?_, hsound, hdelayed, ?_⟩
  · simp only [CodeBuffer.appendCompiled, hks.split, hrename]
  · rw [hall]
    exact List.subset_append_left _ _

theorem IsSound.fixedText (h : b.IsSound n start) (hdelayed : b.isDelayed = false) :
    ∃ gs, Spells gs b.fixedText ∧ numbersIn b.fixedText = Segment.numbersOf b.segments := by
  have hsegments := h.segments
  have hlength := h.single hdelayed
  obtain ⟨segments, parameters⟩ := b
  match segments with
  | [] => exact ⟨[], .nil, rfl⟩
  | [.text s] =>
    cases hsegments _ (List.mem_singleton_self _) with
    | text hs =>
      have htext : CodeBuffer.fixedText ⟨[.text s], parameters⟩ = s := by
        simp [CodeBuffer.fixedText, Segment.fixedText, String.join]
      rw [htext]
      exact ⟨_, hs, (List.append_nil _).symm⟩
  | [.code _] => simp [CodeBuffer.isDelayed, Segment.isOpen] at hdelayed
  | [.embedded ..] => simp [CodeBuffer.isDelayed, Segment.isOpen] at hdelayed
  | _ :: _ :: _ => simp at hlength

theorem IsSound.isComplete (h : b.IsSound n start) (hstart : AreNumbered start)
    (hdelayed : b.isDelayed = false)
    (hnamed : ∀ m < start.length, m ∈ Segment.numbersOf b.segments) :
    (⟨b.fixedText, b.parameters⟩ : Compiled).IsComplete ∧
      numbersIn b.fixedText = Segment.numbersOf b.segments := by
  obtain ⟨gs, hgs, hnumbers⟩ := h.fixedText hdelayed
  refine ⟨⟨⟨gs, hgs⟩, h.numbered.areNumbered hstart, fun m => ?_⟩, hnumbers⟩
  simp only [hnumbers]
  exact ⟨h.numbered.lt_length m, fun hm => (h.numbered.named hm).elim (hnamed m) id⟩

end CodeBuffer

/-- A command with its parameters numbered, and with open parts that can be filled from the first
`n` commands. -/
inductive Command.IsSound (n : Nat) : Command → Prop
  | immediate {c : Compiled} (h : c.IsComplete)
    (hordered : (numbersIn c.text).eraseDups = List.range c.parameters.length) :
    IsSound n (.immediate c)
  | delayed {b : CodeBuffer} (h : b.IsSound n []) : IsSound n (.delayed b)

def Piece.IsSound (n : Nat) : Piece → Prop
  | text token => IsPlainText token
  | source _ => True
  | command c => c.IsSound n
  | code id => id.index < n

namespace CodeBuffer

variable {n : Nat} {b : CodeBuffer}

theorem IsSound.empty (n : Nat) : IsSound n [] .empty :=
  ⟨by simp [CodeBuffer.empty], fun _ => Nat.zero_le _, .start⟩

theorem IsSound.write (h : b.IsSound n []) {p : Piece} (hp : p.IsSound n) :
    ∃ b', p.write b = (.ok (), b') ∧ b'.IsSound n [] := by
  cases p with
  | text token => exact ⟨_, rfl, h.appendPlain hp⟩
  | source s => exact ⟨_, rfl, h.appendSource .nil s⟩
  | code id => exact ⟨_, rfl, h.appendOpen (.code hp) rfl⟩
  | command c =>
    cases hp with
    | immediate hc =>
      obtain ⟨b', hb', hsound, -⟩ := h.appendCompiled .nil hc
      exact ⟨b', hb', hsound⟩
    | delayed hc => exact ⟨_, rfl, h.appendOpen (.embedded hc.segments hc.numbered) rfl⟩

theorem IsSound.writeAll (h : b.IsSound n []) {ps : List Piece} (hps : ∀ p ∈ ps, p.IsSound n) :
    ∃ b', Piece.writeAll ps b = (.ok (), b') ∧ b'.IsSound n [] := by
  induction ps generalizing b with
  | nil => exact ⟨b, rfl, h⟩
  | cons p ps ih =>
    obtain ⟨b', hb', hsound⟩ := h.write (hps p List.mem_cons_self)
    obtain ⟨b'', hb'', hsound'⟩ := ih hsound fun q hq => hps q (List.mem_cons_of_mem _ hq)
    refine ⟨b'', ?_, hsound'⟩
    rw [Piece.writeAll, hb']
    exact hb''

end CodeBuffer

/-- Sound pieces make a sound command. -/
theorem Piece.isSound_of_buffer {n : Nat} {ps : List Piece} (hps : ∀ p ∈ ps, p.IsSound n) :
    ∃ b, Piece.buffer ps = .ok b ∧ (Command.ofBuffer b).IsSound n := by
  obtain ⟨b, hb, hsound⟩ := (CodeBuffer.IsSound.empty n).writeAll hps
  refine ⟨b, by rw [Piece.buffer, hb], ?_⟩
  unfold Command.ofBuffer
  split
  · exact .delayed hsound
  next hdelayed =>
    obtain ⟨hcomplete, hnumbers⟩ := hsound.isComplete .nil (Bool.not_eq_true _ ▸ hdelayed)
      fun m hm => absurd hm (Nat.not_lt_zero m)
    exact .immediate hcomplete (by rw [hnumbers]; exact hsound.numbered.eraseDups)

end DeclarativeSql
