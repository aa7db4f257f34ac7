import DeclarativeSql.Proofs.Scanning.Writing

/-!
# What a buffer will say

A buffer with open parts says something once they are filled, unless one of them fails. What is
written to it is joined to that, and what fails says nothing at all. Texts may hold anything, as
long as their placeholders are known.
-/
namespace DeclarativeSql

open Parameter

namespace Content

/-- Writes a token behind a text. If either failed, so does the whole. -/
def join? : Option Content → Option Content → Option Content
  | some u, some v => some (join u v)
  | _, _ => none

def joinAll? (us : List (Option Content)) : Option Content := us.foldr join? (some [])

/-- A placeholder that stands for no source is a failure. -/
def known? (u : Content) : Option Content := if .placeholder none ∈ u then none else some u

variable {u v w : Option Content}

@[simp]
theorem nil_join? (u : Option Content) : join? (some []) u = u := by
  cases u with
  | none => rfl
  | some u => exact congrArg some (nil_join u)

@[simp]
theorem join?_nil (u : Option Content) : join? u (some []) = u := by
  cases u with
  | none => rfl
  | some u => exact congrArg some (join_nil u)

@[simp]
theorem join?_none (u : Option Content) : join? u none = none := by cases u <;> rfl

theorem join?_assoc (u v w : Option Content) : join? (join? u v) w = join? u (join? v w) := by
  cases u with
  | none => rfl
  | some u =>
    cases v with
    | none => rfl
    | some v =>
      cases w with
      | none => rfl
      | some w => exact congrArg some (join_assoc u v w)

theorem join?_eq_some_iff {k : Content} :
    join? u v = some k ↔ ∃ a b, u = some a ∧ v = some b ∧ k = join a b := by
  cases u <;> cases v <;> simp [join?, eq_comm]

theorem joinAll?_cons (u : Option Content) (us : List (Option Content)) :
    joinAll? (u :: us) = join? u (joinAll? us) := rfl

theorem joinAll?_append (us vs : List (Option Content)) :
    joinAll? (us ++ vs) = join? (joinAll? us) (joinAll? vs) := by
  induction us with
  | nil => exact (nil_join? _).symm
  | cons u us ih =>
    rw [List.cons_append, joinAll?_cons, ih, joinAll?_cons, join?_assoc]

theorem joinAll?_concat (us : List (Option Content)) (u : Option Content) :
    joinAll? (us ++ [u]) = join? (joinAll? us) u := by
  rw [joinAll?_append]
  exact congrArg (join? _) (join?_nil u)

theorem joinAll?_eq_none {us : List (Option Content)} (h : none ∈ us) : joinAll? us = none := by
  obtain ⟨front, back, rfl⟩ := List.append_of_mem h
  rw [joinAll?_append]
  exact join?_none _

end Content

open Content

/-- What a command says inside another text. -/
def Compiled.embedded? (c : Compiled) : Option Content := known? (contentOf c.parameters c.body)

/-- What each open part says once it is filled. -/
abbrev Filling := Segment → Option Content

variable {fill : Filling} {ps qs base : List Parameter}

namespace Segment

def said (fill : Filling) (ps : List Parameter) : Segment → Option Content
  | text s => some (contentOf ps s)
  | s => fill s

def saidAll (fill : Filling) (ps : List Parameter) (segments : List Segment) : Option Content :=
  joinAll? (segments.map (said fill ps))

variable {segments : List Segment}

theorem said_of_isOpen {s : Segment} (h : s.isOpen = true) : s.said fill ps = fill s := by
  cases s with
  | text => cases h
  | _ => rfl

theorem saidAll_cons (s : Segment) (segments : List Segment) :
    saidAll fill ps (s :: segments) = join? (s.said fill ps) (saidAll fill ps segments) := rfl

theorem saidAll_appendToken (token : String) (segments : List Segment) :
    saidAll fill ps (appendToken token segments) =
      join? (saidAll fill ps segments) (some (contentOf ps token)) := by
  induction segments with
  | nil => rw [appendToken, saidAll, saidAll, List.map_nil, ← joinAll?_concat]; rfl
  | cons s segments ih =>
    rcases appendToken_cons token s segments with ⟨t, rfl, rfl⟩ | hcons
    · simp [appendToken, saidAll, joinAll?, said, join?, contentOf_join]
    · rw [hcons, saidAll_cons, ih, saidAll_cons, join?_assoc]

theorem saidAll_of_isPrefix (hknown : ∀ s, text s ∈ segments → (contentOf ps s).IsKnown)
    (h : ps <+: qs) : saidAll fill qs segments = saidAll fill ps segments := by
  refine congrArg joinAll? (List.map_congr_left fun s hs => ?_)
  cases s with
  | text s => exact congrArg some (contentOf_of_isKnown (hknown s hs) h)
  | _ => rfl

theorem isKnown_appendToken (hknown : ∀ s, text s ∈ segments → (contentOf ps s).IsKnown)
    {token : String} (htoken : (contentOf ps token).IsKnown) :
    ∀ s, text s ∈ appendToken token segments → (contentOf ps s).IsKnown := by
  induction segments with
  | nil =>
    intro s hs
    cases List.mem_singleton.mp hs
    exact htoken
  | cons s segments ih =>
    rcases appendToken_cons token s segments with ⟨t, rfl, rfl⟩ | hcons
    · intro s hs
      cases List.mem_singleton.mp hs
      rw [contentOf_join, isKnown_join_iff]
      exact ⟨hknown t List.mem_cons_self, htoken⟩
    · intro t ht
      rw [hcons] at ht
      rcases List.mem_cons.mp ht with ht | ht
      · exact hknown t (ht ▸ List.mem_cons_self)
      · exact ih (fun x hx => hknown x (List.mem_cons_of_mem _ hx)) t ht

end Segment

/-- With the open parts filled, the buffer says this. Its parameters are those of `base` and others
that the text names. -/
structure CodeBuffer.Says (fill : Filling) (base : List Parameter) (b : CodeBuffer)
    (u : Option Content) : Prop where
  numbered : AreNumbered b.parameters
  grows : base <+: b.parameters
  known : ∀ s, .text s ∈ b.segments → (contentOf b.parameters s).IsKnown
  single : b.isDelayed = false → b.segments.length ≤ 1
  saying : u = Segment.saidAll fill b.parameters b.segments
  named : ∀ k, u = some k → ∀ p ∈ b.parameters,
    p ∈ base ∨ .placeholder (some p.source.id) ∈ k

/-- What was written went through and says this, or it failed and says nothing. -/
inductive Written.Says (fill : Filling) (base : List Parameter) : Written → Option Content → Prop
  | ok {b : CodeBuffer} {u : Option Content} (h : b.Says fill base u) : Says fill base (.ok (), b) u
  | error {e : ConstructionError} {b : CodeBuffer} : Says fill base (.error e, b) none

theorem Written.Says.cases {w : Written} {u : Option Content} (h : w.Says fill base u) :
    (∃ b, w = (.ok (), b) ∧ b.Says fill base u) ∨ ∃ e b, w = (.error e, b) ∧ u = none := by
  cases h with
  | @ok b _ h => exact .inl ⟨b, rfl, h⟩
  | @error e b => exact .inr ⟨e, b, rfl, rfl⟩

namespace CodeBuffer

variable {b : CodeBuffer} {u : Option Content}

theorem says_start (h : AreNumbered ps) : Says fill ps ⟨[], ps⟩ (some []) where
  numbered := h
  grows := List.prefix_rfl
  known := by simp
  single := fun _ => Nat.zero_le _
  saying := rfl
  named := fun _ _ _ hp => .inl hp

/-- A buffer whose parameters have grown for the token that names the new ones. -/
theorem Says.append (h : b.Says fill base u) (hqs : AreNumbered qs) (hgrows : b.parameters <+: qs)
    {token : String} (htoken : (contentOf qs token).IsKnown)
    (hnew : ∀ p ∈ qs, p ∈ b.parameters ∨
      .placeholder (some p.source.id) ∈ contentOf qs token) :
    ({ b with parameters := qs }.append token).Says fill base
      (join? u (some (contentOf qs token))) := by
  have hknown : ∀ s, .text s ∈ b.segments → (contentOf qs s).IsKnown := by
    intro s hs
    rw [contentOf_of_isKnown (h.known s hs) hgrows]
    exact h.known s hs
  have hsaid : u = Segment.saidAll fill qs b.segments := by
    rw [Segment.saidAll_of_isPrefix h.known hgrows]
    exact h.saying
  have hnamed : ∀ k, join? u (some (contentOf qs token)) = some k →
      ∀ p ∈ qs, p ∈ base ∨ .placeholder (some p.source.id) ∈ k := by
    intro k hk p hp
    obtain ⟨k', _, hu, htoken', rfl⟩ := join?_eq_some_iff.mp hk
    cases htoken'
    rw [placeholder_mem_join_iff]
    rcases hnew p hp with hp | hp
    · exact (h.named k' hu p hp).imp_right .inl
    · exact .inr (.inr hp)
  unfold CodeBuffer.append
  split
  next hempty =>
    have hnil : contentOf qs token = [] := by rw [String.isEmpty_iff.mp hempty]; rfl
    rw [hnil, join?_nil] at hnamed ⊢
    exact ⟨hqs, h.grows.trans hgrows, hknown, h.single, hsaid, hnamed⟩
  next =>
    have hopen := Segment.any_isOpen_appendToken token b.segments
    refine ⟨hqs, h.grows.trans hgrows, Segment.isKnown_appendToken hknown htoken, ?_, ?_, hnamed⟩
    · intro hdelayed
      have hclosed := hopen.symm.trans hdelayed
      exact Segment.length_appendToken hclosed (h.single hclosed)
    · rw [Segment.saidAll_appendToken, ← hsaid]

theorem Says.appendText (h : b.Says fill base u) {token : String} (htoken : '@' ∉ token.toList) :
    (b.append token).Says fill base (join? u (some (Scanner.marks token))) := by
  have hcontent : contentOf b.parameters token = Scanner.marks token := contentOf_of_notMem htoken
  rw [← hcontent]
  refine h.append h.numbered List.prefix_rfl ?_ fun p hp => .inl hp
  rw [hcontent]
  simp [IsKnown, Scanner.marks]

theorem Says.appendSource (h : b.Says fill base u) (source : ParameterSource) :
    (b.appendSource source).Says fill base (join? u (some [.placeholder (some source.id)])) := by
  obtain ⟨m, qs, hregister, hqs, hgrows, hcontent, hnew⟩ := register_content h.numbered source
  simp only [CodeBuffer.appendSource, CodeBuffer.register, hregister]
  rw [← hcontent]
  refine h.append hqs hgrows ?_ fun p hp => (hnew p hp).imp_right fun hid => ?_
  · simp [hcontent, IsKnown]
  · simp [hcontent, hid]

theorem Says.appendOpen (h : b.Says fill base u) {s : Segment} (hs : s.isOpen = true) :
    (b.appendOpen s).Says fill base (join? u (fill s)) where
  numbered := h.numbered
  grows := h.grows
  known := by
    intro t ht
    rcases List.mem_append.mp ht with ht | ht
    · exact h.known t ht
    · rw [← List.mem_singleton.mp ht] at hs
      cases hs
  single := by
    intro hdelayed
    simp [CodeBuffer.isDelayed, CodeBuffer.appendOpen, hs] at hdelayed
  saying := by
    have hsaid : s.said fill b.parameters = fill s := Segment.said_of_isOpen hs
    have hparameters : (b.appendOpen s).parameters = b.parameters := rfl
    rw [h.saying, ← hsaid, hparameters, Segment.saidAll, Segment.saidAll, ← joinAll?_concat,
      CodeBuffer.appendOpen, List.map_append, List.map_singleton]
  named := by
    intro k hk p hp
    obtain ⟨k', _, hu, -, rfl⟩ := join?_eq_some_iff.mp hk
    rw [placeholder_mem_join_iff]
    exact (h.named k' hu p hp).imp_right .inl

theorem Says.appendCompiled (h : b.Says fill base u) (text : String) (given : List Parameter) :
    (b.appendCompiled text given).Says fill base (join? u (known? (contentOf given text))) := by
  by_cases hknown : .placeholder none ∈ contentOf given text
  · obtain ⟨e, b', hrename⟩ := rename_of_unknown (b := b) hknown
    rw [known?, if_pos hknown, join?_none, CodeBuffer.appendCompiled, hrename]
    exact .error
  · obtain ⟨token, qs, happend, hqs, hgrows, hcontent, hnew⟩ :=
      exists_of_appendCompiled hknown h.numbered
    rw [known?, if_neg hknown, happend, ← hcontent]
    rw [← hcontent] at hknown hnew
    exact .ok (h.append hqs hgrows hknown hnew)

end CodeBuffer

end DeclarativeSql
