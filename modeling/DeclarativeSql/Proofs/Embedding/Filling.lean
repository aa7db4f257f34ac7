import DeclarativeSql.Proofs.Embedding.Buffer

/-!
# Filling open parts

A runner obeys a filling if what it writes for some code is what the filling says, wherever the code
runs. A buffer is then compiled to what it says. Code that makes no values of its own is filled in
with the same content on every run.
-/
namespace DeclarativeSql

open Parameter Content

/-- A current text, or why there is none. -/
abbrev Outcome := Except ConstructionError Compiled

namespace Outcome

/-- What the current text says inside another text. -/
def embedded? (x : Outcome) : Option Content := x.toOption.bind Compiled.embedded?

/-- The text says this, with parameters of `base` and others that it names; or it failed and says
nothing. -/
inductive Says (base : List Parameter) : Outcome → Option Content → Prop
  | ok {d : Compiled} {k : Content} (content : d.content = k)
    (numbered : AreNumbered d.parameters) (grows : base <+: d.parameters) (known : k.IsKnown)
    (named : ∀ p ∈ d.parameters, p ∈ base ∨ .placeholder (some p.source.id) ∈ k) :
    Says base (.ok d) (some k)
  | error {e : ConstructionError} : Says base (.error e) none

theorem Says.mono {base ps : List Parameter} {x : Outcome} {u : Option Content} (h : Says ps x u)
    (hgrows : base <+: ps)
    (hnamed : ∀ k, u = some k → ∀ p ∈ ps, p ∈ base ∨ .placeholder (some p.source.id) ∈ k) :
    Says base x u := by
  cases h with
  | error => exact .error
  | ok content numbered grows known named =>
    refine .ok content numbered (hgrows.trans grows) known fun p hp => ?_
    rcases named p hp with hp | hp
    · exact hnamed _ rfl p hp
    · exact .inr hp

end Outcome

variable {fill left : Filling} {base : List Parameter} {u : Option Content} {b out : CodeBuffer}
  {r : CodeRunner}

theorem CodeBuffer.Says.settled (h : b.Says fill base u) (hclosed : b.isDelayed = false) :
    Outcome.Says base (.ok ⟨b.fixedText, b.parameters⟩) u := by
  have hcontent : u = some (contentOf b.parameters b.fixedText) ∧
      (contentOf b.parameters b.fixedText).IsKnown := by
    obtain ⟨segments, parameters⟩ := b
    have hlength := h.single hclosed
    have hsaying := h.saying
    have hknown := h.known
    rcases segments with _ | ⟨s, _ | ⟨t, rest⟩⟩
    · exact ⟨hsaying, List.not_mem_nil⟩
    · cases s with
      | text s =>
        have hfixed : CodeBuffer.fixedText ⟨[.text s], parameters⟩ = s := by
          simp [CodeBuffer.fixedText, Segment.fixedText, String.join]
        rw [hfixed]
        rw [Segment.saidAll_cons] at hsaying
        exact ⟨hsaying.trans (join?_nil _), hknown s List.mem_cons_self⟩
      | _ => simp [CodeBuffer.isDelayed, Segment.isOpen] at hclosed
    · simp at hlength
  obtain ⟨rfl, hknown⟩ := hcontent
  exact .ok rfl h.numbered h.grows hknown (h.named _ rfl)

/-- A current text is written without its terminator. -/
theorem CodeBuffer.Says.writeTo (h : out.Says fill base u) (c : Command) (site : Site) :
    (c.writeTo r site out).Says fill base
      (join? u (Outcome.embedded? (c.compile r site))) := by
  rw [Command.writeTo]
  cases c.compile r site with
  | error e =>
    have hnone : Outcome.embedded? (.error e) = none := rfl
    rw [hnone, join?_none]
    exact .error
  | ok d => exact h.appendCompiled d.body d.parameters

theorem Segment.replay_embedded (segments : List Segment) (parameters : List Parameter)
    (site : Site) (out : CodeBuffer) : (embedded segments parameters).replay r site out =
      (Command.delayed ⟨segments, parameters⟩).writeTo r site out := by
  rw [replay, Command.writeTo, Command.compile, CodeBuffer.compile]
  rcases replayAll r site segments 1 ⟨[], parameters⟩ with ⟨e | ⟨⟩, inner⟩ <;> rfl

/-- Code says what `fill` says, wherever it runs. Parts that it leaves open say what `left` says,
and that is what they are compiled to. A command with open parts says what its current text does. -/
structure CodeRunner.Obeys (r : CodeRunner) (fill left : Filling) : Prop where
  run : ∀ (id : CodeId) (site : Site) {base : List Parameter} {out : CodeBuffer}
    {u : Option Content}, out.Says left base u →
      (r.run id site out).Says left base (join? u (fill (.code id)))
  again : ∀ (site : Site) {base : List Parameter} {b : CodeBuffer} {u : Option Content},
    b.Says left base u → b.isDelayed = true → Outcome.Says base (r.again site b) u
  embedded : ∀ (segments : List Segment) (parameters : List Parameter) (site : Site),
    fill (.embedded segments parameters) =
      Outcome.embedded? (CodeBuffer.compile ⟨segments, parameters⟩ r site)

section Obeys

variable (hr : r.Obeys fill left)

include hr

theorem CodeRunner.Obeys.settle (site : Site) (h : b.Says left base u) :
    Outcome.Says base (r.settle site b) u := by
  rw [CodeRunner.settle]
  split
  next hdelayed => exact hr.again (0 :: site) h hdelayed
  next hclosed => exact h.settled (Bool.not_eq_true _ ▸ hclosed)

theorem Segment.says_replay (site : Site) (s : Segment)
    (hs : ∀ t, s = .text t → (contentOf base t).IsKnown) (h : out.Says left base u) :
    (s.replay r site out).Says left base (join? u (s.said fill base)) := by
  cases s with
  | text t =>
    have hcontent : contentOf out.parameters t = contentOf base t :=
      contentOf_of_isKnown (hs t rfl) h.grows
    rw [Segment.said, ← hcontent, Segment.replay]
    refine .ok (h.append h.numbered List.prefix_rfl ?_ fun p hp => .inl hp)
    rw [hcontent]
    exact hs t rfl
  | code id => exact hr.run id site h
  | embedded segments parameters =>
    rw [Segment.replay_embedded, Segment.said, hr.embedded segments parameters site]
    · exact h.writeTo _ site
    · exact fun _ => Segment.noConfusion

theorem Segment.says_replayAll (site : Site) (segments : List Segment) (n : Nat)
    (hsegments : ∀ t, .text t ∈ segments → (contentOf base t).IsKnown)
    (h : out.Says left base u) :
    (replayAll r site segments n out).Says left base
      (join? u (saidAll fill base segments)) := by
  induction segments generalizing n out u with
  | nil =>
    rw [replayAll, saidAll, List.map_nil]
    exact .ok ((join?_nil u).symm ▸ h)
  | cons s segments ih =>
    have hfirst := says_replay hr (n :: site) s
      (fun t ht => hsegments t (ht ▸ List.mem_cons_self)) h
    have hrest : ∀ t, .text t ∈ segments → (contentOf base t).IsKnown :=
      fun t ht => hsegments t (List.mem_cons_of_mem _ ht)
    rw [replayAll, saidAll_cons, ← join?_assoc]
    obtain ⟨next, hreplay, hnext⟩ | ⟨e, next, hreplay, hnone⟩ := hfirst.cases
    · rw [hreplay]
      exact ih (n + 1) hrest hnext
    · rw [hreplay, hnone]
      exact .error

/-- A buffer is compiled to what it says. -/
theorem CodeBuffer.Says.compile (h : b.Says fill base u) (site : Site) :
    Outcome.Says base (b.compile r site) u := by
  have hreplay := Segment.says_replayAll hr site b.segments 1 h.known (says_start h.numbered)
  rw [nil_join?, ← h.saying] at hreplay
  rw [CodeBuffer.compile]
  obtain ⟨out, hout, hspeaks⟩ | ⟨e, out, hout, hnone⟩ := hreplay.cases
  · rw [hout]
    exact (hr.settle site hspeaks).mono h.grows h.named
  · rw [hout, hnone]
    exact .error

end Obeys

end DeclarativeSql
