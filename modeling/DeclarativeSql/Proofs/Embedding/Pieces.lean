import DeclarativeSql.Code.Piece
import DeclarativeSql.Proofs.Embedding.Filling

/-!
# What pieces say

What is built from pieces, and compiled, says what the pieces say one after the other. So two lists
of pieces that say the same are compiled to texts that differ in the numbers of their parameters
only.
-/
namespace DeclarativeSql

open Parameter Content

namespace Outcome

/-- Two current texts are the same once each placeholder is replaced by its source, and their
parameters stand for the same sources; or there is neither text. -/
inductive Agree : Outcome → Outcome → Prop
  | ok {d d' : Compiled} (content : d'.content = d.content)
    (sources : (d'.parameters.map (·.source.id)).Perm (d.parameters.map (·.source.id))) :
    Agree (.ok d) (.ok d')
  | error {e e' : ConstructionError} : Agree (.error e) (.error e')

end Outcome

theorem mem_of_placeholder_mem_contentOf {ps : List Parameter} {s : String} {id : SourceId}
    (h : .placeholder (some id) ∈ contentOf ps s) : id ∈ ps.map (·.source.id) := by
  obtain ⟨part, -, hmark⟩ := List.mem_map.mp h
  cases part with
  | plain c => cases hmark
  | placeholder digits =>
    rw [TextPart.mark, Mark.placeholder.injEq, Option.map_eq_some_iff] at hmark
    obtain ⟨p, hp, hid⟩ := hmark
    exact List.mem_map.mpr ⟨p, List.mem_of_find?_eq_some hp, hid⟩

/-- Without parameters to start from, those of a text are the sources that it names. -/
theorem Outcome.Says.agree {x y : Outcome} {u : Option Content} (h : Says [] x u)
    (h' : Says [] y u) : x.Agree y := by
  have hmem : ∀ {d : Compiled} {k : Content}, d.content = k →
      (∀ p ∈ d.parameters, p ∈ [] ∨ .placeholder (some p.source.id) ∈ k) →
        ∀ id, id ∈ d.parameters.map (·.source.id) ↔ .placeholder (some id) ∈ k := by
    intro d k hcontent hnamed id
    constructor
    · intro hid
      obtain ⟨p, hp, rfl⟩ := List.mem_map.mp hid
      exact (hnamed p hp).resolve_left List.not_mem_nil
    · intro hid
      rw [← hcontent] at hid
      exact mem_of_placeholder_mem_contentOf hid
  cases h with
  | error =>
    cases h'
    exact .error
  | ok content numbered _ _ named =>
    cases h' with
    | ok content' numbered' _ _ named' =>
      refine .ok (content'.trans content.symm) ?_
      rw [List.perm_ext_iff_of_nodup numbered'.distinct numbered.distinct]
      intro id
      rw [hmem content named, hmem content' named']

namespace Piece

/-- Its text has no sign of a placeholder. -/
def IsUnmarked : Piece → Prop
  | text token => '@' ∉ token.toList
  | _ => True

def said (r : CodeRunner) (fill : Filling) : Piece → Option Content
  | text token => some (Scanner.marks token)
  | source s => some [.placeholder (some s.id)]
  | command c => Outcome.embedded? (c.compile r [])
  | code id => fill (.code id)

section Writing

variable {r : CodeRunner} {fill left : Filling} (hr : r.Obeys fill left) {base : List Parameter}
  {b : CodeBuffer} {u : Option Content}

include hr

/-- A command with open parts stays open and is read once it is filled; any other one is read at
once. -/
theorem says_write {p : Piece} (hp : p.IsUnmarked) (h : b.Says fill base u) :
    (p.write b).Says fill base (join? u (p.said r fill)) := by
  cases p with
  | text token => exact .ok (h.appendText hp)
  | source s => exact .ok (h.appendSource s)
  | code id => exact .ok (h.appendOpen (s := .code id) rfl)
  | command c =>
    cases c with
    | immediate c => exact h.appendCompiled c.body c.parameters
    | delayed c =>
      rw [said, Command.compile, ← hr.embedded c.segments c.parameters []]
      exact .ok (h.appendOpen (s := .embedded c.segments c.parameters) rfl)

theorem says_writeAll {ps : List Piece} (hps : ∀ p ∈ ps, p.IsUnmarked) (h : b.Says fill base u) :
    (writeAll ps b).Says fill base (join? u (joinAll? (ps.map (said r fill)))) := by
  induction ps generalizing b u with
  | nil => exact .ok ((join?_nil u).symm ▸ h)
  | cons p ps ih =>
    have hfirst := says_write hr (hps p List.mem_cons_self) h
    rw [writeAll, List.map_cons, joinAll?_cons, ← join?_assoc]
    obtain ⟨next, hwrite, hnext⟩ | ⟨e, next, hwrite, hnone⟩ := hfirst.cases
    · rw [hwrite]
      exact ih (fun q hq => hps q (List.mem_cons_of_mem _ hq)) hnext
    · rw [hwrite, hnone]
      exact .error

theorem says_buffer {ps : List Piece} (hps : ∀ p ∈ ps, p.IsUnmarked) (site : Site) :
    Outcome.Says [] (do (Command.ofBuffer (← buffer ps)).compile r site)
      (joinAll? (ps.map (said r fill))) := by
  have hwrite := says_writeAll hr hps (CodeBuffer.says_start .nil)
  have hempty : CodeBuffer.empty = ⟨[], []⟩ := rfl
  rw [nil_join?] at hwrite
  rw [buffer, hempty]
  obtain ⟨b, hb, hspeaks⟩ | ⟨e, b, hb, hnone⟩ := hwrite.cases
  · rw [hb, ok_bind, Command.ofBuffer]
    split
    next => exact hspeaks.compile hr site
    next hclosed => exact hspeaks.settled (Bool.not_eq_true _ ▸ hclosed)
  · rw [hb, hnone]
    exact .error

end Writing

end Piece

/-- The pieces of something say this, or there are none and it says nothing. -/
inductive Pieces.Says (r : CodeRunner) (fill : Filling) : Pieces → Option Content → Prop
  | ok {ps : List Piece} (h : ∀ p ∈ ps, p.IsUnmarked) :
    Says r fill (.ok ps) (joinAll? (ps.map (Piece.said r fill)))
  | error {e : ConstructionError} : Says r fill (.error e) none

namespace Pieces

variable {r : CodeRunner} {fill left : Filling} {x y : Pieces} {u v : Option Content}

theorem Says.append (h : x.Says r fill u) (h' : y.Says r fill v) :
    Says r fill (do return (← x) ++ (← y)) (join? u v) := by
  cases h with
  | error => exact .error
  | @ok ps hps =>
    cases h' with
    | error =>
      rw [join?_none]
      exact .error
    | @ok qs hqs =>
      rw [← joinAll?_append, ← List.map_append]
      refine .ok fun p hp => ?_
      exact (List.mem_append.mp hp).elim (hps p) (hqs p)

/-- The current text of what is built from the pieces. -/
def outcome (x : Pieces) (r : CodeRunner) (site : Site) : Outcome := do
  (Command.ofBuffer (← Piece.buffer (← x))).compile r site

theorem Says.agree (h : x.Says r fill u) (h' : y.Says r fill u) (hr : r.Obeys fill left)
    (site site' : Site) : (x.outcome r site).Agree (y.outcome r site') := by
  have hspeaks : ∀ {z : Pieces} {site : Site}, z.Says r fill u →
      Outcome.Says [] (z.outcome r site) u := by
    intro z site hz
    cases hz with
    | error => exact .error
    | ok hps => exact Piece.says_buffer hr hps site
  exact (hspeaks h).agree (hspeaks h')

end Pieces

end DeclarativeSql
