import DeclarativeSql.Proofs.Embedding.Filling
import DeclarativeSql.Proofs.Parameters.Replay

/-!
# Steady code

Code that makes no values anew and mentions no placeholder by its name writes the same whenever it
runs. Scripts of such steps obey the filling that is read off them, as deep as they ask for each
other.
-/
namespace DeclarativeSql

open Content

/-- It does not matter where code runs. -/
structure CodeRunner.IsSteady (r : CodeRunner) : Prop where
  run : ∀ (id : CodeId) (site site' : Site) (b : CodeBuffer), r.run id site b = r.run id site' b
  again : ∀ (site site' : Site) (b : CodeBuffer), r.again site b = r.again site' b

section Steady

variable {r : CodeRunner}

theorem CodeRunner.IsSteady.settle (hr : r.IsSteady) (site site' : Site) (b : CodeBuffer) :
    r.settle site b = r.settle site' b := by
  rw [CodeRunner.settle, CodeRunner.settle, hr.again]

mutual

theorem Segment.replay_of_isSteady (hr : r.IsSteady) (site site' : Site) :
    (s : Segment) → (b : CodeBuffer) → s.replay r site b = s.replay r site' b
  | .text s, b => rfl
  | .code id, b => hr.run id site site' b
  | .embedded segments parameters, b => by
    rw [replay, replay, Segment.replayAll_of_isSteady hr site site' segments 1 1]
    rcases replayAll r site' segments 1 ⟨[], parameters⟩ with ⟨e | ⟨⟩, inner⟩
    · rfl
    · simp only [hr.settle site site']

theorem Segment.replayAll_of_isSteady (hr : r.IsSteady) (site site' : Site) :
    (segments : List Segment) → (n n' : Nat) → (b : CodeBuffer) →
      replayAll r site segments n b = replayAll r site' segments n' b
  | [], n, n', b => rfl
  | s :: rest, n, n', b => by
    rw [replayAll, replayAll, Segment.replay_of_isSteady hr (n :: site) (n' :: site') s b]
    rcases s.replay r (n' :: site') b with ⟨e | ⟨⟩, b'⟩
    · rfl
    · exact Segment.replayAll_of_isSteady hr site site' rest (n + 1) (n' + 1) b'

end

theorem CodeBuffer.compile_of_isSteady (hr : r.IsSteady) (b : CodeBuffer) (site site' : Site) :
    b.compile r site = b.compile r site' := by
  rw [compile, compile, Segment.replayAll_of_isSteady hr site site' b.segments 1 1]
  rcases Segment.replayAll r site' b.segments 1 ⟨[], b.parameters⟩ with ⟨e | ⟨⟩, out⟩
  · rfl
  · exact hr.settle site site' out

theorem Command.compile_of_isSteady (hr : r.IsSteady) (c : Command) (site site' : Site) :
    c.compile r site = c.compile r site' := by
  cases c with
  | immediate c => rfl
  | delayed b => exact CodeBuffer.compile_of_isSteady hr b site site'

end Steady

namespace ScriptStep

/-- A step that writes the same on every run. It makes no value, which would be another source each
time, and its text mentions no placeholder, which would stand for another source each time. -/
def IsSteady : ScriptStep → Prop
  | text token => '@' ∉ token.toList
  | fresh _ => False
  | _ => True

/-- What a step says, given what the code says that it asks for. -/
def said (r : CodeRunner) (codes : CodeId → Option Content) : ScriptStep → Option Content
  | text token => some (Scanner.marks token)
  | source s => some [.placeholder (some s.id)]
  | fresh _ => none
  | code id => codes id
  | command c => Outcome.embedded? (c.compile r [])
  | compiled s parameters => known? (contentOf parameters s)
  | refuse _ => none

end ScriptStep

namespace Library

def IsSteady (l : Library) : Prop := ∀ script ∈ l.scripts, ∀ step ∈ script, step.IsSteady

/-- What the code of a library says if scripts may ask for others so deep. -/
def codes (l : Library) : (depth : Nat) → CodeId → Option Content
  | 0, _ => none
  | depth + 1, id =>
    joinAll? ((l.script id).map (ScriptStep.said (l.runnerOfDepth depth) (l.codes depth)))

def filling (l : Library) (depth : Nat) : Filling
  | .text _ => none
  | .code id => l.codes depth id
  | .embedded segments parameters =>
    Outcome.embedded? (CodeBuffer.compile ⟨segments, parameters⟩ (l.runnerOfDepth depth) [])

variable {l : Library}

theorem IsSteady.step (h : l.IsSteady) {id : CodeId} {step : ScriptStep}
    (hstep : step ∈ l.script id) : step.IsSteady := by
  rw [script] at hstep
  cases hget : l.scripts[id.index]? with
  | none =>
    rw [hget] at hstep
    cases hstep
  | some s =>
    rw [hget] at hstep
    exact h s (List.mem_of_getElem? hget) step hstep

/-- Commands that are asked again write nothing else. -/
theorem isSteady_ofCommands (cs : List Command) : (ofCommands cs).IsSteady := by
  intro script hscript step hstep
  obtain ⟨c, -, rfl⟩ := List.mem_map.mp hscript
  rw [List.mem_singleton.mp hstep]
  trivial

theorem writeFrom_of_isSteady {r : CodeRunner} (hr : r.IsSteady) {steps : Script}
    (hsteps : ∀ step ∈ steps, step.IsSteady) (site site' : Site) (n n' : Nat) (b : CodeBuffer) :
    steps.writeFrom r site n b = steps.writeFrom r site' n' b := by
  induction steps generalizing n n' b with
  | nil => rfl
  | cons step steps ih =>
    have hstep : step.write r (n :: site) b = step.write r (n' :: site') b := by
      cases step with
      | fresh v => exact (hsteps _ List.mem_cons_self).elim
      | command c =>
        rw [ScriptStep.write, ScriptStep.write, Command.writeTo, Command.writeTo,
          Command.compile_of_isSteady hr c (n :: site) (n' :: site')]
      | _ => rfl
    rw [Script.writeFrom, Script.writeFrom, hstep]
    rcases step.write r (n' :: site') b with ⟨e | ⟨⟩, b'⟩
    · rfl
    · exact ih (fun x hx => hsteps x (List.mem_cons_of_mem _ hx)) (n + 1) (n' + 1) b'

theorem IsSteady.runnerOfDepth (h : l.IsSteady) (depth : Nat) :
    (l.runnerOfDepth depth).IsSteady := by
  induction depth with
  | zero => exact ⟨fun _ _ _ _ => rfl, fun _ _ _ => rfl⟩
  | succ depth ih =>
    constructor
    · intro id site site' b
      exact writeFrom_of_isSteady ih (fun step hstep => h.step hstep) site site' 0 0 b
    · intro site site' b
      exact CodeBuffer.compile_of_isSteady ih b site site'

section Writing

variable {depth : Nat} {base : List Parameter} {u : Option Content} {out : CodeBuffer}

theorem IsSteady.says_write (h : l.IsSteady) {step : ScriptStep} (hstep : step.IsSteady)
    (site : Site) (hout : out.Says (l.filling depth) base u) :
    (step.write (l.runnerOfDepth depth) site out).Says (l.filling depth) base
      (join? u (step.said (l.runnerOfDepth depth) (l.codes depth))) := by
  cases step with
  | text token => exact .ok (hout.appendText hstep)
  | source s => exact .ok (hout.appendSource s)
  | fresh v => exact hstep.elim
  | code id => exact .ok (hout.appendOpen (s := .code id) rfl)
  | command c =>
    rw [ScriptStep.said, Command.compile_of_isSteady (h.runnerOfDepth depth) c [] site]
    exact hout.writeTo c site
  | compiled s parameters => exact hout.appendCompiled s parameters
  | refuse what =>
    rw [ScriptStep.said, join?_none]
    exact .error

theorem IsSteady.says_writeFrom (h : l.IsSteady) {steps : Script}
    (hsteps : ∀ step ∈ steps, step.IsSteady) (site : Site) (n : Nat)
    (hout : out.Says (l.filling depth) base u) :
    (steps.writeFrom (l.runnerOfDepth depth) site n out).Says (l.filling depth) base
      (join? u (joinAll? (steps.map
        (ScriptStep.said (l.runnerOfDepth depth) (l.codes depth))))) := by
  induction steps generalizing n out u with
  | nil => exact .ok ((join?_nil u).symm ▸ hout)
  | cons step steps ih =>
    have hfirst := h.says_write (hsteps step List.mem_cons_self) (n :: site) hout
    rw [Script.writeFrom, List.map_cons, joinAll?_cons, ← join?_assoc]
    obtain ⟨next, hwrite, hnext⟩ | ⟨e, next, hwrite, hnone⟩ := hfirst.cases
    · rw [hwrite]
      exact ih (fun x hx => hsteps x (List.mem_cons_of_mem _ hx)) (n + 1) hnext
    · rw [hwrite, hnone]
      exact .error

end Writing

/-- Steady code obeys its filling. What it leaves open is filled in one level deeper. -/
theorem IsSteady.obeys (h : l.IsSteady) (depth : Nat) :
    ∃ left, (l.runnerOfDepth depth).Obeys (l.filling depth) left := by
  have hembedded : ∀ depth segments parameters site,
      l.filling depth (.embedded segments parameters) = Outcome.embedded?
        (CodeBuffer.compile ⟨segments, parameters⟩ (l.runnerOfDepth depth) site) := by
    intro depth segments parameters site
    rw [filling, CodeBuffer.compile_of_isSteady (h.runnerOfDepth depth) _ [] site]
  induction depth with
  | zero =>
    refine ⟨fun _ => none, ?_, ?_, hembedded 0⟩
    · intro id site base out u hout
      rw [filling, codes, join?_none]
      exact .error
    · intro site base b u hb hdelayed
      obtain ⟨s, hs, hopen⟩ := List.any_eq_true.mp hdelayed
      have hnone : u = none := by
        rw [hb.saying]
        apply joinAll?_eq_none
        exact List.mem_map.mpr ⟨s, hs, Segment.said_of_isOpen hopen⟩
      rw [hnone]
      exact .error
  | succ depth ih =>
    obtain ⟨left, hleft⟩ := ih
    refine ⟨l.filling depth, ?_, ?_, hembedded (depth + 1)⟩
    · intro id site base out u hout
      exact h.says_writeFrom (fun step hstep => h.step hstep) site 0 hout
    · intro site base b u hb _
      exact hb.compile hleft site

end Library

end DeclarativeSql
