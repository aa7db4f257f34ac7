import DeclarativeSql.Code.Script
import DeclarativeSql.Proofs.Parameters.Writing

/-!
# Replaying commands

The current text of a command with open parts is written anew, behind the parameters that the
command has already. Its fixed texts name all of these, so the text is complete again.
-/
namespace DeclarativeSql

open Parameter

namespace CodeBuffer

/-- No part is open. -/
structure IsSettled (start : List Parameter) (b : CodeBuffer) : Prop where
  sound : b.IsSound 0 start
  closed : b.isDelayed = false

/-- Text is added to `b`, and all that is in it stays. -/
structure GoesOn (start : List Parameter) (b b' : CodeBuffer) : Prop where
  settled : b'.IsSettled start
  numbers : Segment.numbersOf b.segments ⊆ Segment.numbersOf b'.segments

variable {start : List Parameter} {b b' b'' : CodeBuffer}

theorem GoesOn.trans (h : GoesOn start b b') (h' : GoesOn start b' b'') : GoesOn start b b'' :=
  ⟨h'.settled, fun _ hn => h'.numbers (h.numbers hn)⟩

theorem IsSettled.appendCompiled (h : b.IsSettled start) (hstart : AreNumbered start)
    {c : Compiled} (hc : c.IsComplete) :
    ∃ b', b.appendCompiled c.body c.parameters = (.ok (), b') ∧ GoesOn start b b' := by
  obtain ⟨b', hb', hsound, hdelayed, hnumbers⟩ := h.sound.appendCompiled hstart hc
  exact ⟨b', hb', ⟨hsound, hdelayed.trans h.closed⟩, hnumbers⟩

/-- Text that names parameters of the beginning only is written as it is. -/
theorem IsSettled.append (h : b.IsSettled start) {token : String} {gs : List Glyph}
    (htoken : Spells gs token) (hknown : ∀ n ∈ numbersIn token, n < start.length) :
    GoesOn start b (b.append token) ∧
      numbersIn token ⊆ Segment.numbersOf (b.append token).segments := by
  have hnumbered := h.sound.numbered.known fun n hn =>
    (hknown n hn).trans_le h.sound.numbered.length_le
  obtain ⟨hsound, hdelayed, hnumbers⟩ := h.sound.append htoken hnumbered
  refine ⟨⟨⟨hsound, hdelayed.trans h.closed⟩, ?_⟩, ?_⟩
  · exact hnumbers ▸ List.subset_append_left _ _
  · exact hnumbers ▸ List.subset_append_right _ _

theorem isSettled_start (ps : List Parameter) : IsSettled ps ⟨[], ps⟩ :=
  ⟨⟨by simp, fun _ => Nat.zero_le _, .start⟩, rfl⟩

end CodeBuffer

open CodeBuffer

/-- Open parts that refer to the first `n` commands are filled. -/
structure CodeRunner.Fills (r : CodeRunner) (n : Nat) : Prop where
  run : ∀ {id : CodeId} (site : Site) {start : List Parameter} {b : CodeBuffer}, id.index < n →
    AreNumbered start → b.IsSettled start → ∃ b', r.run id site b = (.ok (), b') ∧ GoesOn start b b'

namespace Segment

/-- The segment is written behind any beginning that has the parameters it names. -/
def Replays (r : CodeRunner) (s : Segment) : Prop :=
  ∀ (site : Site) {start : List Parameter} {b : CodeBuffer}, AreNumbered start →
    b.IsSettled start → (∀ n ∈ s.numbers, n < start.length) →
      ∃ b', s.replay r site b = (.ok (), b') ∧ GoesOn start b b' ∧
        s.numbers ⊆ numbersOf b'.segments

variable {r : CodeRunner} {segments : List Segment}

theorem replayAll_of_replays (hall : ∀ s ∈ segments, s.Replays r) (site : Site) (k : Nat)
    {start : List Parameter} {b : CodeBuffer} (hstart : AreNumbered start)
    (hb : b.IsSettled start) (hknown : ∀ n ∈ numbersOf segments, n < start.length) :
    ∃ b', replayAll r site segments k b = (.ok (), b') ∧ GoesOn start b b' ∧
      numbersOf segments ⊆ numbersOf b'.segments := by
  induction segments generalizing k b with
  | nil => exact ⟨b, rfl, ⟨hb, List.Subset.refl _⟩, List.nil_subset _⟩
  | cons s segments ih =>
    obtain ⟨b', hb', hgoes, hnumbers⟩ := hall s List.mem_cons_self (k :: site) hstart hb
      fun n hn => hknown n (List.mem_append_left _ hn)
    obtain ⟨b'', hb'', hgoes', hnumbers'⟩ :=
      ih (fun x hx => hall x (List.mem_cons_of_mem _ hx)) (k + 1) hgoes.settled
        fun n hn => hknown n (List.mem_append_right _ hn)
    refine ⟨b'', ?_, hgoes.trans hgoes', ?_⟩
    · rw [replayAll, hb']
      exact hb''
    · exact List.append_subset.mpr ⟨fun n hn => hgoes'.numbers (hnumbers hn), hnumbers'⟩

/-- Segments that name all parameters in front of them make a complete text. -/
theorem settle_of_replays (hall : ∀ s ∈ segments, s.Replays r) (site : Site)
    {ps : List Parameter} (hnumbers : Numbered [] (numbersOf segments) ps) :
    ∃ b c, replayAll r site segments 1 ⟨[], ps⟩ = (.ok (), b) ∧ r.settle site b = .ok c ∧
      c.IsComplete := by
  have hps := hnumbers.areNumbered .nil
  obtain ⟨b, hb, hgoes, hall⟩ := replayAll_of_replays hall site 1 hps
    (isSettled_start ps) hnumbers.lt_length
  refine ⟨b, _, hb, if_neg (by simp [hgoes.settled.closed]), ?_⟩
  refine (hgoes.settled.sound.isComplete hps hgoes.settled.closed fun n hn => hall ?_).1
  exact (hnumbers.named hn).resolve_left (Nat.not_lt_zero n)

theorem IsSound.replays {n : Nat} {s : Segment} (h : s.IsSound n) (hr : r.Fills n) :
    s.Replays r := by
  induction h with
  | text hs =>
    intro site start b _ hb hknown
    obtain ⟨hgoes, hnumbers⟩ := hb.append hs hknown
    exact ⟨_, rfl, hgoes, hnumbers⟩
  | code hid =>
    intro site start b hstart hb _
    obtain ⟨b', hb', hgoes⟩ := hr.run site hid hstart hb
    exact ⟨b', hb', hgoes, List.nil_subset _⟩
  | embedded _ hnumbers ih =>
    intro site start b hstart hb _
    obtain ⟨inner, c, hinner, hsettle, hc⟩ := settle_of_replays ih site hnumbers
    obtain ⟨b', hb', hgoes⟩ := hb.appendCompiled hstart hc
    refine ⟨b', ?_, hgoes, List.nil_subset _⟩
    rw [replay, hinner]
    simp only [hsettle]
    exact hb'

end Segment

/-- A sound command has a current text, and this is complete. -/
theorem Command.IsSound.compile {n : Nat} {c : Command} (h : c.IsSound n) {r : CodeRunner}
    (hr : r.Fills n) (site : Site) : ∃ d, c.compile r site = .ok d ∧ d.IsComplete := by
  cases h with
  | immediate hc => exact ⟨_, rfl, hc⟩
  | delayed hb =>
    obtain ⟨inner, d, hinner, hsettle, hd⟩ :=
      Segment.settle_of_replays (fun s hs => (hb.segments s hs).replays hr) site hb.numbered
    refine ⟨d, ?_, hd⟩
    rw [Command.compile, CodeBuffer.compile, hinner]
    exact hsettle

namespace Library

/-- The only code there is writes the current text of a command. -/
def ofCommands (cs : List Command) : Library := ⟨cs.map fun c => [.command c]⟩

theorem length_ofCommands (cs : List Command) : (ofCommands cs).scripts.length = cs.length :=
  List.length_map _

theorem script_ofCommands (cs : List Command) (id : CodeId) :
    (ofCommands cs).script id = ((cs[id.index]?).map ScriptStep.command).toList := by
  rw [script, ofCommands, List.getElem?_map]
  cases cs[id.index]? <;> rfl

/-- A command that refers to earlier ones only finds all of them. -/
theorem fills_runnerOfDepth {cs : List Command}
    (hcs : ∀ (i : Nat) (c : Command), cs[i]? = some c → c.IsSound i) {depth n : Nat}
    (hdepth : n ≤ depth) (hn : n ≤ cs.length) : ((ofCommands cs).runnerOfDepth depth).Fills n := by
  induction depth generalizing n with
  | zero =>
    exact ⟨fun _ _ _ hid => absurd (hid.trans_le hdepth) (Nat.not_lt_zero _)⟩
  | succ depth ih =>
    refine ⟨fun {id} site {start b} hid hstart hb => ?_⟩
    have hlt : id.index < cs.length := hid.trans_le hn
    have hscript : (ofCommands cs).script id = [.command cs[id.index]] := by
      simp [script_ofCommands, hlt]
    have hbelow := ih (Nat.le_of_lt_succ (hid.trans_le hdepth)) hlt.le
    obtain ⟨d, hd, hcomplete⟩ :=
      (hcs _ _ (List.getElem?_eq_getElem hlt)).compile hbelow (0 :: site)
    obtain ⟨b', hb', hgoes⟩ := hb.appendCompiled hstart hcomplete
    refine ⟨b', ?_, hgoes⟩
    simp only [runnerOfDepth, hscript, Script.writeFrom, ScriptStep.write, Command.writeTo, hd, hb']

end Library

end DeclarativeSql
