import DeclarativeSql.Code.Execution
import DeclarativeSql.Proofs.Parameters.Replay

/-!
# Commands with other values

The values in a command may be exchanged for others, each identity keeping a value of its own.
Nothing that is done to buffers and commands looks at a value: it is the same for the exchanged
values, up to this exchange.
-/
namespace DeclarativeSql

/-- What takes the place of a value, by its identity. -/
abbrev Exchange := ValueId → Value → Value

variable (σ : Exchange)

def ParameterSource.exchange : ParameterSource → ParameterSource
  | value id v => value id (σ id v)
  | argument a => argument a

def Parameter.exchange (p : Parameter) : Parameter := ⟨p.name, p.source.exchange σ⟩

mutual

def Segment.exchange : Segment → Segment
  | .text s => .text s
  | .code id => .code id
  | .embedded segments parameters =>
    .embedded (Segment.exchangeAll segments) (parameters.map (Parameter.exchange σ))

def Segment.exchangeAll : List Segment → List Segment
  | [] => []
  | s :: rest => s.exchange :: Segment.exchangeAll rest

end

def CodeBuffer.exchange (b : CodeBuffer) : CodeBuffer :=
  ⟨Segment.exchangeAll σ b.segments, b.parameters.map (Parameter.exchange σ)⟩

/-- A failure is the same with other values. -/
def Written.exchange (w : Written) : Written := (w.1, w.2.exchange σ)

def Compiled.exchange (c : Compiled) : Compiled := ⟨c.text, c.parameters.map (Parameter.exchange σ)⟩

def Command.exchange : Command → Command
  | immediate c => immediate (c.exchange σ)
  | delayed b => delayed (b.exchange σ)

variable {σ}

@[simp]
theorem ParameterSource.id_exchange (s : ParameterSource) : (s.exchange σ).id = s.id := by
  cases s <;> rfl

namespace Parameter

theorem named?_exchange (ps : List Parameter) (name : String) :
    named? (ps.map (exchange σ)) name = (named? ps name).map (exchange σ) := by
  rw [named?, List.find?_map]
  rfl

theorem standingFor?_exchange (ps : List Parameter) (id : SourceId) :
    standingFor? (ps.map (exchange σ)) id = (standingFor? ps id).map (exchange σ) := by
  have hsame : (fun p : Parameter => p.source.id == id) ∘ exchange σ =
      fun p => p.source.id == id := by
    funext p
    simp [exchange]
  rw [standingFor?, List.find?_map, hsame]
  rfl

theorem register_exchange (ps : List Parameter) (source : ParameterSource) :
    register (ps.map (exchange σ)) (source.exchange σ) =
      ((register ps source).1, (register ps source).2.map (exchange σ)) := by
  rw [register, register, ParameterSource.id_exchange, standingFor?_exchange]
  cases standingFor? ps source.id with
  | some p => rfl
  | none => simp [exchange]

end Parameter

namespace Segment

theorem exchangeAll_eq_map (segments : List Segment) :
    exchangeAll σ segments = segments.map (exchange σ) := by
  induction segments with
  | nil => rfl
  | cons s rest ih => rw [exchangeAll, ih, List.map_cons]

theorem isOpen_exchange (s : Segment) : (s.exchange σ).isOpen = s.isOpen := by
  cases s <;> rfl

theorem fixedText_exchange (s : Segment) : (s.exchange σ).fixedText = s.fixedText := by
  cases s <;> rfl

theorem appendToken_exchange (token : String) (segments : List Segment) :
    appendToken token (exchangeAll σ segments) = exchangeAll σ (appendToken token segments) := by
  induction segments with
  | nil => rfl
  | cons s rest ih =>
    cases s with
    | text t =>
      cases rest with
      | nil => rfl
      | cons u rest => exact congrArg (text t :: ·) ih
    | code id => exact congrArg (code id :: ·) ih
    | embedded segments ps => exact congrArg (exchange σ (embedded segments ps) :: ·) ih

end Segment

namespace CodeBuffer

variable (b : CodeBuffer)

theorem isDelayed_exchange : (b.exchange σ).isDelayed = b.isDelayed := by
  simp only [isDelayed, exchange, Segment.exchangeAll_eq_map, List.any_map]
  exact congrArg b.segments.any (funext Segment.isOpen_exchange)

theorem fixedText_exchange : (b.exchange σ).fixedText = b.fixedText := by
  simp only [fixedText, exchange, Segment.exchangeAll_eq_map, List.map_map]
  exact congrArg (fun f => String.join (b.segments.map f)) (funext Segment.fixedText_exchange)

theorem append_exchange (token : String) :
    (b.exchange σ).append token = (b.append token).exchange σ := by
  unfold append
  split
  · rfl
  · simp only [exchange, Segment.appendToken_exchange]

theorem appendOpen_exchange (s : Segment) :
    (b.exchange σ).appendOpen (s.exchange σ) = (b.appendOpen s).exchange σ := by
  simp [appendOpen, exchange, Segment.exchangeAll_eq_map]

theorem register_exchange (source : ParameterSource) :
    (b.exchange σ).register (source.exchange σ) =
      ((b.register source).1, (b.register source).2.exchange σ) := by
  simp only [register, exchange, Parameter.register_exchange]

theorem appendSource_exchange (source : ParameterSource) :
    (b.exchange σ).appendSource (source.exchange σ) = (b.appendSource source).exchange σ := by
  simp only [appendSource, register_exchange, append_exchange]

theorem rename_exchange (given : List Parameter) (parts : List TextPart) :
    (b.exchange σ).rename (given.map (Parameter.exchange σ)) parts =
      ((b.rename given parts).1, (b.rename given parts).2.exchange σ) := by
  induction parts generalizing b with
  | nil => rfl
  | cons part rest ih =>
    cases part with
    | plain c =>
      rw [rename, rename, ih]
      rcases b.rename given rest with ⟨e | text, b'⟩ <;> rfl
    | placeholder digits =>
      simp only [rename, Parameter.named?_exchange]
      cases Parameter.named? given (String.ofList (TextPart.placeholder digits).chars) with
      | none => rfl
      | some p =>
        simp only [Option.map_some, Parameter.exchange, register_exchange, ih]
        rcases (b.register p.source).2.rename given rest with ⟨e | text, b'⟩ <;> rfl

theorem appendCompiled_exchange (text : String) (given : List Parameter) :
    (b.exchange σ).appendCompiled text (given.map (Parameter.exchange σ)) =
      Written.exchange σ (b.appendCompiled text given) := by
  rw [appendCompiled, appendCompiled, rename_exchange]
  rcases b.rename given (TextPart.split text.toList) with ⟨e | text, b'⟩
  · rfl
  · simp only [append_exchange]
    rfl

end CodeBuffer

/-- Two ways to fill open parts, the second with other values. -/
structure CodeRunner.Corresponds (σ : Exchange) (r r' : CodeRunner) : Prop where
  run : ∀ id site b, r'.run id site (b.exchange σ) = Written.exchange σ (r.run id site b)
  again : ∀ site b, r'.again site (b.exchange σ) = (r.again site b).map (Compiled.exchange σ)

section Replay

variable {r r' : CodeRunner}

theorem CodeRunner.Corresponds.settle (h : r.Corresponds σ r') (site : Site) (b : CodeBuffer) :
    r'.settle site (b.exchange σ) = (r.settle site b).map (Compiled.exchange σ) := by
  rw [CodeRunner.settle, CodeRunner.settle, CodeBuffer.isDelayed_exchange, h.again,
    CodeBuffer.fixedText_exchange]
  split <;> rfl

mutual

theorem Segment.replay_exchange (h : r.Corresponds σ r') (site : Site) :
    (s : Segment) → (b : CodeBuffer) →
    (s.exchange σ).replay r' site (b.exchange σ) = Written.exchange σ (s.replay r site b)
  | .text s, b => by
    rw [exchange, replay, replay, CodeBuffer.append_exchange]
    rfl
  | .code id, b => h.run id site b
  | .embedded segments parameters, b => by
    have hinner := Segment.replayAll_exchange h site segments 1 ⟨[], parameters⟩
    rw [CodeBuffer.exchange, exchangeAll] at hinner
    rw [exchange, replay, replay, hinner]
    rcases replayAll r site segments 1 ⟨[], parameters⟩ with ⟨e | ⟨⟩, inner⟩
    · rfl
    · simp only [Written.exchange, h.settle]
      rcases r.settle site inner with e | c
      · rfl
      · exact CodeBuffer.appendCompiled_exchange b c.body c.parameters

theorem Segment.replayAll_exchange (h : r.Corresponds σ r') (site : Site) :
    (segments : List Segment) → (n : Nat) → (b : CodeBuffer) →
      replayAll r' site (exchangeAll σ segments) n (b.exchange σ) =
        Written.exchange σ (replayAll r site segments n b)
  | [], n, b => rfl
  | s :: rest, n, b => by
    rw [exchangeAll, replayAll, replayAll, Segment.replay_exchange h (n :: site) s b]
    rcases s.replay r (n :: site) b with ⟨e | ⟨⟩, b'⟩
    · rfl
    · exact Segment.replayAll_exchange h site rest (n + 1) b'

end

theorem CodeBuffer.compile_exchange (h : r.Corresponds σ r') (b : CodeBuffer) (site : Site) :
    (b.exchange σ).compile r' site = (b.compile r site).map (Compiled.exchange σ) := by
  have hinner := Segment.replayAll_exchange h site b.segments 1 ⟨[], b.parameters⟩
  rw [CodeBuffer.exchange, Segment.exchangeAll] at hinner
  rw [compile, compile, exchange, hinner]
  rcases Segment.replayAll r site b.segments 1 ⟨[], b.parameters⟩ with ⟨e | ⟨⟩, inner⟩
  · rfl
  · exact h.settle site inner

theorem Command.compile_exchange (h : r.Corresponds σ r') (c : Command) (site : Site) :
    (c.exchange σ).compile r' site = (c.compile r site).map (Compiled.exchange σ) := by
  cases c with
  | immediate c => rfl
  | delayed b => exact CodeBuffer.compile_exchange h b site

theorem Command.writeTo_exchange (h : r.Corresponds σ r') (c : Command) (site : Site)
    (b : CodeBuffer) :
    (c.exchange σ).writeTo r' site (b.exchange σ) =
      Written.exchange σ (c.writeTo r site b) := by
  rw [writeTo, writeTo, Command.compile_exchange h]
  rcases c.compile r site with e | d
  · rfl
  · exact CodeBuffer.appendCompiled_exchange b d.body d.parameters

end Replay

theorem Command.isDelayed_exchange (c : Command) : (c.exchange σ).isDelayed = c.isDelayed := by
  cases c <;> rfl

theorem Command.ofBuffer_exchange (b : CodeBuffer) :
    ofBuffer (b.exchange σ) = (ofBuffer b).exchange σ := by
  unfold ofBuffer
  rw [CodeBuffer.isDelayed_exchange, CodeBuffer.fixedText_exchange]
  split <;> rfl

theorem Compiled.indexOf_exchange (c : Compiled) (a : Argument) :
    (c.exchange σ).indexOf a = c.indexOf a := by
  have hsame : (fun p : Parameter => p.source.id == .argument a.id) ∘ Parameter.exchange σ =
      fun p => p.source.id == .argument a.id := by
    funext p
    simp [Parameter.exchange]
  rw [indexOf, indexOf, exchange, List.findIdx?_map, hsame]

namespace Library

variable (cs : List Command)

/-- Commands with other values fill open parts with other values. -/
theorem runnerOfDepth_corresponds (depth : Nat) :
    ((ofCommands cs).runnerOfDepth depth).Corresponds σ
      ((ofCommands (cs.map (Command.exchange σ))).runnerOfDepth depth) := by
  induction depth with
  | zero => exact ⟨fun _ _ _ => rfl, fun _ _ => rfl⟩
  | succ depth ih =>
    refine ⟨fun id site b => ?_, fun site b => CodeBuffer.compile_exchange ih b site⟩
    simp only [runnerOfDepth, script_ofCommands, List.getElem?_map]
    cases cs[id.index]? with
    | none => rfl
    | some c =>
      simp only [Option.map_some, Option.toList_some, Script.writeFrom, ScriptStep.write,
        Command.writeTo_exchange ih]
      rcases c.writeTo ((ofCommands cs).runnerOfDepth depth) (0 :: site) b with ⟨e | ⟨⟩, b'⟩ <;> rfl

theorem runner_corresponds :
    (ofCommands cs).runner.Corresponds σ (ofCommands (cs.map (Command.exchange σ))).runner := by
  have hlength : (ofCommands (cs.map (Command.exchange σ))).scripts.length =
      (ofCommands cs).scripts.length := by
    rw [length_ofCommands, length_ofCommands, List.length_map]
  rw [runner, runner, hlength]
  exact runnerOfDepth_corresponds cs _

end Library

variable (σ) in
def Piece.exchange : Piece → Piece
  | text token => text token
  | source s => source (s.exchange σ)
  | command c => command (c.exchange σ)
  | code id => code id

namespace Piece

theorem unknownPlaceholder?_exchange (c : Compiled) :
    (c.exchange σ).unknownPlaceholder? = c.unknownPlaceholder? := by
  have hbody : (c.exchange σ).body = c.body := rfl
  rw [Compiled.unknownPlaceholder?, Compiled.unknownPlaceholder?, hbody]
  congr 1
  funext part
  cases part with
  | plain => rfl
  | placeholder digits =>
    simp only [Compiled.exchange, Parameter.named?_exchange, Option.isSome_map]

theorem ofCommand_exchange (c : Command) :
    ofCommand (c.exchange σ) = (ofCommand c).map (exchange σ) := by
  cases c with
  | delayed b => rfl
  | immediate c =>
    simp only [ofCommand, Command.exchange, unknownPlaceholder?_exchange]
    cases c.unknownPlaceholder? <;> rfl

theorem write_exchange (p : Piece) (b : CodeBuffer) :
    (p.exchange σ).write (b.exchange σ) = Written.exchange σ (p.write b) := by
  cases p with
  | text token => exact congrArg (Prod.mk (Except.ok ())) (b.append_exchange token)
  | source s => exact congrArg (Prod.mk (Except.ok ())) (b.appendSource_exchange s)
  | code id => exact congrArg (Prod.mk (Except.ok ())) (b.appendOpen_exchange (.code id))
  | command c =>
    cases c with
    | immediate c => exact b.appendCompiled_exchange c.body c.parameters
    | delayed c =>
      exact congrArg (Prod.mk (Except.ok ()))
        (b.appendOpen_exchange (.embedded c.segments c.parameters))

theorem writeAll_exchange (ps : List Piece) (b : CodeBuffer) :
    writeAll (ps.map (exchange σ)) (b.exchange σ) = Written.exchange σ (writeAll ps b) := by
  induction ps generalizing b with
  | nil => rfl
  | cons p ps ih =>
    rw [List.map_cons, writeAll, writeAll, write_exchange]
    rcases p.write b with ⟨e | ⟨⟩, b'⟩
    · rfl
    · exact ih b'

theorem buffer_exchange (ps : List Piece) :
    buffer (ps.map (exchange σ)) = (buffer ps).map (CodeBuffer.exchange σ) := by
  have hempty : CodeBuffer.empty = CodeBuffer.exchange σ .empty := rfl
  rw [buffer, hempty, writeAll_exchange, buffer]
  rcases writeAll ps .empty with ⟨e | ⟨⟩, b⟩ <;> rfl

end Piece

end DeclarativeSql
