import DeclarativeSql.Code.Parameter
import DeclarativeSql.Text.CharClass
import Mathlib.Data.List.DropRight
import Mathlib.Data.List.SplitBy

/-!
# Scanner

How the server takes a text apart. A word is a run of letters, digits and underscores. An operator
is a run of operator characters, cut back where it must not end in a sign. Two minus signs open a
comment, up to the end of the line. A placeholder is read as what it stands for.
-/
namespace DeclarativeSql

/-- A character of a text, or a placeholder with the source that it stands for, if any. -/
inductive Mark
  | char (c : Char)
  | placeholder (source : Option SourceId)
  deriving DecidableEq

inductive Lexeme
  | word (letters : List Char)
  | placeholder (source : Option SourceId)
  | operator (symbols : List Char)
  /-- Any other character. -/
  | symbol (c : Char)
  deriving DecidableEq

namespace Scanner

def isWord (c : Char) : Bool := c.isAlphanum || c == '_'

def isOperator (c : Char) : Bool := "+-*/<>=~!@#%^&|`?".toList.contains c

def isSign (c : Char) : Bool := c == '+' || c == '-'

/-- An operator of several characters may end in a sign if it has one of these. -/
def allowsSign (c : Char) : Bool := "~!@#%^&|`?".toList.contains c

/-- The operator that a run of operator characters begins with. -/
def cutBack (run : List Char) : List Char :=
  if run.any allowsSign then run
  else
    match run.rdropWhile isSign with
    | [] => run.take 1
    | op => op

/-- All operators of a run. What is cut off are signs, and each of these is one by itself. -/
def operators : (run : List Char) → List (List Char)
  | [] => []
  | run => cutBack run :: (run.drop (cutBack run).length).map ([·])

/-- What is in front of a comment, and whether there is one. -/
def splitComment : List Char → List Char × Bool
  | '-' :: '-' :: _ => ([], true)
  | c :: rest =>
    let (before, opens) := splitComment rest
    (c :: before, opens)
  | [] => ([], false)

end Scanner

namespace Mark

open Scanner

def char? : Mark → Option Char
  | char c => some c
  | placeholder _ => none

def isOperator : Mark → Bool
  | char c => Scanner.isOperator c
  | placeholder _ => false

/-- The two are in one run. -/
def runsOn : Mark → Mark → Bool
  | char c, char d => isWord c && isWord d || Scanner.isOperator c && Scanner.isOperator d
  | _, _ => false

end Mark

namespace Scanner

/-- The lexemes of a run, and whether a comment follows. -/
def scanRun (run : List Mark) : List Lexeme × Bool :=
  match run with
  | .placeholder s :: _ => ([.placeholder s], false)
  | .char c :: _ =>
    let letters := run.filterMap Mark.char?
    if isWord c then ([.word letters], false)
    else if isOperator c then
      let (before, opens) := splitComment letters
      ((operators before).map .operator, opens)
    else if CharClass.isBlank c then ([], false)
    else ([.symbol c], false)
  | [] => ([], false)

def scanRuns : (inComment : Bool) → List (List Mark) → List Lexeme
  | _, [] => []
  | true, run :: rest => scanRuns (run ≠ [.char '\n']) rest
  | false, run :: rest => (scanRun run).1 ++ scanRuns (scanRun run).2 rest

/-- The lexemes of a text. -/
def scan (text : List Mark) : List Lexeme := scanRuns false (text.splitBy Mark.runsOn)

def marks (text : String) : List Mark := text.toList.map .char

example : scan (marks "a<=-b") =
    [.word ['a'], .operator ['<', '='], .operator ['-'], .word ['b']] := by decide

theorem isOperator_of_isWord {c : Char} (h : isWord c = true) : isOperator c = false := by
  have hall : "+-*/<>=~!@#%^&|`?".toList.all (!isWord ·) = true := by decide
  by_contra hop
  have hnot := List.all_eq_true.mp hall c (List.contains_iff_mem.mp (Bool.not_eq_false _ ▸ hop))
  rw [h] at hnot
  exact absurd hnot (by decide)

/-- No two minus signs follow each other. -/
def NoComment (text : List Mark) : Prop :=
  text.IsChain fun x y => ¬ (x = .char '-' ∧ y = .char '-')

instance (text : List Mark) : Decidable (NoComment text) :=
  inferInstanceAs (Decidable (text.IsChain _))

theorem splitComment_eq {letters : List Char} (h : NoComment (letters.map .char)) :
    splitComment letters = (letters, false) := by
  induction letters with
  | nil => rfl
  | cons c rest ih =>
    have hrest := ih (List.IsChain.tail h)
    unfold splitComment
    split
    next d rest' heq =>
      cases heq
      exact absurd ⟨rfl, rfl⟩ (List.isChain_cons_cons.mp h).1
    next heq =>
      cases heq
      rw [hrest]
    next heq => cases heq

theorem map_char_filterMap {run : List Mark} (h : run.IsChain fun x y => x.runsOn y)
    {c : Char} (hc : run.head? = some (.char c)) :
    (run.filterMap Mark.char?).map .char = run := by
  induction run generalizing c with
  | nil => rfl
  | cons x rest ih =>
    cases hc
    cases rest with
    | nil => rfl
    | cons y rest =>
      obtain ⟨hxy, hrest⟩ := List.isChain_cons_cons.mp h
      cases y with
      | placeholder s => cases hxy
      | char d => exact congrArg (Mark.char c :: ·) (ih hrest rfl)

theorem snd_scanRun {run : List Mark} (h : run.IsChain fun x y => x.runsOn y)
    (hcomment : NoComment run) : (scanRun run).2 = false := by
  cases run with
  | nil => rfl
  | cons x rest =>
    cases x with
    | placeholder s => rfl
    | char c =>
      rw [← map_char_filterMap h rfl] at hcomment
      simp only [scanRun]
      split
      · rfl
      · split
        · rw [splitComment_eq hcomment]
        · split <;> rfl

theorem scanRuns_append {xs ys : List (List Mark)} (h : ∀ run ∈ xs, (scanRun run).2 = false) :
    scanRuns false (xs ++ ys) = scanRuns false xs ++ scanRuns false ys := by
  induction xs with
  | nil => rfl
  | cons run xs ih =>
    rw [List.cons_append, scanRuns, scanRuns, h run List.mem_cons_self,
      ih fun r hr => h r (List.mem_cons_of_mem _ hr), List.append_assoc]

theorem noComment_of_mem_splitBy {text run : List Mark} (h : NoComment text)
    (hrun : run ∈ text.splitBy Mark.runsOn) : NoComment run := by
  rw [← List.flatten_splitBy Mark.runsOn text] at h
  obtain ⟨xs, ys, hsplit⟩ := List.append_of_mem hrun
  rw [hsplit, List.flatten_append, List.flatten_cons] at h
  exact (List.IsChain.right_of_append h).left_of_append

/-- Two texts are scanned one after the other, if no run goes from the first to the second. -/
theorem scan_append {u v : List Mark} (hu : NoComment u)
    (hapart : ∀ x ∈ u.getLast?, ∀ y ∈ v.head?, x.runsOn y = false) :
    scan (u ++ v) = scan u ++ scan v := by
  rw [scan, List.splitBy_append hapart, scanRuns_append]
  · rfl
  · exact fun run hrun =>
      snd_scanRun (List.isChain_of_mem_splitBy hrun) (noComment_of_mem_splitBy hu hrun)

theorem scan_space_append {u v : List Mark} (hu : NoComment u) :
    scan (u ++ .char ' ' :: v) = scan u ++ scan v := by
  have hright : ∀ x : Mark, x.runsOn (.char ' ') = false := by
    intro x
    cases x with
    | placeholder s => rfl
    | char c => simp [Mark.runsOn, show isWord ' ' = false by decide,
        show isOperator ' ' = false by decide]
  have hleft : ∀ y : Mark, (Mark.char ' ').runsOn y = false := by
    intro y
    cases y with
    | placeholder s => rfl
    | char c => simp [Mark.runsOn, show isWord ' ' = false by decide,
        show isOperator ' ' = false by decide]
  have hspace : NoComment [.char ' '] := .singleton _
  rw [scan_append hu (by simpa using fun x _ => hright x), ← List.singleton_append,
    scan_append hspace (by simpa using fun y _ => hleft y)]
  rfl

end Scanner

end DeclarativeSql
