import DeclarativeSql.Text.CharClass

/-!
# Source tokens

The source text of a record is split into words, literals and symbols. Blanks and comments separate
tokens and are no part of them; a literal takes along a suffix that follows it.
-/
namespace DeclarativeSql

inductive TokenKind
  | word
  | number
  /-- A text between double quotes, with its prefix and its suffix. -/
  | text
  /-- A character between single quotes. -/
  | character
  /-- A single quote and a word. -/
  | lifetime
  | symbol
  deriving DecidableEq

structure SourceToken where
  kind : TokenKind
  spelling : List Char
  deriving DecidableEq

namespace SourceToken

/-- What has been read of an unfinished token or comment; characters are kept in reverse. -/
inductive Mode
  | between
  | word (reversed : List Char)
  /-- A word that may turn out to be the prefix of a raw text, and the hashes after it. -/
  | hashes (reversed : List Char) (count : Nat)
  | number (reversed : List Char)
  /-- After a point or a sign that belongs to a number only if it goes on with the next one. -/
  | numberMark (reversed : List Char) (mark : Char)
  | text (reversed : List Char)
  | textEscape (reversed : List Char)
  | raw (reversed : List Char) (hashes : Nat)
  /-- After a quote in a raw text, with the number of hashes that are missing. -/
  | rawEnd (reversed : List Char) (hashes missing : Nat)
  | suffix (kind : TokenKind) (reversed : List Char)
  /-- After a single quote, which may have a prefix. -/
  | quote (reversed : List Char)
  /-- After a single quote and a letter. -/
  | letter (reversed : List Char)
  | lifetime (reversed : List Char)
  /-- Inside single quotes. -/
  | character (reversed : List Char)
  | characterEscape (reversed : List Char)
  | slash
  | line
  | block (depth : Nat) (last : Char)

def isBlank (c : Char) : Bool := CharClass.isBlank c || c == '\u200e' || c == '\u200f'

def ofReversed (kind : TokenKind) (reversed : List Char) : SourceToken := ⟨kind, reversed.reverse⟩

def symbol (c : Char) : SourceToken := ⟨.symbol, [c]⟩

/-- A character where no token is unfinished. -/
def start (c : Char) : List SourceToken × Mode :=
  if isBlank c then ([], .between)
  else if c.isDigit then ([], .number [c])
  else if CharClass.isIdentifierStart c then ([], .word [c])
  else match c with
    | '"' => ([], .text [c])
    | '\'' => ([], .quote [c])
    | '/' => ([], .slash)
    | _ => ([symbol c], .between)

/-- A character after some finished tokens. -/
def startAfter (tokens : List SourceToken) (c : Char) : List SourceToken × Mode :=
  let (more, mode) := start c
  (tokens ++ more, mode)

def isPrefix (reversed : List Char) : Bool :=
  reversed.reverse ∈ ["r".toList, "b".toList, "c".toList, "br".toList, "cr".toList]

/-- The prefix of a text in which a backslash means nothing. -/
def isRawPrefix (reversed : List Char) : Bool := reversed.head? == some 'r' && isPrefix reversed

def hashMarks (count : Nat) : List Char := List.replicate count '#'

/-- The number is decimal and has no exponent yet. -/
def isPlain (reversed : List Char) : Bool :=
  reversed.all fun c => c.isDigit || c == '_' || c == '.'

/-- A point begins a fraction, and a sign after an `e` an exponent. -/
def isMark (reversed : List Char) (c : Char) : Bool :=
  if c == '.' then isPlain reversed && !reversed.contains '.'
  else (c == '+' || c == '-') &&
    match reversed with
    | e :: rest => (e == 'e' || e == 'E') && isPlain rest
    | [] => false

/-- The mark belongs to the number that goes on with `next`. -/
def joins (mark next : Char) : Bool :=
  if mark == '.' then next != '.' && !CharClass.isIdentifierStart next
  else next.isDigit || next == '_'

def step (mode : Mode) (c : Char) : List SourceToken × Mode :=
  match mode with
  | .between => start c
  | .word r =>
    if c == '"' && isPrefix r then
      ([], if isRawPrefix r then .raw (c :: r) 0 else .text (c :: r))
    else if c == '\'' && r == ['b'] then ([], .quote (c :: r))
    else if c == '#' && isRawPrefix r then ([], .hashes r 1)
    else if CharClass.isIdentifier c then ([], .word (c :: r))
    else startAfter [ofReversed .word r] c
  | .hashes r n =>
    if c == '"' then ([], .raw (c :: (hashMarks n ++ r)) n)
    else if c == '#' then ([], .hashes r (n + 1))
    else if n == 1 && r == ['r'] && CharClass.isIdentifierStart c then ([], .word (c :: '#' :: r))
    else startAfter (ofReversed .word r :: (hashMarks n).map symbol) c
  | .number r =>
    if CharClass.isIdentifier c then ([], .number (c :: r))
    else if isMark r c then ([], .numberMark r c)
    else startAfter [ofReversed .number r] c
  | .numberMark r mark =>
    if !joins mark c then startAfter [ofReversed .number r, symbol mark] c
    else if CharClass.isIdentifier c then ([], .number (c :: mark :: r))
    else startAfter [ofReversed .number (mark :: r)] c
  | .text r =>
    if c == '"' then ([], .suffix .text (c :: r))
    else if c == '\\' then ([], .textEscape (c :: r))
    else ([], .text (c :: r))
  | .textEscape r => ([], .text (c :: r))
  | .raw r n =>
    if c != '"' then ([], .raw (c :: r) n)
    else if n == 0 then ([], .suffix .text (c :: r))
    else ([], .rawEnd (c :: r) n n)
  | .rawEnd r n missing =>
    if c == '#' then
      ([], if missing == 1 then .suffix .text (c :: r) else .rawEnd (c :: r) n (missing - 1))
    else ([], if c == '"' then .rawEnd (c :: r) n n else .raw (c :: r) n)
  | .suffix kind r =>
    let isInner := r.head?.any CharClass.isIdentifier && CharClass.isIdentifier c
    if isInner || CharClass.isIdentifierStart c then ([], .suffix kind (c :: r))
    else startAfter [ofReversed kind r] c
  | .quote r =>
    ([], if c == '\\' then .characterEscape (c :: r)
      else if r == ['\''] && CharClass.isIdentifierStart c then .letter (c :: r)
      else .character (c :: r))
  | .letter r =>
    if c == '\'' then ([], .suffix .character (c :: r))
    else if CharClass.isIdentifier c then ([], .lifetime (c :: r))
    else startAfter [ofReversed .lifetime r] c
  | .lifetime r =>
    if CharClass.isIdentifier c then ([], .lifetime (c :: r))
    else startAfter [ofReversed .lifetime r] c
  | .character r =>
    ([], if c == '\'' then .suffix .character (c :: r) else .character (c :: r))
  | .characterEscape r => ([], .character (c :: r))
  | .slash =>
    if c == '/' then ([], .line)
    else if c == '*' then ([], .block 1 ' ')
    else startAfter [symbol '/'] c
  | .line => ([], if c == '\n' then .between else .line)
  | .block depth last =>
    if last == '*' && c == '/' then ([], if depth ≤ 1 then .between else .block (depth - 1) ' ')
    else if last == '/' && c == '*' then ([], .block (depth + 1) ' ')
    else ([], .block depth c)

/-- The token that the end of the source leaves unfinished. -/
def finish : Mode → List SourceToken
  | .word r => [ofReversed .word r]
  | .hashes r n => ofReversed .word r :: (hashMarks n).map symbol
  | .number r => [ofReversed .number r]
  | .numberMark r '.' => [ofReversed .number ('.' :: r)]
  | .numberMark r mark => [ofReversed .number r, symbol mark]
  | .suffix kind r => [ofReversed kind r]
  | .letter r | .lifetime r => [ofReversed .lifetime r]
  | .slash => [symbol '/']
  | _ => []

def splitFrom (mode : Mode) : List Char → List SourceToken
  | [] => finish mode
  | c :: rest =>
    let (tokens, mode) := step mode c
    tokens ++ splitFrom mode rest

/-- The tokens of a source text. -/
def split (source : String) : List SourceToken := splitFrom .between source.toList

end SourceToken

end DeclarativeSql
