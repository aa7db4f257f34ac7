import DeclarativeSql.Text.IdentifierTable

/-!
# Character classes

Blank, alphabetic and uppercase characters and the characters of identifiers, in the sense of
Unicode. For ASCII they are the classes of the core library.
-/
namespace DeclarativeSql.CharClass

def inRanges (table : List CharTable.Range) (n : Nat) : Bool :=
  table.any fun (first, last) => first ≤ n && n ≤ last

def inRuns (table : List CharTable.Run) (n : Nat) : Bool :=
  table.any fun r => r.first ≤ n && n ≤ r.last && (n - r.first) % r.step == 0

/-- The line and page breaks from tab to carriage return, the space, and the blanks beyond ASCII. -/
def isBlank (c : Char) : Bool :=
  if c.toNat < 128 then 9 ≤ c.toNat && c.toNat ≤ 13 || c == ' '
  else inRanges CharTable.whiteSpace c.toNat

def isAlphabetic (c : Char) : Bool :=
  if c.toNat < 128 then c.isAlpha else inRanges CharTable.alphabetic c.toNat

def isUppercase (c : Char) : Bool :=
  if c.toNat < 128 then c.isUpper else inRuns CharTable.uppercase c.toNat

/-- An identifier goes on with it. -/
def isIdentifier (c : Char) : Bool :=
  if c.toNat < 128 then c.isAlphanum || c == '_' else inRanges CharTable.identifier c.toNat

/-- An identifier begins with it. -/
def isIdentifierStart (c : Char) : Bool :=
  if c.toNat < 128 then c.isAlpha || c == '_'
  else isIdentifier c && !inRanges CharTable.identifierInner c.toNat

end DeclarativeSql.CharClass
