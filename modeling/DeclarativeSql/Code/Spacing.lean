import DeclarativeSql.Text.CharClass

/-!
# Spacing

Tokens are written one after the other, with a space only where they would run together.
-/
namespace DeclarativeSql.Spacing

/-- Punctuation that separates tokens by itself. -/
def symbols : List Char := "(),.+-*/%=<>#;[]|&^~!:".toList

def isSymbol (c : Char) : Bool := CharClass.isBlank c || symbols.contains c

/-- Between two words, between a closing parenthesis and a word, and between two minus signs, which
would open a comment. -/
def isNeeded (last first : Char) : Bool :=
  (!isSymbol last && !isSymbol first) || (last == ')' && CharClass.isAlphabetic first) ||
    (last == '-' && first == '-')

/-- Writes a token after the text. -/
def join (text token : String) : String :=
  match text.back?, token.front? with
  | some last, some first =>
    if isNeeded last first then text ++ " " ++ token else text ++ token
  | _, _ => text ++ token

end DeclarativeSql.Spacing
