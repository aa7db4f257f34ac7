/-!
# Quoted text

Text is enclosed in a quote character, and a quote inside it is written twice.
-/
namespace DeclarativeSql.Quoted

/-- Every quote is written twice. -/
def doubled (quote : Char) : List Char → List Char
  | [] => []
  | c :: rest => if c = quote then c :: c :: doubled quote rest else c :: doubled quote rest

def quote (mark : Char) (s : String) : String :=
  String.ofList (mark :: (doubled mark s.toList ++ [mark]))

/-- A string literal. -/
def literal (s : String) : String := quote '\x27' s

/-- A quoted identifier. -/
def identifier (s : String) : String := quote '"' s

@[simp] theorem toList_quote (mark : Char) (s : String) :
    (quote mark s).toList = mark :: (doubled mark s.toList ++ [mark]) := by
  simp [quote]

end DeclarativeSql.Quoted
