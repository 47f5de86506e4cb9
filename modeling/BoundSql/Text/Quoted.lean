/-!
# Quoted literals

A text literal stands between single quotes, and a single quote inside it is written twice.
-/
namespace BoundSql.Text

/-- Double the quotes in a text. -/
def doubled (q : Char) (cs : List Char) : List Char :=
  cs.flatMap fun c => if c = q then [q, q] else [c]

/-- A text as a literal between single quotes. -/
def quoted (cs : List Char) : List Char :=
  '\'' :: doubled '\'' cs ++ ['\'']

def quotedText (s : String) : String := String.ofList (quoted s.toList)

end BoundSql.Text
