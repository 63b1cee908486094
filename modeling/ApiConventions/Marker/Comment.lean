import ApiConventions.Text.Blank

/-!
# ApiConventions.Marker.Comment

The text of a comment line, without its delimiters. A line that starts with `//` or `/*` loses
that and every `*/` at its end; blanks at either end never count.
-/

namespace ApiConventions
namespace Comment

/-- Drops every closing delimiter at the end of a reversed line. -/
def dropClosings : List Char → List Char
  | '/' :: '*' :: rest => dropClosings rest
  | s => s

/-- What stands between the comment delimiters of a trimmed line. -/
def body : List Char → List Char
  | '/' :: '/' :: rest => (dropClosings rest.reverse).reverse
  | '/' :: '*' :: rest => (dropClosings rest.reverse).reverse
  | s => s

def text (line : List Char) : List Char :=
  Text.trim (body (Text.trim line))

/-- The text of a comment line. -/
def textOf (line : String) : String :=
  String.ofList (text line.toList)

/-- The lines of a comment block that are not markers. -/
def prose (lines : List String) : List String :=
  (lines.map textOf).filter fun line => line.toList.head? != some '+'

end Comment
end ApiConventions
