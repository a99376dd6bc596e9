/-!
Colours of the output: a coloured text stands between a code and the code that resets. `highlight`
shows the last name of a path in bold green.
-/
namespace NodeQuery.CommandLine

/-- The code for red. -/
def redCode : String := "\x1b[31m"

/-- The code for green. -/
def greenCode : String := "\x1b[32m"

/-- The code for bold. -/
def boldCode : String := "\x1b[1m"

/-- The code that ends all others. -/
def resetCode : String := "\x1b[0m"

/-- Whether output is coloured. -/
structure Style where
  colored : Bool
  deriving DecidableEq, Repr

namespace Style

/-- A text after a code. -/
def paint (style : Style) (code text : String) : String :=
  if style.colored then code ++ text ++ resetCode else text

/-- A text in red. -/
def red (style : Style) (text : String) : String :=
  style.paint redCode text

/-- A text in green. -/
def green (style : Style) (text : String) : String :=
  style.paint greenCode text

/-- A text in bold. -/
def bold (style : Style) (text : String) : String :=
  style.paint boldCode text

/-- A path cut after its last slash. -/
def splitName (path : String) : String × String :=
  let chars := path.toList.reverse
  (String.ofList (chars.dropWhile (· ≠ '/')).reverse,
    String.ofList (chars.takeWhile (· ≠ '/')).reverse)

/-- A path with its last name in bold green. -/
def highlight (style : Style) (path : String) : String :=
  let (parent, name) := splitName path
  parent ++ style.bold (style.green name)

/-- Without colours every text stays as it is. -/
theorem paint_plain (code text : String) : paint ⟨false⟩ code text = text := rfl

/-- Cutting loses nothing. -/
theorem splitName_append (path : String) : (splitName path).1 ++ (splitName path).2 = path := by
  apply String.toList_inj.1
  simp only [splitName, String.toList_append, String.toList_ofList]
  rw [← List.reverse_append, List.takeWhile_append_dropWhile, List.reverse_reverse]

/-- Without colours a path stays as it is. -/
theorem highlight_plain (path : String) : highlight ⟨false⟩ path = path :=
  splitName_append path

end Style
end NodeQuery.CommandLine
