import NodeQuery.Text.Range
/-!
Blank characters: the spaces, line ends and separators of Unicode, together with the four ASCII
separators from U+001C to U+001F.
-/
namespace NodeQuery.Text

/-- Code points that count as blank. -/
def blankRanges : List (Nat × Nat) :=
  [(9, 13), (28, 32), (133, 133), (160, 160), (5760, 5760), (8192, 8202), (8232, 8233),
  (8239, 8239), (8287, 8287), (12288, 12288)]

/-- A blank code point. -/
def isBlank (code : Nat) : Bool :=
  inRanges code blankRanges

/-- A blank among the six of ASCII that separate words in plain text. -/
def isAsciiBlank (code : Nat) : Bool :=
  (9 ≤ code && code ≤ 13) || code == 32

end NodeQuery.Text
