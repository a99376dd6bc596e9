/-!
Paths of files. A path is a list of names, `..` among them, with or without a root; empty names and
`.` say nothing and are left out. A root of exactly two slashes is kept as it is written, and leads
to where a single one does.
-/
namespace NodeQuery.Files

/-- Where a path starts. -/
inductive Root where
  /-- The working directory. -/
  | working
  | slash
  | doubleSlash
  deriving DecidableEq, Repr

namespace Root

/-- The root of a path with a text, by the slashes at its start. Three or more are as good as one. -/
def ofText : List Char → Root
  | ['/', '/'] => doubleSlash
  | '/' :: '/' :: c :: _ => if c = '/' then slash else doubleSlash
  | '/' :: _ => slash
  | _ => working

/-- The text of a root. -/
def text : Root → String
  | working => ""
  | slash => "/"
  | doubleSlash => "//"

/-- Where a root leads. -/
def plain : Root → Root
  | working => working
  | slash | doubleSlash => slash

end Root

/-- A path of a file or directory. -/
structure Path where
  root : Root
  names : List String
  deriving DecidableEq, Repr

namespace Path

/-- The path with a text. -/
def ofText (text : String) : Path :=
  ⟨.ofText text.toList,
    ((text.toList.splitOn '/').map String.ofList).filter fun name => name ≠ "" ∧ name ≠ "."⟩

/-- The text of a path. The path without root and names is a point. -/
def text (p : Path) : String :=
  if p.root = .working ∧ p.names = [] then "." else p.root.text ++ "/".intercalate p.names

/-- A path seen from a directory. -/
def join (directory p : Path) : Path :=
  if p.root = .working then ⟨directory.root, directory.names ++ p.names⟩ else p

/-- The directory of a path. -/
def parent (p : Path) : Path :=
  ⟨p.root, p.names.dropLast⟩

/-- Where the way of a path starts. -/
def start (p : Path) : Path :=
  ⟨p.root.plain, []⟩

/-- A name in the directory at a path. -/
def child (p : Path) (name : String) : Path :=
  ⟨p.root, p.names ++ [name]⟩

/-- A path leads to the working directory or above it, and nowhere else. -/
def isAbove (p : Path) : Bool :=
  p.root == .working && p.names.all (· == "..")

/-- A path is a part of the way of another one, or is the same. -/
def leadsTo (p q : Path) : Bool :=
  p.root == q.root && p.names.isPrefixOf q.names

/-- The working directory. -/
def here : Path := ⟨.working, []⟩

/-- A path from the working directory is that path. -/
theorem here_join (p : Path) : here.join p = p := by
  obtain ⟨root, names⟩ := p
  cases root <;> simp [join, here]

end Path
end NodeQuery.Files
