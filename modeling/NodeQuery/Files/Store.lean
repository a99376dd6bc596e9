import NodeQuery.Failure
import NodeQuery.Files.Path
/-!
The files that a run can see. Paths are followed name by name, as an operating system does it: every
name before the last must be a directory. What is not in the store is absent; above the working
directory there are directories alone.
-/
namespace NodeQuery.Files

/-- Files and directories by path, with a root of one slash if any. Directories that hold something
need no entry of their own. -/
structure Store where
  files : List (Path × Bytes)
  directories : List Path

/-- What a path leads to. -/
inductive Entry where
  | file (path : Path) (content : Bytes)
  | directory (path : Path)

namespace Store

/-- The store without files. -/
def empty : Store := ⟨[], []⟩

/-- A path leads to a directory: it is a starting point, or a part of the way to something. -/
def isDirectory (s : Store) (p : Path) : Bool :=
  p.names.isEmpty || s.directories.any p.leadsTo ||
    s.files.any fun f => p.leadsTo f.1 && p != f.1

/-- What names lead to, followed from a directory. -/
def follow (s : Store) (directory : Path) : List String → Except FileFault Entry
  | [] => .ok (.directory directory)
  | ".." :: rest =>
    follow s (if directory.isAbove then directory.child ".." else directory.parent) rest
  | name :: rest =>
    let p := directory.child name
    match s.files.lookup p with
    | some content => if rest.isEmpty then .ok (.file p content) else .error .notDirectory
    | none => if s.isDirectory p then follow s p rest else .error .missing

/-- What a path leads to. -/
def entry (s : Store) (p : Path) : Except FileFault Entry :=
  s.follow p.start p.names

/-- A path leads to a file. -/
def isFile (s : Store) (p : Path) : Bool :=
  match s.entry p with
  | .ok (.file ..) => true
  | _ => false

/-- A path holds the character with code zero, which no file system takes. -/
def hasNul (p : Path) : Bool :=
  p.names.any fun name => name.toList.contains '\x00'

/-- The bytes of a file. -/
def read (s : Store) (p : Path) : Except Fault Bytes :=
  if hasNul p then .error (.badValue "embedded null byte")
  else
    match s.entry p with
    | .ok (.file _ content) => .ok content
    | .ok (.directory _) => .error (.file .isDirectory p.text)
    | .error fault => .error (.file fault p.text)

/-- Line ends of every kind as line feeds. -/
def plainLineEnds : List Char → List Char
  | [] => []
  | '\r' :: '\n' :: rest => '\n' :: plainLineEnds rest
  | '\r' :: rest => '\n' :: plainLineEnds rest
  | c :: rest => c :: plainLineEnds rest

/-- The text of a file. -/
def readText (s : Store) (p : Path) : Outcome (List Char) := do
  let bytes ← (s.read p).mapError Failure.fault
  let text ← (Text.Utf8.decode bytes).mapError Failure.undecodable
  return plainLineEnds text

/-- The JSON value in a file. -/
def readJson (s : Store) (p : Path) : Outcome Json := do
  let text ← s.readText p
  (Json.parse text).mapError Failure.ofReadError

/-- Puts content at a path that leads through no `..`. -/
def put (s : Store) (p : Path) (content : Bytes) : Store :=
  { s with files := s.files.filter (fun f => f.1 != p) ++ [(p, content)] }

/-- Adds a directory. -/
def addDirectory (s : Store) (p : Path) : Store :=
  { s with directories := s.directories ++ [p] }

/-- Writes a file, whose directory must exist. -/
def write (s : Store) (p : Path) (content : Bytes) : Except Fault Store :=
  if hasNul p then .error (.badValue "embedded null byte")
  else
    match s.entry p, p.names.getLast?, s.entry p.parent with
    | .ok (.file target _), _, _ => .ok (s.put target content)
    | .ok (.directory _), _, _ => .error (.file .isDirectory p.text)
    | .error .missing, some name, .ok (.directory directory) =>
      .ok (s.put (directory.child name) content)
    | .error fault, _, _ => .error (.file fault p.text)

/-- Nothing is found at a path once its entries are gone. -/
theorem lookup_filter_ne (p : Path) (l : List (Path × Bytes)) :
    (l.filter fun f => f.1 != p).lookup p = none := by
  induction l with
  | nil => rfl
  | cons f rest ih =>
    obtain ⟨q, content⟩ := f
    by_cases h : q = p
    · simp [h, ih]
    · have hne : (p == q) = false := by simp [Ne.symm h]
      simp [h, List.lookup_cons, hne, ih]

/-- What has been put at a path is found there. -/
theorem lookup_put (s : Store) (p : Path) (content : Bytes) :
    (s.put p content).files.lookup p = some content := by
  simp [put, List.lookup_append, lookup_filter_ne]

end Store
end NodeQuery.Files
