/-
# Files

What the analysis needs of a file system, as a record of the answers that it gives.
Every function of the library that reads files takes such a record, so it is known
what it depends on.
-/

namespace PrintJob

/-- Why a file could not be read as text. -/
inductive ReadError where
  | notFound
  /-- A part of the path before its end is a file. -/
  | notDirectory
  /-- The path leads to a directory. -/
  | isDirectory
  /-- The content is not UTF-8. -/
  | notText
  /-- Any other reason, in the words of the system. -/
  | other (message : String)
deriving DecidableEq

/-- What is said about a file that could not be read. -/
def ReadError.message : ReadError → String
  | .notFound => "No such file or directory (os error 2)"
  | .notDirectory => "Not a directory (os error 20)"
  | .isDirectory => "Is a directory (os error 21)"
  | .notText => "stream did not contain valid UTF-8"
  | .other message => message

/-! ## Paths -/

/-- The parts between the slashes of a path. -/
abbrev PathParts := List String

/-- The path with these parts. -/
def PathParts.toPath (parts : PathParts) : String := "/".intercalate parts

/-- The parts of a path; there is one more than there are slashes. -/
def pathParts (path : String) : PathParts := (path.toList.splitOn '/').map String.ofList

/-- Whether a path begins at the top and not in the working directory. -/
def isAbsolute (path : String) : Bool := path.toList.head? == some '/'

/-- The parts that lead somewhere else. -/
def properParts (path : String) : PathParts :=
  (pathParts path).filter fun part => part != "" && part != "."

/-- The name of the file that a path leads to, if it ends in a name. -/
def fileName? (path : String) : Option String :=
  (properParts path).getLast?.filter (· != "..")

/-- The path of the directory that the last part stands in. -/
def parentPath (path : String) : String :=
  let parts := (properParts path).dropLast
  if isAbsolute path then "/" ++ PathParts.toPath parts
  else if parts.isEmpty then "."
  else PathParts.toPath parts

/-! ## Answers -/

/-- The answers that a file system gives. -/
structure FileSystem where
  /-- The text of the file at a path. -/
  readText : String → Except ReadError (List Char)
  /-- Whether a path leads to a file. -/
  isFile : String → Bool
  /-- The one true path of what a path leads to. -/
  canonical : String → Except ReadError PathParts

end PrintJob
