/-
# Directory trees

A file system that consists of one tree, whose root is the working directory. What
lies outside of the tree is not known: the directories above the root exist, and
nothing else is found there.
-/
import PrintJob.FileSystem

namespace PrintJob

/-- A file or a directory. -/
inductive FileTree where
  | file (content : ByteArray)
  | directory (entries : List (String × FileTree))

namespace FileTree

/-! ## Building -/

/-- A tree in which one path leads to `leaf`. -/
def branch (leaf : FileTree) : PathParts → FileTree
  | [] => leaf
  | part :: parts => .directory [(part, branch leaf parts)]

/-- Changes the entry of a name, or adds it. -/
def alterEntry (name : String) (change : Option FileTree → FileTree) :
    List (String × FileTree) → List (String × FileTree)
  | [] => [(name, change none)]
  | (other, tree) :: rest =>
    if other = name then (other, change (some tree)) :: rest
    else (other, tree) :: alterEntry name change rest

/-- The same tree with `leaf` at the end of a path; missing directories are made. A
directory that is there already stays. -/
def insert (leaf : FileTree) : PathParts → FileTree → FileTree
  | part :: parts, .directory entries =>
    .directory (alterEntry part (fun
      | some tree => insert leaf parts tree
      | none => branch leaf parts) entries)
  | [], .directory entries =>
    match leaf with
    | .directory _ => .directory entries
    | .file content => .file content
  | parts, .file _ => branch leaf parts

/-! ## Walking -/

/-- Where a walk has come to. -/
inductive Place where
  /-- A directory that is not in the tree. -/
  | outside
  | inside (path : PathParts) (tree : FileTree)

/-- The tree at the end of a path of names. -/
def find? : PathParts → FileTree → Option FileTree
  | [], tree => some tree
  | part :: parts, .directory entries => (entries.lookup part).bind (find? parts)
  | _, .file _ => none

/-- The place above a path of names. -/
def parentPlace (root : FileTree) (path : PathParts) : Place :=
  match path with
  | [] => .outside
  | _ =>
    match root.find? path.dropLast with
    | some tree => .inside path.dropLast tree
    | none => .outside

/-- Follows one part of a path. From a file no part leads on. -/
def enter (root : FileTree) (place : Place) (part : String) : Except ReadError Place :=
  match place with
  | .outside =>
    if part = "" ∨ part = "." ∨ part = ".." then .ok .outside else .error .notFound
  | .inside _ (.file _) => .error .notDirectory
  | .inside path (.directory entries) =>
    if part = "" ∨ part = "." then .ok place
    else if part = ".." then .ok (root.parentPlace path)
    else match entries.lookup part with
      | some tree => .ok (.inside (path ++ [part]) tree)
      | none => .error .notFound

/-- Follows a path from the working directory, or from outside if it begins with a
slash. -/
def walk (root : FileTree) (path : String) : Except ReadError Place :=
  if path = "" then .error .notFound
  else
    (pathParts path).foldlM (enter root)
      (if isAbsolute path then .outside else .inside [] root)

/-! ## Answers -/

/-- The text of the file at a path. -/
def readText (root : FileTree) (path : String) : Except ReadError (List Char) := do
  match ← root.walk path with
  | .inside _ (.file content) =>
    match String.fromUTF8? content with
    | some text => .ok text.toList
    | none => .error .notText
  | _ => .error .isDirectory

/-- Whether a path leads to a file. -/
def isFile (root : FileTree) (path : String) : Bool :=
  match root.walk path with
  | .ok (.inside _ (.file _)) => true
  | _ => false

/-- The names from the root to what a path leads to; all that is outside is the top. -/
def canonical (root : FileTree) (path : String) : Except ReadError PathParts := do
  match ← root.walk path with
  | .inside names _ => .ok names
  | .outside => .ok [""]

/-- The answers that a tree gives. -/
def toFileSystem (root : FileTree) : FileSystem where
  readText := root.readText
  isFile := root.isFile
  canonical := root.canonical

end FileTree

end PrintJob
