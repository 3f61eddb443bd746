import TinyScript.NameMap

/-! # Files

Scripts and modules are read through a `FileView`: what the two questions "which file does this path
name" and "what does it hold" are answered with. A `FileTree` is a directory tree as a value, and
`FileTree.view` answers the questions for it.

* `FileView.readText`: the text of a file, which must be UTF-8;
* `FileTree.locate`: the place that a path leads to;
* `FileTree.write`, `FileTree.makeDirectory`: trees with one more entry.
-/

namespace TinyScript

inductive FileError where
  | notFound
  | notADirectory
  | isADirectory
  | notUtf8
  | other (message : String)
  deriving Repr, DecidableEq

def FileError.message : FileError → String
  | notFound => "No such file or directory (os error 2)"
  | notADirectory => "Not a directory (os error 20)"
  | isADirectory => "Is a directory (os error 21)"
  | notUtf8 => "stream did not contain valid UTF-8"
  | other message => message

/-- What can be asked about files. -/
structure FileView where
  /-- The one absolute name of the file that a path leads to. -/
  canonical : String → Except FileError String
  read : String → Except FileError ByteArray

def FileView.readText (view : FileView) (path : String) : Except FileError String := do
  match String.fromUTF8? (← view.read path) with
  | some text => return text
  | none => throw .notUtf8

inductive FileEntry where
  | file (content : ByteArray)
  | directory

/-- The entries below a working directory, by the names on the way to them. -/
structure FileTree where
  root : String
  entries : List (List String × FileEntry) := []

namespace FileTree

def find? (t : FileTree) (place : List String) : Option FileEntry :=
  if place.isEmpty then some .directory else t.entries.lookup place

def isDirectory (t : FileTree) (place : List String) : Bool :=
  match t.find? place with
  | some .directory => true
  | _ => false

/-- Why a path that leads out of the tree names no file, by the names that are left of it: above the
working directory there are directories, and nothing else is known. -/
def outside (rest : List String) : FileError :=
  if rest.all fun name => name = "" ∨ name = "." ∨ name = ".." then .isADirectory else .notFound

/-- Follows the names of a path from a place, given innermost first. Only a directory can be
followed further, be it to itself or to its parent. -/
def follow (t : FileTree) : List String → List String → Except FileError (List String)
  | place, [] => .ok place
  | place, name :: rest =>
    if !t.isDirectory place.reverse then .error .notADirectory
    else if name = "" ∨ name = "." then t.follow place rest
    else if name = ".." then
      match place with
      | [] => .error (outside rest)
      | _ :: outer => t.follow outer rest
    else if (t.find? (place.reverse ++ [name])).isSome then t.follow (name :: place) rest
    else .error .notFound

def locate (t : FileTree) (path : String) : Except FileError (List String) :=
  if path = "" then .error .notFound
  else if path.startsWith "/" then .error (outside (path.splitOn "/"))
  else do return (← t.follow [] (path.splitOn "/")).reverse

def absolute (t : FileTree) (place : List String) : String := "/".intercalate (t.root :: place)

/-- The place of an absolute name below the working directory, or that a relative path leads to. -/
def placeOf (t : FileTree) (path : String) : Except FileError (List String) :=
  if path.startsWith (t.root ++ "/") then t.locate (path.drop (t.root.length + 1)).toString
  else if path = t.root then .ok []
  else t.locate path

def read (t : FileTree) (path : String) : Except FileError ByteArray := do
  match t.find? (← t.placeOf path) with
  | some (.file content) => return content
  | some .directory => throw .isADirectory
  | none => throw .notFound

def view (t : FileTree) : FileView where
  canonical path := do return t.absolute (← t.placeOf path)
  read := t.read

def put (t : FileTree) (place : List String) (entry : FileEntry) : FileTree :=
  { t with entries := (place, entry) :: t.entries.filter (·.1 ≠ place) }

def names (path : String) : List String :=
  (path.splitOn "/").filter fun name => name ≠ "" ∧ name ≠ "."

def makePlaces (t : FileTree) : (done rest : List String) → FileTree
  | _, [] => t
  | done, name :: rest =>
    let place := done ++ [name]
    let t := if (t.find? place).isSome then t else t.put place .directory
    t.makePlaces place rest

def makeDirectory (t : FileTree) (path : String) : FileTree := t.makePlaces [] (names path)

/-- Writes a file, in directories that are made if need be. -/
def write (t : FileTree) (path : String) (content : ByteArray) : FileTree :=
  let place := names path
  (t.makePlaces [] place.dropLast).put place (.file content)

end FileTree

end TinyScript
