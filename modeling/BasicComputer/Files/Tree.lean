import BasicComputer.Association
import BasicComputer.Files.Path

/-!
# File trees

The files of a system, each under the list of components that leads to it from the root, and the
**working directory**, where relative paths start. A directory is there because it is named as one
or because something is in it, so it may be empty. Contents are bytes, and a file can be read as
text only if its bytes are UTF-8.

A path is followed one component at a time through directories that exist, and two dots lead to the
directory above, as far as the root. There are no links. Writing puts a whole text in the place of a
file, or makes a new one in a directory that exists; it makes no directory. A place may be closed to
writing. To reading none is: a file that may not be read is like one whose bytes are no text.
-/

namespace BasicComputer

-- contents are compared as arrays of bytes
local instance contentDecidableEq : DecidableEq ByteArray := ByteArray.instDecidableEq

/-- The files of a system, and the directory that it is used from. -/
structure FileTree where
  /-- The files by their places. -/
  files : List (List String × ByteArray)
  /-- Directories that are there, whether or not a file is in them. -/
  directories : List (List String) := []
  /-- The directory where relative paths start. -/
  workingDirectory : List String := []
  /-- Whether the system lets a file be written at a place. -/
  mayWrite : List String → Bool := fun _ => true

namespace FileTree

/-- The tree without a file, used from its root. -/
def empty : FileTree := { files := [] }

/-- The content of the file at a place. -/
def content? (t : FileTree) (place : List String) : Option ByteArray :=
  t.files.lookup place

/-- Whether a place is a directory: the start of the working directory or of another directory that
is named, or the start of some file's place. -/
def isDirectory (t : FileTree) (place : List String) : Bool :=
  (t.workingDirectory :: t.directories).any (place.isPrefixOf ·) ||
    t.files.any fun (file, _) => place.isPrefixOf file && place ≠ file

/-- The tree with a file at a place, whatever was there before. -/
def put (t : FileTree) (place : List String) (content : ByteArray) : FileTree :=
  { t with files := Association.assign place content t.files }

/-! ## Following paths -/

/-- The most bytes that a file name can have. -/
def nameLimit : Nat := 255

/-- The most bytes that a path can have. -/
def pathLimit : Nat := 4095

/-- The directory where a path starts. -/
def start (t : FileTree) (path : String) : List String :=
  if Path.isAbsolute path then [] else t.workingDirectory

/-- The directory that a component leads to. Above the root there is only the root. -/
def enter? (t : FileTree) (directory : List String) (component : String) : Option (List String) :=
  if Path.isIdle component then some directory
  else if component = ".." then some directory.dropLast
  else
    let place := directory ++ [component]
    if t.isDirectory place then some place else none

/-- Whether a component can be the name of a file. -/
def isFileName (component : String) : Bool :=
  !Path.isIdle component && component ≠ ".." && component.utf8ByteSize ≤ nameLimit

/-- The place of the file that a path names, whether or not there is one yet. -/
def locate? (t : FileTree) (path : String) : Option (List String) := do
  let components := Path.components path
  let name ← components.getLast?
  if path.utf8ByteSize ≤ pathLimit ∧ isFileName name then
    let directory ← components.dropLast.foldlM t.enter? (t.start path)
    return directory ++ [name]
  else none

/-- The text of the file that a path names. -/
def read? (t : FileTree) (path : String) : Option String := do
  String.fromUTF8? (← t.content? (← t.locate? path))

/-- The tree after a text was written to the file that a path names. -/
def write? (t : FileTree) (path text : String) : Option FileTree := do
  let place ← t.locate? path
  if t.isDirectory place ∨ ¬ t.mayWrite place then none else some (t.put place text.toUTF8)

/-- The files that are new or have another content than in an earlier tree. -/
def changedSince (earlier later : FileTree) : List (List String × ByteArray) :=
  later.files.filter fun (place, content) => earlier.content? place ≠ some content

/-! ## One more file -/

/-- A file that was put is found at its place, and all other places are as they were. -/
theorem content?_put (t : FileTree) (place other : List String) (content : ByteArray) :
    (t.put place content).content? other =
      if other = place then some content else t.content? other := by
  simp [content?, put, Association.lookup_assign]

end FileTree

end BasicComputer
