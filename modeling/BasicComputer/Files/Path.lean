/-!
# Paths

A path is a text whose **components** are separated by slashes. It starts at the root if a slash
comes first, and at the working directory otherwise. Empty components and single dots say nothing,
so the file name is the last of the others; a path that ends in two dots, or has no other component,
has no file name.

Results are saved under the **stem** of the file they were made from, its name up to the first
dot. A stem is never empty and holds neither a slash nor a dot, so a result lands in the working
directory whatever the path was.
-/

namespace BasicComputer.Path

/-- Whether a path starts at the root. -/
def isAbsolute (path : String) : Bool :=
  path.toList.head? = some '/'

/-- The texts between the slashes of a path. -/
def components (path : String) : List String :=
  (path.toList.splitOnP (· == '/')).map String.ofList

/-- Whether a component leads nowhere else. -/
def isIdle (component : String) : Bool :=
  component = "" || component = "."

/-- The file name of a path. -/
def fileName? (path : String) : Option String :=
  ((components path).filter (!isIdle ·)).getLast?.filter (· ≠ "..")

/-- The stem of a path without a usable file name. -/
def fallbackStem : String := "untitled"

/-- The name under which results of a file are saved. -/
def stem (path : String) : String :=
  let name := ((fileName? path).getD "").toList.takeWhile (· ≠ '.')
  if name = [] then fallbackStem else String.ofList name

/-- A file name made of a stem and an extension. -/
def withExtension (stem extension : String) : String :=
  stem ++ "." ++ extension

end BasicComputer.Path
