/-!
# Lines of a text

A line ends with a line feed, and a carriage return directly before that line feed belongs to
the ending. A last line may go without an ending; it then keeps a carriage return at its end,
and it counts only if it holds something. A carriage return elsewhere ends nothing.

`Text.unlines` is the way back for lines that hold no line feed.
-/

namespace BasicComputer.Text

/-- A closed line without the carriage return of its ending. -/
def dropReturn (line : List Char) : List Char :=
  if line.getLast? = some '\r' then line.dropLast else line

/-- The lines among the pieces that line feeds leave: every piece but the last was closed by a
line feed, and the last is the text behind the last line feed. -/
def closeLines : List (List Char) → List (List Char)
  | [] => []
  | [last] => if last = [] then [] else [last]
  | closed :: rest => dropReturn closed :: closeLines rest

/-- The lines of a text, without their endings. -/
def lines (text : String) : List String :=
  (closeLines (text.toList.splitOnP (· == '\n'))).map String.ofList

/-- The text of the given lines, each closed by a line feed. -/
def unlines (lines : List String) : String :=
  String.join (lines.map (· ++ "\n"))

end BasicComputer.Text
