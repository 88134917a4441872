import BasicComputer.Assembly.Counter
import BasicComputer.Diagnostic
import BasicComputer.Numeral.Read
import BasicComputer.Symbol.Table

/-!
# The first pass: labels

The first pass gives every label an address. It goes over the **whole** text, past the end of the
program too, and knows no symbols yet, so an `ORG` moves its counter only by an operand that is
a number as it stands.

A label of exactly three characters becomes a symbol at the address of its line; any other label
is an issue and defines nothing. On an `ORG` line a label is not looked at.
-/

namespace BasicComputer

namespace Line

/-- Where an `ORG` line moves the counter when no symbol is known. -/
def literalTarget? : Line → Option Word
  | statement _ (.org operand) => operand.bind Numeral.word?
  | _ => none

/-- The label of a line on which labels count. -/
def placedLabel? (line : Line) : Option String :=
  if line.isOrg then none else line.label?

/-- Whether a label may become a symbol. -/
def isSymbolName (label : String) : Bool :=
  label.length = labelLength

/-- The symbol that a line defines. -/
def symbolName? (line : Line) : Option String :=
  line.placedLabel?.filter isSymbolName

/-- The issue of a line whose label may not become a symbol. -/
def labelIssue? (line : Line) : Option Issue :=
  (line.placedLabel?.filter (!isSymbolName ·)).map .invalidLabel

end Line

/-- The definitions of lines that start at `counter`, in order. -/
def definitionsFrom (policy : BlankLines) : Word → List Line → List Symbol
  | _, [] => []
  | counter, line :: rest =>
    (line.symbolName?.map (⟨·, counter⟩)).toList ++
      definitionsFrom policy (policy.next line line.literalTarget? counter) rest

/-- The definitions of a program, in order. -/
def definitions (policy : BlankLines) (lines : List Line) : List Symbol :=
  definitionsFrom policy 0 lines

/-- The issues of the labels of numbered lines, in order. -/
def labelDiagnostics (lines : List (Line × Nat)) : List Diagnostic :=
  lines.filterMap fun (line, number) => line.labelIssue?.map (⟨number, ·⟩)

end BasicComputer
