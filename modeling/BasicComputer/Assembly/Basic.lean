import BasicComputer.Assembly.Labels
import BasicComputer.Assembly.Outcome
import BasicComputer.Line.Parse
import BasicComputer.Listing.Basic

/-!
# Assembly

A source text is assembled in two passes over its lines. The first (`definitions`) gives every
label an address; the second (`emit`) turns each line up to the end of the program into its
outcome and puts the words at the addresses of their lines. Nothing is kept from one assembly to
the next.

An assembly has a listing, a symbol table and the diagnostics of both passes in the order of
the lines, those of the first pass in front on the same line. `assemble` gives a fault instead
when some line does.
-/

namespace BasicComputer

/-- The lines of a source text. -/
def sourceLines (source : String) : List Line :=
  (Text.lines source).map Line.parse

/-- Lines with their numbers, the first with number 1. -/
def numbered (lines : List Line) : List (Line × Nat) :=
  lines.zipIdx 1

/-- The numbered lines that belong to the program: those in front of its end. -/
def reached (lines : List (Line × Nat)) : List (Line × Nat) :=
  lines.takeWhile fun (line, _) => !line.isStop

/-! ## The second pass -/

/-- What the second pass produces. -/
structure Emission where
  entries : List Entry
  diagnostics : List Diagnostic
  deriving DecidableEq, Repr

/-- What one outcome adds in front of the rest, for a line at an address. -/
def Outcome.prepend (outcome : Outcome) (address : Word) (number : Nat) (rest : Emission) :
    Emission where
  entries := (outcome.word?.map (⟨address, ·⟩)).toList ++ rest.entries
  diagnostics := (outcome.issue?.map (⟨number, ·⟩)).toList ++ rest.diagnostics

/-- The second pass over numbered lines that start at `counter`. -/
def emitFrom (policy : BlankLines) (symbols : SymbolTable) :
    Word → List (Line × Nat) → Except Fault Emission
  | _, [] => .ok ⟨[], []⟩
  | counter, (line, number) :: rest => do
    let outcome ← line.outcome symbols
    let tail ← emitFrom policy symbols (policy.next line outcome.target? counter) rest
    return outcome.prepend counter number tail

/-- The second pass over a program. -/
def emit (policy : BlankLines) (symbols : SymbolTable) (lines : List Line) :
    Except Fault Emission :=
  emitFrom policy symbols 0 (reached (numbered lines))

/-! ## Both passes -/

/-- What a source text is assembled to. -/
structure Assembly where
  listing : Listing
  symbols : SymbolTable
  diagnostics : List Diagnostic
  deriving DecidableEq, Repr

namespace Assembly

/-- Whether there is nothing to report. -/
def isClean (a : Assembly) : Bool :=
  a.diagnostics.isEmpty

/-- Whether some line failed to do its work. -/
def hasErrors (a : Assembly) : Bool :=
  a.diagnostics.any Diagnostic.isError

end Assembly

/-- The symbols of a program. -/
def symbolsOf (policy : BlankLines) (lines : List Line) : SymbolTable :=
  .ofList (definitions policy lines)

/-- Assembles the lines of a program. -/
def assembleLines (policy : BlankLines) (lines : List Line) : Except Fault Assembly := do
  let symbols := symbolsOf policy lines
  let emission ← emit policy symbols lines
  return {
    listing := ⟨emission.entries⟩
    symbols
    diagnostics :=
      Diagnostic.sortByLine (labelDiagnostics (numbered lines) ++ emission.diagnostics) }

/-- Assembles a source text. -/
def assemble (policy : BlankLines) (source : String) : Except Fault Assembly :=
  assembleLines policy (sourceLines source)

end BasicComputer
