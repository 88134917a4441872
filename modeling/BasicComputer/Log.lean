import BasicComputer.Assembly.Basic
import BasicComputer.Disassembly

/-!
# The log

An **event** is something that happens during a run: a label gets an address, a diagnostic is
reported, a pass ends. `assemblyLog` and `disassemblyLog` give the events of a run in the order
in which they happen, which for diagnostics is not the order of the final report: all of the
first pass come before all of the second.

The log of the first pass carries a symbol table along, because a definition is told apart from
a redefinition by what was known before it.
-/

namespace BasicComputer

/-- Something that happens during a run. -/
inductive Event where
  | defined (name : String) (address : Word)
  | redefined (name : String) (previous address : Word)
  | reported (diagnostic : Diagnostic)
  | firstPassDone (symbols : Nat)
  | secondPassDone (words : Nat)
  | disassembling (entries : Nat)
  deriving DecidableEq, Repr

/-- The event as one line of the log: its level, its message and its fields in order of their
names. -/
def Event.text : Event → String
  | defined name address => "DEBUG label " ++ name ++ " = " ++ Numeral.hex address
  | redefined name previous address =>
    "DEBUG label " ++ name ++ " redefined: " ++ Numeral.hex previous ++ " -> " ++
      Numeral.hex address
  | reported d =>
    "WARN " ++ d.issue.message ++ " line=" ++ Numeral.write .decimal d.line ++ " severity=" ++
      d.severity.name
  | firstPassDone symbols => "DEBUG pass 1 done symbols=" ++ Numeral.write .decimal symbols
  | secondPassDone words => "DEBUG pass 2 done words=" ++ Numeral.write .decimal words
  | disassembling entries => "DEBUG disassembling entries=" ++ Numeral.write .decimal entries

/-- The event of a definition, made when the table holds what was defined before. -/
def SymbolTable.definitionEvent (t : SymbolTable) (name : String) (address : Word) : Event :=
  match t.resolve name with
  | some previous => .redefined name previous address
  | none => .defined name address

/-- The log of the first pass over numbered lines that start at `counter`. -/
def labelLog (policy : BlankLines) : SymbolTable → Word → List (Line × Nat) → List Event
  | _, _, [] => []
  | known, counter, (line, number) :: rest =>
    let next := policy.next line line.literalTarget? counter
    match line.placedLabel? with
    | none => labelLog policy known next rest
    | some label =>
      if Line.isSymbolName label then
        known.definitionEvent label counter ::
          labelLog policy (known.define label counter) next rest
      else .reported ⟨number, .invalidLabel label⟩ :: labelLog policy known next rest

/-- The log of the assembly of a program. -/
def assemblyLogOfLines (policy : BlankLines) (lines : List Line) : Except Fault (List Event) := do
  let symbols := symbolsOf policy lines
  let emission ← emit policy symbols lines
  return labelLog policy .empty 0 (numbered lines) ++ .firstPassDone symbols.size ::
    emission.diagnostics.map .reported ++ [.secondPassDone emission.entries.length]

/-- The log of the assembly of a source text. -/
def assemblyLog (policy : BlankLines) (source : String) : Except Fault (List Event) :=
  assemblyLogOfLines policy (sourceLines source)

/-- The log of the disassembly of a listing that is given as text. -/
def disassemblyLog (text : String) : List Event :=
  let reading := Listing.read text
  reading.diagnostics.map .reported ++ [.disassembling reading.listing.size]

end BasicComputer
