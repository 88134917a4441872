import BasicComputer.Numeral.Write

/-!
# Diagnostics

An **issue** is what is wrong with a line, and a **diagnostic** is an issue at the number of its
line. Nothing here stops an assembly: an issue of severity *error* means that the line did not
do its work, and a *warning* that it did, though perhaps not the work that was meant.

The severity is a function of the issue, so it is not stored. The wording of every message is in
`Issue.message` and nowhere else.
-/

namespace BasicComputer

/-- How bad an issue is. -/
inductive Severity where
  | warning
  | error
  deriving DecidableEq, Repr

/-- The name of a severity, in messages and in structured output. -/
def Severity.name : Severity → String
  | warning => "warning"
  | error => "error"

/-- What can be wrong with a line. -/
inductive Issue where
  | unknownMnemonic (mnemonic : String)
  | missingMnemonic (label : String)
  | missingOperand (mnemonic : String)
  | invalidNumber (token : String) (radix : Radix)
  /-- The operand names a symbol, and the text of its address is no number of the radix. -/
  | symbolNotNumeric (symbol text : String) (radix : Radix)
  /-- The line moves the location counter to a place that was not known while labels got their
  addresses. -/
  | orgThroughSymbol (symbol : String) (address : Word)
  | undefinedSymbol (symbol : String)
  | invalidLabel (label : String)
  | operandOverflow (mnemonic : String) (operand : Nat)
  | ignoredOperand (mnemonic operand : String)
  | valueOutOfRange (value : Int)
  deriving DecidableEq, Repr

namespace Issue

/-- A warning leaves the work of the line done. -/
def severity : Issue → Severity
  | missingMnemonic _ => .warning
  | orgThroughSymbol _ _ => .warning
  | invalidLabel _ => .warning
  | operandOverflow _ _ => .warning
  | ignoredOperand _ _ => .warning
  | unknownMnemonic _ => .error
  | missingOperand _ => .error
  | invalidNumber _ _ => .error
  | symbolNotNumeric _ _ _ => .error
  | undefinedSymbol _ => .error
  | valueOutOfRange _ => .error

/-- A token as messages quote it. -/
def quote (token : String) : String :=
  "`" ++ token ++ "`"

/-- The text of an issue, without its line and severity. -/
def message : Issue → String
  | unknownMnemonic mnemonic => "unknown mnemonic " ++ quote mnemonic
  | missingMnemonic label => "label " ++ quote label ++ " has no mnemonic"
  | missingOperand mnemonic => quote mnemonic ++ " needs an operand"
  | invalidNumber token radix => quote token ++ " is not a valid " ++ radix.name ++ " number"
  | symbolNotNumeric symbol text radix =>
    "symbol " ++ quote symbol ++ " stands for " ++ quote text ++ ", which is not a valid " ++
      radix.name ++ " number"
  | orgThroughSymbol symbol address =>
    "ORG " ++ quote symbol ++ " moves to " ++ Numeral.hex address ++
      " only after labels were assigned"
  | undefinedSymbol symbol => "undefined symbol " ++ quote symbol
  | invalidLabel label => "label " ++ quote label ++ " must be exactly 3 characters"
  | operandOverflow mnemonic operand =>
    "operand 0x" ++ Numeral.write .hex operand ++ " of " ++ quote mnemonic ++
      " does not fit in 12 bits"
  | ignoredOperand mnemonic operand =>
    quote mnemonic ++ " takes no operand, ignoring " ++ quote operand
  | valueOutOfRange value =>
    "value " ++ Numeral.writeInt value ++ " does not fit in a 16-bit word"

end Issue

/-- An issue of a numbered line; the first line of a text has number 1. -/
structure Diagnostic where
  line : Nat
  issue : Issue
  deriving DecidableEq, Repr

namespace Diagnostic

/-- How bad the reported issue is. -/
def severity (d : Diagnostic) : Severity :=
  d.issue.severity

/-- Whether the reported line failed to do its work. -/
def isError (d : Diagnostic) : Bool :=
  d.severity = .error

/-- The diagnostic as one line of a report. -/
def text (d : Diagnostic) : String :=
  "line " ++ Numeral.write .decimal d.line ++ ": " ++ d.severity.name ++ ": " ++ d.issue.message

/-! ## Order by line -/

/-- Puts a diagnostic in front of the first one that is not on an earlier line. -/
def insertByLine (d : Diagnostic) : List Diagnostic → List Diagnostic
  | [] => [d]
  | e :: rest => if d.line ≤ e.line then d :: e :: rest else e :: insertByLine d rest

/-- The diagnostics in the order of their lines; those of one line keep their order. -/
def sortByLine (ds : List Diagnostic) : List Diagnostic :=
  ds.foldr insertByLine []

end Diagnostic

end BasicComputer
