import BasicComputer.Line.Basic
import BasicComputer.Text.Blank

/-!
# Parsing a source line

The layout of a line is `[LABEL,] MNEMONIC [OPERAND [I]]`, and only the order of the tokens
counts. A first token with a comma is a label: its first characters before the first comma,
`Line.labelLength` of them at most and possibly none; what follows the comma in that token is
dropped. The mnemonic is matched exactly. The token behind the operand marks indirect addressing
if it is the letter I in either case, and every further token is dropped.

Every text parses. `Line.parse` looks at its text through `Text.tokens` alone, so blank
characters matter only as separators.
-/

namespace BasicComputer

/-- Whether a token marks indirect addressing. -/
def Statement.isIndirectMark (token : String) : Bool :=
  token = "I" || token = "i"

/-- The statement of a mnemonic and the tokens behind it. -/
def Statement.ofTokens (mnemonic : String) (arguments : List String) : Statement :=
  let operand := arguments[0]?
  let indirect := arguments[1]?.any isIndirectMark
  match mnemonic with
  | "ORG" => .org operand
  | "END" => .stop
  | "DEC" => .data .decimal operand
  | "HEX" => .data .hex operand
  | _ =>
    match Opcode.ofMnemonic? mnemonic with
    | some op => .instruction op operand indirect
    | none => .unknown mnemonic operand

namespace Line

/-- The label that a first token gives, if it gives one. -/
def labelOfToken? (token : String) : Option String :=
  if ',' ∈ token.toList then
    some (String.ofList ((token.toList.takeWhile (· ≠ ',')).take labelLength))
  else none

/-- The line that consists of the given tokens. -/
def ofTokens : List String → Line
  | [] => .blank
  | first :: rest =>
    match labelOfToken? first, rest with
    | none, arguments => .statement none (.ofTokens first arguments)
    | some label, [] => .labelOnly label
    | some label, mnemonic :: arguments => .statement (some label) (.ofTokens mnemonic arguments)

/-- The line that a text stands for. -/
def parse (text : String) : Line :=
  ofTokens (Text.tokens text)

end Line

end BasicComputer
