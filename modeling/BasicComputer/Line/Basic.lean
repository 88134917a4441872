import BasicComputer.Opcode
import BasicComputer.Numeral.Radix

/-!
# Source lines

A line is blank, or a lone label, or a **statement** with or without a label. Operands are kept
as the tokens that were written: what a token means depends on the symbols of the whole text,
which a single line does not know.

`Line.label?` and `Line.operand?` are the views that the two passes use. A statement that ends
the program has no operand, whatever was written behind it.
-/

namespace BasicComputer

/-- What a line asks for. -/
inductive Statement where
  /-- Moves the location counter. -/
  | org (operand : Option String)
  /-- Ends the program. -/
  | stop
  /-- Stores a number that is written in the radix. -/
  | data (radix : Radix) (operand : Option String)
  | instruction (op : Opcode) (operand : Option String) (indirect : Bool)
  /-- The mnemonic is neither an opcode's nor a directive's. -/
  | unknown (mnemonic : String) (operand : Option String)
  deriving DecidableEq, Repr

/-- One line of source text. -/
inductive Line where
  | blank
  | labelOnly (label : String)
  | statement (label : Option String) (body : Statement)
  deriving DecidableEq, Repr

/-- The mnemonic of the directive that stores a number of the radix. -/
def Radix.mnemonic : Radix → String
  | decimal => "DEC"
  | hex => "HEX"

/-- The operand token of a statement. -/
def Statement.operand? : Statement → Option String
  | org operand => operand
  | stop => none
  | data _ operand => operand
  | instruction _ operand _ => operand
  | unknown _ operand => operand

namespace Line

/-- How many characters a label needs to become a symbol, and the most that are kept. -/
def labelLength : Nat := 3

/-- The label of a line. -/
def label? : Line → Option String
  | blank => none
  | labelOnly label => some label
  | statement label _ => label

/-- The operand token of a line. -/
def operand? : Line → Option String
  | blank => none
  | labelOnly _ => none
  | statement _ body => body.operand?

/-- Whether a line holds no token. -/
def isBlank : Line → Bool
  | blank => true
  | _ => false

/-- Whether a line moves the location counter instead of taking an address. -/
def isOrg : Line → Bool
  | statement _ (.org _) => true
  | _ => false

/-- Whether a line ends the program. -/
def isStop : Line → Bool
  | statement _ .stop => true
  | _ => false

end Line

end BasicComputer
