import BasicComputer.Diagnostic
import BasicComputer.Numeral.Read
import BasicComputer.Symbol.Table

/-!
# Operands

An operand token may name a symbol. It is then **replaced by text**: the hexadecimal digits of
the symbol's address, read afterwards in the radix of the statement. So `DEC` reads the digits
of an address as a decimal number, and fails where they contain a letter.

A token that is no symbol is read as it stands. When it cannot be read, a first letter decides
whether it was meant as a symbol or as a number.
-/

namespace BasicComputer

/-- An operand token and the address of the symbol that it names, if it names one. -/
structure Operand where
  token : String
  address? : Option Word
  deriving DecidableEq, Repr

/-- A token as the symbols of a table explain it. -/
def SymbolTable.operand (t : SymbolTable) (token : String) : Operand :=
  ⟨token, t.resolve token⟩

namespace Operand

/-- The text that is read for the operand. -/
def text (o : Operand) : String :=
  match o.address? with
  | some address => Numeral.hex address
  | none => o.token

/-- Whether a token starts like a name, with an unaccented letter. -/
def startsWithLetter (token : String) : Bool :=
  token.toList.head?.any Char.isAlpha

/-- Why the text of the operand is no number of the radix. -/
def issue (o : Operand) (radix : Radix) : Issue :=
  match o.address? with
  | some address => .symbolNotNumeric o.token (Numeral.hex address) radix
  | none =>
    if startsWithLetter o.token then .undefinedSymbol o.token else .invalidNumber o.token radix

end Operand

end BasicComputer
