/-!
# Radices

Numbers are written in one of two **radices**. Addresses and words are hexadecimal wherever
they appear; only the operand of `DEC` is decimal. A radix has one name in messages and a
shorter one in structured output.
-/

namespace BasicComputer

/-- The base in which a numeral is written. -/
inductive Radix where
  | decimal
  | hex
  deriving DecidableEq, Repr

namespace Radix

/-- How many digits the radix has. -/
def base : Radix → Nat
  | decimal => 10
  | hex => 16

/-- The name of the radix in a message. -/
def name : Radix → String
  | decimal => "decimal"
  | hex => "hexadecimal"

/-- The name of the radix in structured output. -/
def tag : Radix → String
  | decimal => "decimal"
  | hex => "hex"

/-- Every radix, in the order of the bases. -/
def all : List Radix := [decimal, hex]

/-- Every radix has at least two digits. -/
theorem one_lt_base (radix : Radix) : 1 < radix.base := by
  cases radix <;> decide

end Radix

end BasicComputer
