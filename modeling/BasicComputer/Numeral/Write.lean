import BasicComputer.Word
import BasicComputer.Numeral.Radix

/-!
# Writing numerals

A number is written with the fewest digits of its radix, zero as one digit, letters in upper
case. `Numeral.writePadded` puts zeros in front up to a least width and never cuts a digit off.
-/

namespace BasicComputer.Numeral

/-- The character of a digit below sixteen. -/
def digitChar (digit : Nat) : Char :=
  if digit < 10 then Char.ofNat ('0'.toNat + digit) else Char.ofNat ('A'.toNat + (digit - 10))

/-- The digits of a number, the most significant first. -/
def digits (radix : Radix) (n : Nat) : List Char :=
  if n < radix.base then [digitChar n]
  else digits radix (n / radix.base) ++ [digitChar (n % radix.base)]
termination_by n
decreasing_by
  have := radix.one_lt_base
  exact Nat.div_lt_self (by omega) this

/-- The numeral of a number. -/
def write (radix : Radix) (n : Nat) : String :=
  String.ofList (digits radix n)

/-- The numeral of a number with zeros in front, at least `width` characters wide. -/
def writePadded (radix : Radix) (width n : Nat) : String :=
  String.ofList ((digits radix n).leftpad width '0')

/-- The decimal numeral of a number that may be negative. -/
def writeInt (value : Int) : String :=
  if value < 0 then "-" ++ write .decimal value.natAbs else write .decimal value.natAbs

/-- The hexadecimal numeral of a word, without padding. -/
def hex (word : Word) : String :=
  write .hex word.toNat

end BasicComputer.Numeral
