import BasicComputer.Word
import BasicComputer.Numeral.Radix

/-!
# Reading numerals

A numeral is a non-empty run of digits of its radix in either case, with any number of leading
zeros, behind at most one sign. A minus sign is a sign only where negative numbers are; an
unsigned numeral with one is refused, `-0` included.

Every reader also has **bounds**, and a numeral whose value lies outside them is refused in the
same way as text that is no numeral: words are below `2 ^ 16`, instruction operands below
`2 ^ 32`, and data values are signed 64-bit numbers. The value itself is exact before the bounds
are checked.
-/

namespace BasicComputer.Numeral

/-- The value of a digit of the radix. -/
def digit? (radix : Radix) (c : Char) : Option Nat :=
  let n := c.toNat
  let value? :=
    if '0'.toNat ≤ n ∧ n ≤ '9'.toNat then some (n - '0'.toNat)
    else if 'A'.toNat ≤ n ∧ n ≤ 'F'.toNat then some (n - 'A'.toNat + 10)
    else if 'a'.toNat ≤ n ∧ n ≤ 'f'.toNat then some (n - 'a'.toNat + 10)
    else none
  value?.filter (· < radix.base)

/-- The value of a run of digits behind digits that came to `value`. -/
def accumulate? (radix : Radix) : Nat → List Char → Option Nat
  | value, [] => some value
  | value, c :: rest =>
    match digit? radix c with
    | some d => accumulate? radix (radix.base * value + d) rest
    | none => none

/-- The value of a non-empty run of digits. -/
def natural? (radix : Radix) : List Char → Option Nat
  | [] => none
  | cs => accumulate? radix 0 cs

/-- Reads an unsigned numeral of a value below `bound`. -/
def unsigned? (radix : Radix) (bound : Nat) (text : String) : Option Nat :=
  let value? :=
    match text.toList with
    | '+' :: rest => natural? radix rest
    | cs => natural? radix cs
  value?.filter (· < bound)

/-- Reads a signed 64-bit numeral. -/
def signed? (radix : Radix) (text : String) : Option Int :=
  let value? : Option Int :=
    match text.toList with
    | '-' :: rest => (natural? radix rest).map fun n => -(n : Int)
    | '+' :: rest => (natural? radix rest).map Int.ofNat
    | cs => (natural? radix cs).map Int.ofNat
  value?.filter fun v => -0x8000000000000000 ≤ v ∧ v < 0x8000000000000000

/-- Reads a hexadecimal address or word. -/
def word? (text : String) : Option Word :=
  (unsigned? .hex 0x10000 text).map (BitVec.ofNat 16)

/-- Reads the hexadecimal operand of an instruction, which may exceed an address. -/
def operand? (text : String) : Option Nat :=
  unsigned? .hex 0x100000000 text

end BasicComputer.Numeral
