/-!
# Machine words

A memory cell holds a **word** of 16 bits, and a cell is named by an address that is a word too.
A memory-reference instruction keeps its operation in the upper four bits, whose first is the
**indirect bit**, and a 12-bit address below them.

Addition on words wraps, which is what a location counter does. Two operations that must not
wrap are given beside it: the next address of a run of cells (`Word.next?`) and the word of a
signed number (`Word.ofInt?`).
-/

namespace BasicComputer

/-- A cell's content, and the name of a cell. -/
abbrev Word := BitVec 16

namespace Word

/-- The bits of a memory-reference word that hold its address. -/
def addressMask : Word := 0x0FFF

/-- The bits of a memory-reference word that hold its operation and the indirect bit. -/
def operationMask : Word := 0xF000

/-- Set when the addressed cell holds the address of the operand, and not the operand. -/
def indirectBit : Word := 0x8000

/-- The address of the following cell; the last cell has none. -/
def next? (address : Word) : Option Word :=
  if address = 0xFFFF then none else some (address + 1)

/-- The word of a number: an unsigned word as it is, a negative one in two's complement.
Whatever has neither form is no word. -/
def ofInt? (value : Int) : Option Word :=
  if -0x8000 ≤ value ∧ value ≤ 0xFFFF then some (BitVec.ofInt 16 value) else none

end Word

end BasicComputer
