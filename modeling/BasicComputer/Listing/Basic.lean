import BasicComputer.Numeral.Write
import BasicComputer.Text.Lines

/-!
# Listings

A **listing** is what a program comes to: words at addresses, in the order in which they were
produced. Nothing orders the addresses, and an address may occur twice.

An entry is written as its address, a colon, three spaces and its word, with at least three and
four hexadecimal digits.
-/

namespace BasicComputer

/-- A word at an address. -/
structure Entry where
  address : Word
  value : Word
  deriving DecidableEq, Repr

/-- The entry as one line of a listing. -/
def Entry.text (e : Entry) : String :=
  Numeral.writePadded .hex 3 e.address.toNat ++ ":   " ++
    Numeral.writePadded .hex 4 e.value.toNat

/-- The words of a program at their addresses. -/
structure Listing where
  entries : List Entry
  deriving DecidableEq, Repr

namespace Listing

/-- The listing without an entry. -/
def empty : Listing := ⟨[]⟩

/-- The listing with one more entry at its end. -/
def push (l : Listing) (e : Entry) : Listing :=
  ⟨l.entries ++ [e]⟩

/-- The number of entries. -/
def size (l : Listing) : Nat :=
  l.entries.length

/-- Whether there is no entry. -/
def isEmpty (l : Listing) : Bool :=
  l.entries.isEmpty

/-- The words alone, in order. -/
def values (l : Listing) : List Word :=
  l.entries.map (·.value)

/-- The text of a listing, a line for each entry. -/
def render (l : Listing) : String :=
  Text.unlines (l.entries.map Entry.text)

end Listing

end BasicComputer
