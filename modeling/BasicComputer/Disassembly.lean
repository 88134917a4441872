import BasicComputer.Decoded
import BasicComputer.Listing.Read

/-!
# Disassembly

A listing is turned back into source lines: the statement of each word, and an `ORG` wherever an
address does not follow the one before it. The last address has no follower, so an entry at
address 0 behind one at `FFFF` gets an `ORG` too, and so does the first entry of all.

Every line is indented to the column of the mnemonics. The lines hold no labels.
-/

namespace BasicComputer

/-- A line of source text made from a listing. -/
inductive SourceLine where
  | org (address : Word)
  | code (decoded : Decoded)
  deriving DecidableEq, Repr

/-- The text of a line, without indent. -/
def SourceLine.text : SourceLine → String
  | org address => "ORG " ++ Numeral.hex address
  | code decoded => decoded.text

/-- The source lines of a listing, and what could not be read of it. -/
structure Disassembly where
  lines : List SourceLine
  diagnostics : List Diagnostic
  deriving DecidableEq, Repr

namespace Disassembly

/-- The source lines of entries that come where the address `expected` would follow. -/
def linesFrom (expected : Option Word) : List Entry → List SourceLine
  | [] => []
  | e :: rest =>
    let code := .code (.ofWord e.value) :: linesFrom (Word.next? e.address) rest
    if expected = some e.address then code else .org e.address :: code

/-- The source lines of entries. -/
def linesOf (entries : List Entry) : List SourceLine :=
  linesFrom none entries

/-- The disassembly of a listing that is given as text. -/
def ofText (text : String) : Disassembly :=
  let reading := Listing.read text
  ⟨linesOf reading.listing.entries, reading.diagnostics⟩

/-- The column of the mnemonics, behind the room for a label. -/
def indent : String := "     "

/-- The disassembly as source text. -/
def render (d : Disassembly) : String :=
  Text.unlines (d.lines.map (indent ++ ·.text))

end Disassembly

end BasicComputer
