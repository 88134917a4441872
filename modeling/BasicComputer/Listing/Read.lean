import BasicComputer.Diagnostic
import BasicComputer.Listing.Basic
import BasicComputer.Numeral.Read
import BasicComputer.Text.Blank

/-!
# Reading a listing

A line with a colon is an entry: a hexadecimal address before the first colon and a hexadecimal
word behind it, with blank characters around either. A line without a colon is no entry and no
mistake. An entry whose address or word cannot be read gives one diagnostic, for the address if
both are wrong, and no other line notices.
-/

namespace BasicComputer

namespace Entry

/-- Reads an address or a word of an entry, blank characters around it left aside. -/
def readField (field : List Char) : Except Issue Word :=
  let token := String.ofList (Text.trim field)
  match Numeral.word? token with
  | some word => .ok word
  | none => .error (.invalidNumber token .hex)

/-- Reads a line of a listing; a line without a colon is nothing. -/
def ofLine? (line : String) : Option (Except Issue Entry) :=
  match line.toList.dropWhile (· ≠ ':') with
  | [] => none
  | _ :: value => some do
    let address ← readField (line.toList.takeWhile (· ≠ ':'))
    return ⟨address, ← readField value⟩

end Entry

/-- What a text holds as a listing. -/
structure ListingReading where
  listing : Listing
  diagnostics : List Diagnostic
  deriving DecidableEq, Repr

namespace Listing

/-- The entries and the issues of numbered lines. -/
def readLines : List (String × Nat) → List Entry × List Diagnostic
  | [] => ([], [])
  | (line, number) :: rest =>
    let (entries, diagnostics) := readLines rest
    match Entry.ofLine? line with
    | none => (entries, diagnostics)
    | some (.ok entry) => (entry :: entries, diagnostics)
    | some (.error issue) => (entries, ⟨number, issue⟩ :: diagnostics)

/-- Reads a text as a listing. -/
def read (text : String) : ListingReading :=
  let (entries, diagnostics) := readLines ((Text.lines text).zipIdx 1)
  ⟨⟨entries⟩, diagnostics⟩

end Listing

end BasicComputer
