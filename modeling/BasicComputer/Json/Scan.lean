import BasicComputer.Numeral.Read

/-!
# Scanning JSON text

Readers for the pieces of a JSON document. Each takes the characters in front of it and gives
what it read with the characters behind it, or nothing if the text is not as it should be.

A value that nobody asks for is checked and passed over by `skipValue`, however deep it is
nested. A string has two sides: as a literal it is well formed or not, and it stands for a text
only if its escapes leave no half of a surrogate pair alone. A value that is passed over need
only be well formed, so `scanString` gives the code points and `textOf?` is asked separately.
-/

namespace BasicComputer.Json

/-- Whether a character may stand between the tokens of a document. -/
def isSpace (c : Char) : Bool :=
  c = ' ' || c = '\t' || c = '\n' || c = '\r'

/-- Passes over the spaces in front. -/
def skipSpace (cs : List Char) : List Char :=
  cs.dropWhile isSpace

/-- Passes over spaces and then exactly the given characters. -/
def expect (token : List Char) (cs : List Char) : Option (List Char) :=
  let cs := skipSpace cs
  if token.isPrefixOf cs then some (cs.drop token.length) else none

/-! ## Strings -/

/-- The code point of a character behind a backslash. -/
def escapedPoint? : Char → Option Nat
  | '"' => some 0x22
  | '\\' => some 0x5C
  | '/' => some 0x2F
  | 'b' => some 0x08
  | 'f' => some 0x0C
  | 'n' => some 0x0A
  | 'r' => some 0x0D
  | 't' => some 0x09
  | _ => none

/-- Reads a string literal behind its opening quotation mark. A numeric escape counts as the
16-bit unit that it is, so a pair of surrogates gives two code points here. -/
def scanPoints : List Char → Option (List Nat × List Char)
  | [] => none
  | '"' :: rest => some ([], rest)
  | '\\' :: 'u' :: a :: b :: c :: d :: rest => do
    let unit ← Numeral.accumulate? .hex 0 [a, b, c, d]
    let (points, rest) ← scanPoints rest
    return (unit :: points, rest)
  | '\\' :: c :: rest => do
    let point ← escapedPoint? c
    let (points, rest) ← scanPoints rest
    return (point :: points, rest)
  | c :: rest =>
    if c.toNat < 0x20 ∨ c = '\\' then none
    else do
      let (points, rest) ← scanPoints rest
      return (c.toNat :: points, rest)

/-- Reads a string literal. -/
def scanString (cs : List Char) : Option (List Nat × List Char) := do
  scanPoints (← expect ['"'] cs)

/-- Whether a code point is the first half of a pair. -/
def isHighSurrogate (point : Nat) : Bool :=
  0xD800 ≤ point && point ≤ 0xDBFF

/-- Whether a code point is the second half of a pair. -/
def isLowSurrogate (point : Nat) : Bool :=
  0xDC00 ≤ point && point ≤ 0xDFFF

/-- The characters of code points in which every surrogate has its partner. -/
def charsOf? : List Nat → Option (List Char)
  | [] => some []
  | [point] =>
    if isHighSurrogate point || isLowSurrogate point then none else some [Char.ofNat point]
  | point :: next :: rest =>
    if isHighSurrogate point then
      if isLowSurrogate next then
        (charsOf? rest).map
          (Char.ofNat (0x10000 + (point - 0xD800) * 0x400 + (next - 0xDC00)) :: ·)
      else none
    else if isLowSurrogate point then none
    else (charsOf? (next :: rest)).map (Char.ofNat point :: ·)

/-- Reads a string literal that stands for a text. -/
def scanText (cs : List Char) : Option (String × List Char) := do
  let (points, rest) ← scanString cs
  return (String.ofList (← charsOf? points), rest)

/-! ## Values that are passed over -/

/-- Whether a character is a decimal digit. -/
def isDigit (c : Char) : Bool :=
  '0' ≤ c && c ≤ '9'

/-- Passes over one digit or more. -/
def skipDigits : List Char → Option (List Char)
  | c :: rest => if isDigit c then some (rest.dropWhile isDigit) else none
  | [] => none

/-- Passes over the fraction of a number, if there is one. -/
def skipFraction : List Char → Option (List Char)
  | '.' :: rest => skipDigits rest
  | cs => some cs

/-- Passes over the exponent of a number, if there is one. -/
def skipExponent : List Char → Option (List Char)
  | 'e' :: '+' :: rest | 'e' :: '-' :: rest | 'E' :: '+' :: rest | 'E' :: '-' :: rest =>
    skipDigits rest
  | 'e' :: rest | 'E' :: rest => skipDigits rest
  | cs => some cs

/-- Passes over a number. A leading zero is a number of its own, so a digit behind it is left
over and fits nowhere. -/
def skipNumber (cs : List Char) : Option (List Char) := do
  let unsigned := match cs with
    | '-' :: rest => rest
    | cs => cs
  let behind ← match unsigned with
    | '0' :: rest => some rest
    | cs => skipDigits cs
  skipExponent (← skipFraction behind)

mutual

/-- Passes over a value; every step into a value or along a list takes one unit of fuel. -/
def skipValueWith : Nat → List Char → Option (List Char)
  | 0, _ => none
  | fuel + 1, cs =>
    match skipSpace cs with
    | 'n' :: 'u' :: 'l' :: 'l' :: rest => some rest
    | 't' :: 'r' :: 'u' :: 'e' :: rest => some rest
    | 'f' :: 'a' :: 'l' :: 's' :: 'e' :: rest => some rest
    | '"' :: rest => (scanPoints rest).map (·.2)
    | '[' :: rest =>
      match expect [']'] rest with
      | some rest => some rest
      | none => skipItems fuel rest
    | '\x7b' :: rest =>
      match expect ['\x7d'] rest with
      | some rest => some rest
      | none => skipFields fuel rest
    | cs => skipNumber cs

/-- Passes over one item or more and the bracket that closes them. -/
def skipItems : Nat → List Char → Option (List Char)
  | 0, _ => none
  | fuel + 1, cs => do
    let cs ← skipValueWith fuel cs
    match expect [','] cs with
    | some rest => skipItems fuel rest
    | none => expect [']'] cs

/-- Passes over one field or more and the brace that closes them. -/
def skipFields : Nat → List Char → Option (List Char)
  | 0, _ => none
  | fuel + 1, cs => do
    let (_, cs) ← scanString cs
    let cs ← skipValueWith fuel (← expect [':'] cs)
    match expect [','] cs with
    | some rest => skipFields fuel rest
    | none => expect ['\x7d'] cs

end

/-- Passes over a value. A character is read by at most two steps, one into a list and one into
its first member, so the fuel does not run out on a text of this length. -/
def skipValue (cs : List Char) : Option (List Char) :=
  skipValueWith (2 * cs.length + 2) cs

end BasicComputer.Json
