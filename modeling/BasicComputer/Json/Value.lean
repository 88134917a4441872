import BasicComputer.Numeral.Write

/-!
# JSON output

A JSON value that is to be written, and its text: fields in the order in which they are given,
one field or item a line, two spaces of indent for each level, and nothing between the brackets
of an empty array or object. Strings escape the quotation mark, the backslash and the control
characters below U+0020, and nothing else.
-/

namespace BasicComputer

/-- A value to be written as JSON. -/
inductive Json where
  | bool (value : Bool)
  | number (value : Int)
  | string (value : String)
  | array (items : List Json)
  | object (fields : List (String × Json))
  deriving Repr

namespace Json

/-- A word as a number. -/
def word (w : Word) : Json :=
  .number w.toNat

/-- A character inside a string literal. -/
def escape (c : Char) : List Char :=
  match c with
  | '"' => ['\\', '"']
  | '\\' => ['\\', '\\']
  | '\n' => ['\\', 'n']
  | '\r' => ['\\', 'r']
  | '\t' => ['\\', 't']
  | '\x08' => ['\\', 'b']
  | '\x0c' => ['\\', 'f']
  | _ =>
    if c.toNat < 0x20 then
      -- Two hexadecimal digits in lower case; the first is 0 or 1.
      ['\\', 'u', '0', '0', Numeral.digitChar (c.toNat / 16),
        (Numeral.digitChar (c.toNat % 16)).toLower]
    else [c]

/-- A string literal. -/
def quoted (text : String) : String :=
  "\"" ++ String.ofList (text.toList.flatMap escape) ++ "\""

/-- The blanks in front of a line at a level. -/
def indent (level : Nat) : String :=
  String.ofList (List.replicate (2 * level) ' ')

mutual

/-- The text of a value whose first line is already indented to its level. -/
def renderAt (level : Nat) : Json → String
  | bool true => "true"
  | bool false => "false"
  | number value => Numeral.writeInt value
  | string value => quoted value
  | array [] => "[]"
  | array items => "[\n" ++ renderItems (level + 1) items ++ "\n" ++ indent level ++ "]"
  | object [] => "\x7b\x7d"
  | object fields => "\x7b\n" ++ renderFields (level + 1) fields ++ "\n" ++ indent level ++ "\x7d"

/-- The lines of the items of an array. -/
def renderItems (level : Nat) : List Json → String
  | [] => ""
  | [item] => indent level ++ renderAt level item
  | item :: rest => indent level ++ renderAt level item ++ ",\n" ++ renderItems level rest

/-- The lines of the fields of an object. -/
def renderFields (level : Nat) : List (String × Json) → String
  | [] => ""
  | [(name, value)] => indent level ++ quoted name ++ ": " ++ renderAt level value
  | (name, value) :: rest =>
    indent level ++ quoted name ++ ": " ++ renderAt level value ++ ",\n" ++
      renderFields level rest

end

/-- The text of a value, without a line feed at its end. -/
def render (value : Json) : String :=
  renderAt 0 value

end Json

end BasicComputer
