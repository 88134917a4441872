import BasicComputer.Assembly.Basic
import BasicComputer.Disassembly
import BasicComputer.Json.Value

/-!
# Reports in JSON

The structured form of an assembly and of a disassembly, with everything in them. The names and
the order of the fields are those of the report; the order matters to whoever compares texts.
-/

namespace BasicComputer

/-- The address and the word. -/
def Entry.toJson (e : Entry) : Json :=
  .object [("address", .word e.address), ("value", .word e.value)]

/-- The entries in order. -/
def Listing.toJson (l : Listing) : Json :=
  .array (l.entries.map Entry.toJson)

/-- The name and the address. -/
def Symbol.toJson (s : Symbol) : Json :=
  .object [("name", .string s.name), ("address", .word s.address)]

/-- The definitions in order. -/
def SymbolTable.toJson (t : SymbolTable) : Json :=
  .array (t.toList.map Symbol.toJson)

/-- The name of the kind of an issue. -/
def Issue.tag : Issue → String
  | unknownMnemonic _ => "unknown_mnemonic"
  | missingMnemonic _ => "missing_mnemonic"
  | missingOperand _ => "missing_operand"
  | invalidNumber _ _ => "invalid_number"
  | symbolNotNumeric _ _ _ => "symbol_not_numeric"
  | orgThroughSymbol _ _ => "org_through_symbol"
  | undefinedSymbol _ => "undefined_symbol"
  | invalidLabel _ => "invalid_label"
  | operandOverflow _ _ => "operand_overflow"
  | ignoredOperand _ _ => "ignored_operand"
  | valueOutOfRange _ => "value_out_of_range"

/-- What an issue says beyond its kind. -/
def Issue.fields : Issue → List (String × Json)
  | unknownMnemonic mnemonic => [("mnemonic", .string mnemonic)]
  | missingMnemonic label => [("label", .string label)]
  | missingOperand mnemonic => [("mnemonic", .string mnemonic)]
  | invalidNumber token radix => [("token", .string token), ("radix", .string radix.tag)]
  | symbolNotNumeric symbol text radix =>
    [("symbol", .string symbol), ("text", .string text), ("radix", .string radix.tag)]
  | orgThroughSymbol symbol address => [("symbol", .string symbol), ("address", .word address)]
  | undefinedSymbol symbol => [("symbol", .string symbol)]
  | invalidLabel label => [("label", .string label)]
  | operandOverflow mnemonic operand =>
    [("mnemonic", .string mnemonic), ("operand", .number operand)]
  | ignoredOperand mnemonic operand =>
    [("mnemonic", .string mnemonic), ("operand", .string operand)]
  | valueOutOfRange value => [("value", .number value)]

/-- The line, the severity, the kind of the issue and its fields. -/
def Diagnostic.toJson (d : Diagnostic) : Json :=
  .object ([("line", .number d.line), ("severity", .string d.severity.name),
    ("kind", .string d.issue.tag)] ++ d.issue.fields)

/-- The table entry of an opcode. -/
def Opcode.toJson (op : Opcode) : Json :=
  .object [("mnemonic", .string op.mnemonic), ("pattern", .word op.pattern),
    ("class", .string op.kind.tag)]

/-- The reading of a word. -/
def Decoded.toJson : Decoded → Json
  | register op => .object [("class", .string "register"), ("opcode", op.toJson)]
  | memory op address indirect =>
    .object [("class", .string "memory"), ("opcode", op.toJson), ("address", .word address),
      ("indirect", .bool indirect)]
  | data value => .object [("class", .string "data"), ("value", .word value)]

/-- A line of a disassembly. -/
def SourceLine.toJson : SourceLine → Json
  | org address => .object [("line", .string "org"), ("address", .word address)]
  | code decoded => .object [("line", .string "code"), ("decoded", decoded.toJson)]

/-- The report of an assembly. -/
def Assembly.toJson (a : Assembly) : Json :=
  .object [("listing", a.listing.toJson), ("symbols", a.symbols.toJson),
    ("diagnostics", .array (a.diagnostics.map Diagnostic.toJson))]

/-- The report of a disassembly. -/
def Disassembly.toJson (d : Disassembly) : Json :=
  .object [("lines", .array (d.lines.map SourceLine.toJson)),
    ("diagnostics", .array (d.diagnostics.map Diagnostic.toJson))]

end BasicComputer
