import BasicComputer.Opcode
import BasicComputer.Numeral.Write

/-!
# Decoding words

A word is read in the first of four ways that fits: exactly as a register-reference or
input-output instruction, as a memory reference, as an indirect memory reference, or as data.
The first reading is tried only for words with some of the low 12 bits set, since a word with
none of them is the pattern of a memory reference to address 0.

`Decoded.text` is the statement that assembles to the word again.
-/

namespace BasicComputer

/-- What a word says. -/
inductive Decoded where
  /-- A register-reference or input-output instruction. -/
  | register (op : Opcode)
  | memory (op : Opcode) (address : Word) (indirect : Bool)
  /-- No instruction has this word. -/
  | data (value : Word)
  deriving DecidableEq, Repr

namespace Decoded

/-- The reading of a word as a memory reference, direct if possible, and otherwise as data. -/
def ofReference (word : Word) : Decoded :=
  let address := word &&& Word.addressMask
  match Opcode.memoryOfPattern? (word &&& Word.operationMask) with
  | some op => .memory op address false
  | none =>
    match Opcode.memoryOfPattern? ((word - Word.indirectBit) &&& Word.operationMask) with
    | some op => .memory op address true
    | none => .data word

/-- The reading of a word. -/
def ofWord (word : Word) : Decoded :=
  if word &&& Word.addressMask = 0 then ofReference word
  else
    match Opcode.ofPattern? word with
    | some op => .register op
    | none => ofReference word

/-- The mnemonic of the instruction, if the word is one. -/
def mnemonic? : Decoded → Option String
  | register op => some op.mnemonic
  | memory op _ _ => some op.mnemonic
  | data _ => none

/-- The statement that stands for the word in source text. -/
def text : Decoded → String
  | register op => op.mnemonic
  | memory op address false => op.mnemonic ++ " " ++ Numeral.hex address
  | memory op address true => op.mnemonic ++ " " ++ Numeral.hex address ++ " I"
  | data value => "HEX " ++ Numeral.hex value

end Decoded

end BasicComputer
