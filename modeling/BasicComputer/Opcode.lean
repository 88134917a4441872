import BasicComputer.Word

/-!
# The opcodes

The machine has 25 instructions. Each has a mnemonic, and a **pattern**, the word it is
assembled to before an operand is added. The pattern tells the kinds apart:

* a **memory-reference** pattern has its low 12 bits clear, which leaves room for an address;
* of the others, those whose four high bits are all set drive the **input and output** devices;
* the rest are **register-reference** instructions.

Only memory-reference instructions take an operand. `Opcode.all` lists the opcodes in the
order of the table; mnemonics and patterns are pairwise distinct, so the searches below find
at most one.
-/

namespace BasicComputer

/-- What the word of an instruction refers to. -/
inductive Opcode.Kind where
  | memory
  | register
  | device
  deriving DecidableEq, Repr

/-- The instructions of the machine. -/
inductive Opcode where
  | and | add | lda | sta | bun | bsa | isz
  | cla | cle | cma | cme | cir | cil | inc | spa | sna | sza | sze | hlt
  | inp | out | ski | sko | ion | iof
  deriving DecidableEq, Repr

namespace Opcode

/-- Every opcode, in the order of the table. -/
def all : List Opcode :=
  [and, add, lda, sta, bun, bsa, isz,
   cla, cle, cma, cme, cir, cil, inc, spa, sna, sza, sze, hlt,
   inp, out, ski, sko, ion, iof]

/-- The name of the instruction in source text. -/
def mnemonic : Opcode → String
  | and => "AND" | add => "ADD" | lda => "LDA" | sta => "STA"
  | bun => "BUN" | bsa => "BSA" | isz => "ISZ"
  | cla => "CLA" | cle => "CLE" | cma => "CMA" | cme => "CME" | cir => "CIR" | cil => "CIL"
  | inc => "INC" | spa => "SPA" | sna => "SNA" | sza => "SZA" | sze => "SZE" | hlt => "HLT"
  | inp => "INP" | out => "OUT" | ski => "SKI" | sko => "SKO" | ion => "ION" | iof => "IOF"

/-- The word of the instruction without an operand. -/
def pattern : Opcode → Word
  | and => 0x0000 | add => 0x1000 | lda => 0x2000 | sta => 0x3000
  | bun => 0x4000 | bsa => 0x5000 | isz => 0x6000
  | cla => 0x7800 | cle => 0x7400 | cma => 0x7200 | cme => 0x7100 | cir => 0x7080 | cil => 0x7040
  | inc => 0x7020 | spa => 0x7010 | sna => 0x7008 | sza => 0x7004 | sze => 0x7002 | hlt => 0x7001
  | inp => 0xF800 | out => 0xF400 | ski => 0xF200 | sko => 0xF100 | ion => 0xF080 | iof => 0xF040

/-- The kind of an instruction, read off its pattern. -/
def kind (op : Opcode) : Kind :=
  if op.pattern &&& Word.addressMask = 0 then .memory
  else if op.pattern &&& Word.operationMask = Word.operationMask then .device
  else .register

/-- Whether the instruction is written with an operand. -/
def takesOperand (op : Opcode) : Bool :=
  op.kind = .memory

/-- The name of the kind in structured output. -/
def Kind.tag : Kind → String
  | memory => "MemoryRef"
  | register => "RegisterRef"
  | device => "Io"

/-! ## Searching the table -/

/-- The opcode with the given mnemonic, in exactly that case. -/
def ofMnemonic? (mnemonic : String) : Option Opcode :=
  all.find? (·.mnemonic = mnemonic)

/-- The opcode with the given pattern, of whatever kind. -/
def ofPattern? (pattern : Word) : Option Opcode :=
  all.find? (·.pattern = pattern)

/-- The memory-reference opcode with the given pattern. -/
def memoryOfPattern? (pattern : Word) : Option Opcode :=
  all.find? fun op => op.takesOperand && op.pattern = pattern

/-- Nothing is missing from the table. -/
theorem mem_all (op : Opcode) : op ∈ all := by
  cases op <;> decide

/-- No two operations share a mnemonic. -/
theorem mnemonic_injective {a b : Opcode} (h : a.mnemonic = b.mnemonic) : a = b := by
  revert h
  cases a <;> cases b <;> decide

/-- No two operations share a pattern. -/
theorem pattern_injective {a b : Opcode} (h : a.pattern = b.pattern) : a = b := by
  revert h
  cases a <;> cases b <;> decide

end Opcode

end BasicComputer
