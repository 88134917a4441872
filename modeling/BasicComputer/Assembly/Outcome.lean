import BasicComputer.Line.Basic
import BasicComputer.Operand

/-!
# What a line comes to

With all symbols known, every line has one **outcome**, which does not depend on its address: it
emits a word, it moves the location counter, it fails with an error, or it is idle. An outcome
carries at most one issue, and an emitted word or a move may carry a warning.

A memory-reference word is a sum of pattern, operand and indirect bit. The sum is formed in 32
bits and its low 16 are kept. A sum that leaves even the 32 bits is a `Fault`: it is no issue
of a line, and there is no assembly.
-/

namespace BasicComputer

/-- What brings an assembly to a stop. -/
inductive Fault where
  /-- The sum of an instruction and its operand exceeds 32 bits. -/
  | additionOverflow
  deriving DecidableEq, Repr

/-- The text of a fault. -/
def Fault.message : Fault → String
  | additionOverflow => "attempt to add with overflow"

/-- What a line comes to once all symbols are known. -/
inductive Outcome where
  /-- The word of the line, at the line's address. -/
  | emitted (word : Word) (warning : Option Issue)
  /-- The location counter goes to the target. -/
  | moved (target : Word) (warning : Option Issue)
  | failed (error : Issue)
  | idle (warning : Option Issue)
  deriving DecidableEq, Repr

namespace Outcome

/-- The issue of the line. -/
def issue? : Outcome → Option Issue
  | emitted _ warning => warning
  | moved _ warning => warning
  | failed error => some error
  | idle warning => warning

/-- The word of the line. -/
def word? : Outcome → Option Word
  | emitted word _ => some word
  | _ => none

/-- Where the line moves the counter. -/
def target? : Outcome → Option Word
  | moved target _ => some target
  | _ => none

end Outcome

/-! ## The kinds of line -/

/-- What an `ORG` comes to. A symbol that names another place than its own spelling does is
worth a warning: the first pass did not go there. -/
def orgOutcome : Option Operand → Outcome
  | none => .failed (.missingOperand "ORG")
  | some operand =>
    match Numeral.word? operand.text with
    | none => .failed (operand.issue .hex)
    | some target =>
      let detour := operand.address?.isSome ∧ Numeral.word? operand.token ≠ some target
      .moved target (if detour then some (.orgThroughSymbol operand.token target) else none)

/-- What a number in the given radix comes to. -/
def dataOutcome (radix : Radix) : Option Operand → Outcome
  | none => .failed (.missingOperand radix.mnemonic)
  | some operand =>
    match Numeral.signed? radix operand.text with
    | none => .failed (operand.issue radix)
    | some value =>
      match Word.ofInt? value with
      | some word => .emitted word none
      | none => .failed (.valueOutOfRange value)

/-- The sum that a memory reference is assembled to. -/
def referenceSum (op : Opcode) (operand : Nat) (indirect : Bool) : Nat :=
  op.pattern.toNat + operand + if indirect then Word.indirectBit.toNat else 0

/-- What a memory-reference instruction comes to. -/
def referenceOutcome (op : Opcode) (indirect : Bool) : Option Operand → Except Fault Outcome
  | none => .ok (.failed (.missingOperand op.mnemonic))
  | some operand =>
    match Numeral.operand? operand.text with
    | none => .ok (.failed (operand.issue .hex))
    | some number =>
      let sum := referenceSum op number indirect
      let overflow := Word.addressMask.toNat < number
      if sum < 0x100000000 then
        .ok (.emitted (BitVec.ofNat 16 sum)
          (if overflow then some (.operandOverflow op.mnemonic number) else none))
      else .error .additionOverflow

/-- What an instruction without operand comes to; an operand that is given is ignored. -/
def plainOutcome (op : Opcode) (operand : Option Operand) : Outcome :=
  .emitted op.pattern (operand.map fun o => .ignoredOperand op.mnemonic o.token)

/-- What a line comes to. A line that ends the program is idle. -/
def Line.outcome (symbols : SymbolTable) : Line → Except Fault Outcome
  | blank => .ok (.idle none)
  | labelOnly label => .ok (.idle (some (.missingMnemonic label)))
  | statement _ body =>
    let operand := body.operand?.map symbols.operand
    match body with
    | .org _ => .ok (orgOutcome operand)
    | .stop => .ok (.idle none)
    | .data radix _ => .ok (dataOutcome radix operand)
    | .instruction op _ indirect =>
      if op.takesOperand then referenceOutcome op indirect operand
      else .ok (plainOutcome op operand)
    | .unknown mnemonic _ => .ok (.failed (.unknownMnemonic mnemonic))

end BasicComputer
