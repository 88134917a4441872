import Mathlib.Tactic.SplitIfs
import BasicComputer.Proofs.InstructionWords
import BasicComputer.Proofs.Reports
import BasicComputer.Proofs.Texts

/-!
# When there is no assembly

A text has no assembly when some line that the second pass reaches is at fault, and a line is at
fault when the sum of a memory reference leaves 32 bits. This module says which lines these are.

* **Overflow** (`Line.Overflows`): a memory reference whose operand is no symbol and spells a number
  that is too large. A symbol is out of the question: its address has 16 bits
  (`referenceSum_address_lt`), even if its name reads as a number that would be too large.
* **One line** (`Line.outcome_eq_error_iff`): a line is at fault exactly when it overflows.
* **A program** (`assembleLines_eq_error_iff`): it has no assembly exactly when a line in front of
  the end is at fault.

The other numbers of an assembly are kept in bounds by construction or wrap on purpose. Three of
them are formed without a check: the sum of a reference to a symbol, the word of a negative number
(`Word.toNat_of_ofInt?`) and the number of a line (`line_le_length`). None leaves its range.
-/

namespace BasicComputer

/-! ## Lines at fault -/

/-- A memory reference whose operand names no symbol and spells a number with which the sum of
pattern, number and indirect bit leaves 32 bits. -/
def Line.Overflows (symbols : SymbolTable) (line : Line) : Prop :=
  ∃ label op token indirect number,
    line = .statement label (.instruction op (some token) indirect) ∧ op.kind = .memory ∧
      symbols.resolve token = none ∧ Numeral.operand? token = some number ∧
        0x100000000 ≤ op.pattern.toNat + number + if indirect then 0x8000 else 0

/-- The sum of a reference to a symbol stays far below 32 bits. -/
theorem referenceSum_address_lt (op : Opcode) (address : Word) (indirect : Bool) :
    referenceSum op address.toNat indirect < 0x100000000 := by
  have hpattern := op.pattern.isLt
  have haddress := address.isLt
  have hbit : Word.indirectBit.toNat = 0x8000 := rfl
  unfold referenceSum
  rw [hbit]
  split_ifs <;> omega

/-- A reference to a symbol comes to a word, with a warning if the address is large. -/
theorem Line.outcome_reference_of_address {symbols : SymbolTable} {label : Option String}
    {op : Opcode} {token : String} {indirect : Bool} {address : Word}
    (htakes : op.takesOperand = true) (haddress : symbols.resolve token = some address) :
    (statement label (.instruction op (some token) indirect)).outcome symbols =
      .ok (.emitted (BitVec.ofNat 16 (referenceSum op address.toNat indirect))
        (if 0xFFF < address.toNat then some (.operandOverflow op.mnemonic address.toNat)
          else none)) := by
  have hnumber : symbols.number? token = some address.toNat := by
    rw [SymbolTable.number?, haddress]
    rfl
  rw [outcome_reference htakes, Option.map_some, referenceOutcome_operand, hnumber]
  exact if_pos (referenceSum_address_lt op address indirect)

/-- A memory reference is at fault exactly when its operand is a number as it stands, and too
large. -/
theorem referenceOutcome_eq_error_iff {op : Opcode} {indirect : Bool} {symbols : SymbolTable}
    {operand : Option String} {fault : Fault} :
    referenceOutcome op indirect (operand.map symbols.operand) = .error fault ↔
      ∃ token number, operand = some token ∧ symbols.resolve token = none ∧
        Numeral.operand? token = some number ∧ 0x100000000 ≤ referenceSum op number indirect := by
  cases operand with
  | none => exact ⟨nofun, nofun⟩
  | some token =>
      rw [Option.map_some, referenceOutcome_operand, SymbolTable.number?]
      constructor
      · intro h
        cases hresolve : symbols.resolve token with
        | some address =>
            simp [hresolve, referenceSum_address_lt op address indirect] at h
        | none =>
            cases hnumber : Numeral.operand? token with
            | none => simp [hresolve, hnumber] at h
            | some number =>
                refine ⟨token, number, rfl, hresolve, hnumber, ?_⟩
                by_contra hlt
                simp [hresolve, hnumber, Nat.lt_of_not_le hlt] at h
      · rintro ⟨token', number, htoken, hresolve, hnumber, hsum⟩
        cases htoken
        simp only [hresolve, hnumber, Option.map_none, Option.none_or,
          if_neg (Nat.not_lt.mpr hsum)]

/-- **A line is at fault exactly when it overflows.** -/
theorem Line.outcome_eq_error_iff {symbols : SymbolTable} {line : Line} {fault : Fault} :
    line.outcome symbols = .error fault ↔ line.Overflows symbols := by
  constructor
  · intro h
    cases line with
    | blank => exact nomatch h
    | labelOnly label => exact nomatch h
    | statement label body =>
        cases body with
        | org operand => exact nomatch h
        | stop => exact nomatch h
        | data radix operand => exact nomatch h
        | unknown mnemonic operand => exact nomatch h
        | instruction op operand indirect =>
            cases htakes : op.takesOperand with
            | true =>
                rw [outcome_reference htakes, referenceOutcome_eq_error_iff] at h
                obtain ⟨token, number, rfl, hresolve, hnumber, hsum⟩ := h
                exact ⟨label, op, token, indirect, number, rfl, Opcode.takesOperand_iff.mp htakes,
                  hresolve, hnumber, hsum⟩
            | false =>
                rw [outcome_plain htakes] at h
                exact nomatch h
  · rintro ⟨label, op, token, indirect, number, rfl, hkind, hresolve, hnumber, hsum⟩
    rw [outcome_reference (Opcode.takesOperand_iff.mpr hkind), referenceOutcome_eq_error_iff]
    exact ⟨token, number, rfl, hresolve, hnumber, hsum⟩

/-- A line that does not overflow comes to something. -/
theorem Line.exists_outcome_iff {symbols : SymbolTable} {line : Line} :
    (∃ outcome, line.outcome symbols = .ok outcome) ↔ ¬ line.Overflows symbols := by
  rw [← @outcome_eq_error_iff symbols line .additionOverflow]
  cases houtcome : line.outcome symbols with
  | ok outcome => simp
  | error fault => cases fault; simp

/-- **A program has no assembly exactly when a line in front of its end is at fault.** -/
theorem assembleLines_eq_error_iff {policy : BlankLines} {lines : List Line} {fault : Fault} :
    assembleLines policy lines = .error fault ↔
      ∃ line ∈ program lines, line.Overflows (symbolsOf policy lines) := by
  constructor
  · intro h
    by_contra hnone
    have hall : ∀ line ∈ program lines,
        ∃ outcome, line.outcome (symbolsOf policy lines) = .ok outcome := by
      intro line hline
      exact Line.exists_outcome_iff.mpr fun hoverflows => hnone ⟨line, hline, hoverflows⟩
    have hok := assembleLines_eq_ok_iff.mpr ⟨hall, rfl⟩
    rw [h] at hok
    exact nomatch hok
  · rintro ⟨line, hline, hoverflows⟩
    cases hrun : assembleLines policy lines with
    | ok a =>
        have hok := (assembleLines_eq_ok_iff.mp hrun).1 line hline
        exact absurd hoverflows (Line.exists_outcome_iff.mp hok)
    | error fault' =>
        cases fault
        cases fault'
        rfl

/-- If some line of the program has no outcome, the assembly stops. -/
theorem assembleLines_eq_error_of_not_forall {policy : BlankLines} {lines : List Line}
    (h : ¬ ∀ line ∈ program lines, ∃ outcome, line.outcome (symbolsOf policy lines) = .ok outcome) :
    assembleLines policy lines = .error .additionOverflow := by
  simp only [Line.exists_outcome_iff, not_forall, not_not] at h
  obtain ⟨line, hline, hoverflows⟩ := h
  exact assembleLines_eq_error_iff.mpr ⟨line, hline, hoverflows⟩

/-! ## The numbers that are formed without a check -/

/-- The word of a number is the number itself, or the number plus `2 ^ 16` if it is negative. -/
theorem Word.toNat_of_ofInt? {value : Int} {word : Word} (h : Word.ofInt? value = some word) :
    (word.toNat : Int) = if value < 0 then 0x10000 + value else value := by
  unfold Word.ofInt? at h
  split_ifs at h with hrange
  cases h
  rw [BitVec.toNat_ofInt]
  split_ifs <;> omega

/-- An assembly reports on lines of the text only, and a text has no more lines than characters. -/
theorem line_le_length {policy : BlankLines} {source : String} {a : Assembly}
    (h : assemble policy source = .ok a) {d : Diagnostic} (hd : d ∈ a.diagnostics) :
    1 ≤ d.line ∧ d.line ≤ source.length := by
  rw [diagnostics_eq_lineReports h] at hd
  obtain ⟨hpos, hle⟩ := line_le_of_mem_lineReports hd
  rw [sourceLines, List.length_map] at hle
  exact ⟨hpos, Nat.le_trans hle (Text.length_lines_le source)⟩

/-! ## Texts without an assembly -/

/-- **Exactly when there is no assembly.** A text has no assembly if and only if a line in front of
the end is a memory reference whose operand names no symbol and spells a number that is too large
for the sum; whatever else a text holds, it has one. So an `ORG`, a number to store and an operand
that names a symbol are never at fault. The numbers that are formed without a check stay in their
ranges: the word of a number is the number itself or, below zero, the number plus `2 ^ 16`, and the
number of a line is at most the length of the text. -/
theorem assembly_stops_iff_overflow (policy : BlankLines) (source : String) :
    let lines := sourceLines source
    let symbols := symbolsOf policy lines
    let overflow := ∃ line ∈ program lines, line.Overflows symbols
    (assemble policy source = .error .additionOverflow ↔ overflow) ∧
    ((∃ a, assemble policy source = .ok a) ↔ ¬ overflow) ∧
    (∀ line : Line, (line.isOrg = true ∨
        (∃ label radix operand, line = .statement label (.data radix operand)) ∨
        ∃ token address, line.operand? = some token ∧ symbols.resolve token = some address) →
      ∃ outcome, line.outcome symbols = .ok outcome) ∧
    (∀ value word, Word.ofInt? value = some word →
      (word.toNat : Int) = if value < 0 then 0x10000 + value else value) ∧
    ∀ a, assemble policy source = .ok a →
      ∀ d ∈ a.diagnostics, 1 ≤ d.line ∧ d.line ≤ source.length := by
  intro lines symbols overflow
  have hstops : ∀ fault, assemble policy source = .error fault ↔ overflow :=
    fun fault => assembleLines_eq_error_iff
  refine ⟨hstops _, ?_, ?_, fun value word => Word.toNat_of_ofInt?, fun a ha d => line_le_length ha⟩
  · rw [← hstops .additionOverflow]
    cases assemble policy source with
    | ok a => simp
    | error fault => cases fault; simp
  · intro line hline
    apply Line.exists_outcome_iff.mpr
    rintro ⟨label, op, token, indirect, number, rfl, -, hresolve, -, -⟩
    rcases hline with horg | ⟨label', radix, operand, hdata⟩ | ⟨token', address, htoken, haddress⟩
    · exact nomatch horg
    · exact nomatch hdata
    · cases htoken
      rw [hresolve] at haddress
      exact nomatch haddress

/-- The largest operand fits when nothing is added to it. The indirect bit is too much, but not
behind the end. -/
theorem assembly_stops_iff_overflow_at_bound :
    assemble .skip "AND FFFFFFFF I\n" = .error .additionOverflow ∧
      ∃ a, assemble .skip "AND FFFFFFFF\nEND\nAND FFFFFFFF I\n" = .ok a := by
  have hover : program (sourceLines "AND FFFFFFFF I\n") =
      [.statement none (.instruction .and (some "FFFFFFFF") true)] := by
    decide +kernel
  have hfits : program (sourceLines "AND FFFFFFFF\nEND\nAND FFFFFFFF I\n") =
      [.statement none (.instruction .and (some "FFFFFFFF") false)] := by
    decide +kernel
  have hnumber : Numeral.operand? "FFFFFFFF" = some 0xFFFFFFFF := by
    decide +kernel
  constructor
  · apply (assembly_stops_iff_overflow .skip _).1.mpr
    rw [hover]
    exact ⟨_, List.mem_singleton_self _, none, .and, "FFFFFFFF", true, 0xFFFFFFFF, rfl, by decide,
      by decide +kernel, hnumber, by decide⟩
  · apply (assembly_stops_iff_overflow .skip _).2.1.mpr
    rw [hfits]
    rintro ⟨line, hline, label, op, token, indirect, number, rfl, -, -, hliteral, hsum⟩
    cases List.mem_singleton.mp hline
    cases hnumber.symm.trans hliteral
    exact absurd hsum (by decide)

end BasicComputer
