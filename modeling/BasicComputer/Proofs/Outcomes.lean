import BasicComputer.Assembly.Labels
import BasicComputer.Assembly.Outcome
import BasicComputer.Proofs.Numerals

/-!
# What a line comes to, without the detour through text

An operand that names a symbol is replaced by text and read again. Here the text is gone: an
operand **denotes** the address of its symbol if it names one and otherwise the number it spells
(`SymbolTable.target?` for a word, `SymbolTable.number?` for an instruction). The outcome of an
`ORG` and of a memory reference are given in these terms, and nothing behind this module looks at
the text of an operand again.

The outcome of a line is cut into three views, `Line.word?`, `Line.issue?` and
`Line.resolvedTarget?`. The last one is not read off the outcome but stated on its own;
`Line.target?_of_outcome` says that the outcome agrees with it.
-/

namespace BasicComputer

/-! ## What an operand denotes -/

namespace SymbolTable

/-- The word that a token denotes: the address of the symbol, or else the number it spells. -/
def target? (symbols : SymbolTable) (token : String) : Option Word :=
  (symbols.resolve token).or (Numeral.word? token)

/-- The number that the operand of an instruction denotes: the address of the symbol, or else the
number it spells, which may exceed a word. -/
def number? (symbols : SymbolTable) (token : String) : Option Nat :=
  ((symbols.resolve token).map BitVec.toNat).or (Numeral.operand? token)

/-- The text of an operand, read as a word, is the target of its token. -/
theorem word?_text_operand (symbols : SymbolTable) (token : String) :
    Numeral.word? (symbols.operand token).text = symbols.target? token := by
  unfold operand Operand.text target?
  cases symbols.resolve token with
  | none => rfl
  | some address => exact Numeral.word?_hex address

/-- The text of an operand, read as a number, is the number of its token. -/
theorem operand?_text_operand (symbols : SymbolTable) (token : String) :
    Numeral.operand? (symbols.operand token).text = symbols.number? token := by
  unfold operand Operand.text number?
  cases symbols.resolve token with
  | none => rfl
  | some address => exact Numeral.operand?_hex address

end SymbolTable

/-! ## The views of an outcome -/

namespace Line

/-- The word that a line emits, if it comes to one. -/
def word? (symbols : SymbolTable) (line : Line) : Option Word :=
  (line.outcome symbols).toOption.bind Outcome.word?

/-- The issue that the second pass reports on a line. -/
def issue? (symbols : SymbolTable) (line : Line) : Option Issue :=
  (line.outcome symbols).toOption.bind Outcome.issue?

/-- Where an `ORG` line moves the counter when the symbols are known. -/
def resolvedTarget? (symbols : SymbolTable) : Line → Option Word
  | statement _ (.org operand) => operand.bind symbols.target?
  | _ => none

/-- The word of a line is the one of its outcome. -/
theorem word?_of_outcome {symbols : SymbolTable} {line : Line} {outcome : Outcome}
    (h : line.outcome symbols = .ok outcome) : line.word? symbols = outcome.word? := by
  rw [word?, h]
  rfl

/-- The issue of a line is the one of its outcome. -/
theorem issue?_of_outcome {symbols : SymbolTable} {line : Line} {outcome : Outcome}
    (h : line.outcome symbols = .ok outcome) : line.issue? symbols = outcome.issue? := by
  rw [issue?, h]
  rfl

/-- An issue of the second pass is the issue of an outcome. -/
theorem exists_outcome_of_issue? {symbols : SymbolTable} {line : Line} {issue : Issue}
    (h : line.issue? symbols = some issue) :
    ∃ outcome, line.outcome symbols = .ok outcome ∧ outcome.issue? = some issue := by
  cases houtcome : line.outcome symbols with
  | error fault => simp [issue?, houtcome, Except.toOption] at h
  | ok outcome => exact ⟨outcome, rfl, issue?_of_outcome houtcome ▸ h⟩

/-- Only an `ORG` line moves the counter of the first pass. -/
theorem literalTarget?_of_not_isOrg {line : Line} (h : line.isOrg = false) :
    line.literalTarget? = none := by
  unfold literalTarget?
  split
  · simp [isOrg] at h
  · rfl

/-- Only an `ORG` line moves the counter of the second pass. -/
theorem resolvedTarget?_of_not_isOrg (symbols : SymbolTable) {line : Line}
    (h : line.isOrg = false) : line.resolvedTarget? symbols = none := by
  unfold resolvedTarget?
  split
  · simp [isOrg] at h
  · rfl

end Line

/-! ## The outcome of an `ORG` -/

/-- An operand that cannot be read is an error. -/
theorem Operand.severity_issue (operand : Operand) (radix : Radix) :
    (operand.issue radix).severity = .error := by
  unfold Operand.issue
  split
  · rfl
  · split <;> rfl

/-- An operand that cannot be read is not reported by a warning. -/
theorem Operand.issue_ne_of_warning (operand : Operand) (radix : Radix) {issue : Issue}
    (h : issue.severity = .warning) : operand.issue radix ≠ issue := by
  rintro rfl
  rw [severity_issue] at h
  exact nomatch h

/-- An `ORG` with an operand moves the counter to what the operand denotes. The warning stands
where the operand is a symbol and does not spell its own address. -/
theorem orgOutcome_operand (symbols : SymbolTable) (token : String) :
    orgOutcome (some (symbols.operand token)) =
      match symbols.target? token with
      | none => .failed ((symbols.operand token).issue .hex)
      | some target =>
        .moved target
          (if (symbols.resolve token).isSome ∧ Numeral.word? token ≠ some target then
            some (.orgThroughSymbol token target) else none) := by
  rw [orgOutcome, SymbolTable.word?_text_operand]
  rfl

/-- An `ORG` moves the counter to the target of its operand. -/
theorem target?_orgOutcome (symbols : SymbolTable) (operand : Option String) :
    (orgOutcome (operand.map symbols.operand)).target? = operand.bind symbols.target? := by
  cases operand with
  | none => rfl
  | some token =>
      rw [Option.map_some, orgOutcome_operand, Option.bind_some]
      cases symbols.target? token <;> rfl

/-- **When an `ORG` is reported as a detour**: its operand names a symbol, and the symbol stands
elsewhere than the name reads as a number. -/
theorem issue?_orgOutcome_eq_orgThroughSymbol_iff (symbols : SymbolTable) (operand : Option String)
    (symbol : String) (address : Word) :
    (orgOutcome (operand.map symbols.operand)).issue? = some (.orgThroughSymbol symbol address) ↔
      operand = some symbol ∧ symbols.resolve symbol = some address ∧
        Numeral.word? symbol ≠ some address := by
  cases operand with
  | none => simp [orgOutcome, Outcome.issue?]
  | some token =>
      rw [Option.map_some, orgOutcome_operand]
      cases hresolve : symbols.resolve token with
      | none =>
          have hno : ∀ symbol', token = symbol' → symbols.resolve symbol' ≠ some address := by
            rintro _ rfl
            simp [hresolve]
          cases hword : Numeral.word? token with
          | none =>
              have hissue := (symbols.operand token).issue_ne_of_warning .hex
                (show (Issue.orgThroughSymbol symbol address).severity = .warning from rfl)
              simp only [SymbolTable.target?, hresolve, hword, Option.or_none, Outcome.issue?,
                Option.some.injEq]
              exact ⟨fun h => absurd h hissue, fun h => absurd h.2.1 (hno symbol h.1)⟩
          | some target =>
              simp only [SymbolTable.target?, hresolve, hword, Option.none_or, Outcome.issue?,
                Option.isSome_none, Bool.false_eq_true, false_and, if_false, Option.some.injEq]
              exact ⟨fun h => (Option.some_ne_none _ h.symm).elim,
                fun h => absurd h.2.1 (hno symbol h.1)⟩
      | some target =>
          simp only [SymbolTable.target?, hresolve, Option.some_or, Outcome.issue?,
            Option.isSome_some, true_and]
          constructor
          · intro h
            split at h
            · next hword =>
              cases h
              exact ⟨rfl, hresolve, hword⟩
            · exact nomatch h
          · rintro ⟨htoken, hsymbol, hword⟩
            cases htoken
            cases hresolve.symm.trans hsymbol
            rw [if_pos hword]

/-- An `ORG` with an operand and without a label. -/
def orgLine (token : String) : Line :=
  .statement none (.org (some token))

/-- An `ORG` with a number that is no symbol goes to that number. -/
theorem outcome_orgLine {symbols : SymbolTable} {token : String} {start : Word}
    (h : Numeral.word? token = some start) (hname : symbols.resolve token = none) :
    (orgLine token).outcome symbols = .ok (.moved start none) := by
  show Except.ok (orgOutcome (some (symbols.operand token))) = _
  rw [orgOutcome_operand, SymbolTable.target?, hname, h]
  rfl

/-! ## The outcome of a memory reference -/

/-- A memory reference with an operand is assembled from the number that the operand denotes. -/
theorem referenceOutcome_operand (op : Opcode) (indirect : Bool) (symbols : SymbolTable)
    (token : String) :
    referenceOutcome op indirect (some (symbols.operand token)) =
      match symbols.number? token with
      | none => .ok (.failed ((symbols.operand token).issue .hex))
      | some number =>
        if referenceSum op number indirect < 0x100000000 then
          .ok (.emitted (BitVec.ofNat 16 (referenceSum op number indirect))
            (if 0xFFF < number then some (.operandOverflow op.mnemonic number) else none))
        else .error .additionOverflow := by
  rw [referenceOutcome, SymbolTable.operand?_text_operand]
  rfl

/-- A memory reference never moves the counter. -/
theorem target?_of_referenceOutcome {op : Opcode} {indirect : Bool} {operand : Option Operand}
    {outcome : Outcome} (h : referenceOutcome op indirect operand = .ok outcome) :
    outcome.target? = none := by
  unfold referenceOutcome at h
  split at h
  · cases h; rfl
  · split at h
    · cases h; rfl
    · dsimp only at h
      split at h
      · cases h; rfl
      · exact nomatch h

/-! ## The outcome of a number to store -/

/-- The value of a word is stored as the word. -/
theorem Word.ofInt?_toNat (word : Word) : Word.ofInt? word.toNat = some word := by
  have hlt := word.isLt
  rw [Word.ofInt?, if_pos (by omega)]
  simp

/-- A symbol that is stored in the radix of addresses is its address. -/
theorem dataOutcome_hex_of_address (token : String) (address : Word) :
    dataOutcome .hex (some ⟨token, some address⟩) = .emitted address none := by
  rw [dataOutcome, Operand.text]
  dsimp only
  rw [Numeral.signed?_hex]
  dsimp only
  rw [Word.ofInt?_toNat]

/-- Data moves no counter. -/
theorem target?_dataOutcome (radix : Radix) (operand : Option Operand) :
    (dataOutcome radix operand).target? = none := by
  unfold dataOutcome
  split
  · rfl
  · split
    · rfl
    · split <;> rfl

/-! ## The outcome of a line -/

namespace Line

/-- The outcome of an instruction with an operand. -/
theorem outcome_reference {symbols : SymbolTable} {label operand : Option String} {op : Opcode}
    {indirect : Bool} (htakes : op.takesOperand = true) :
    (statement label (.instruction op operand indirect)).outcome symbols =
      referenceOutcome op indirect (operand.map symbols.operand) :=
  if_pos htakes

/-- The outcome of an instruction without an operand. -/
theorem outcome_plain {symbols : SymbolTable} {label operand : Option String} {op : Opcode}
    {indirect : Bool} (htakes : op.takesOperand = false) :
    (statement label (.instruction op operand indirect)).outcome symbols =
      .ok (plainOutcome op (operand.map symbols.operand)) := by
  unfold outcome
  simp only [htakes, Bool.false_eq_true, if_false]
  rfl

/-- A line that stores a symbol in hexadecimal comes to its address. -/
theorem outcome_hex_of_address {symbols : SymbolTable} {label : Option String} {token : String}
    {address : Word} (haddress : symbols.resolve token = some address) :
    (statement label (.data .hex (some token))).outcome symbols = .ok (.emitted address none) := by
  show Except.ok (dataOutcome .hex (some ⟨token, symbols.resolve token⟩)) = _
  rw [haddress, dataOutcome_hex_of_address]

/-- **The outcome of a line moves the counter to where the line says**, and the outcome of any
other line than an `ORG` leaves it alone. -/
theorem target?_of_outcome {symbols : SymbolTable} {line : Line} {outcome : Outcome}
    (h : line.outcome symbols = .ok outcome) : outcome.target? = line.resolvedTarget? symbols := by
  cases line with
  | blank => cases h; rfl
  | labelOnly label => cases h; rfl
  | statement label body =>
      cases body with
      | org operand => cases h; exact target?_orgOutcome symbols operand
      | stop => cases h; rfl
      | data radix operand => cases h; exact target?_dataOutcome radix _
      | unknown mnemonic operand => cases h; rfl
      | instruction op operand indirect =>
          cases htakes : op.takesOperand with
          | true =>
              rw [outcome_reference htakes] at h
              exact target?_of_referenceOutcome h
          | false =>
              rw [outcome_plain htakes] at h
              cases h
              rfl

end Line

end BasicComputer
