import BasicComputer.Proofs.Faults
import BasicComputer.Proofs.LineAccounts
import BasicComputer.Proofs.Logs
import BasicComputer.Proofs.NumeralGrammar

/-!
# How operands are used and reported

Three kinds of statement read their operand: an `ORG`, a number to store and a memory reference.
Each reads it in a radix and within bounds of its own, and all share one way of explaining why an
operand cannot be read. This module says that the explanation is the right one.

* **The last definition** (`LastDefined`, `resolve_symbolsOf_eq_some_iff`): a token names a symbol
  when some line of the text defines it, in front of the statement or behind it or behind the end,
  and it stands for the address of the last such line.
* **A symbol** (`Statement.Applies`): a statement whose operand names a symbol makes use of the
  address. The one exception is a decimal number where the digits of the address contain a letter.
* **No symbol** (`Line.outcome_of_not_accepts`, `Line.issue_of_accepts`): a token that is a number
  of the type that the statement asks for is never called a symbol or an invalid number, and any
  other token is, by its first letter.

`Assembly.findings` is what the second pass reports on a line: the diagnostics of the line without
those of its label.
-/

namespace BasicComputer

/-! ## What the second pass finds on a line -/

/-- Whether an issue is about a label, which only the first pass reports. -/
def Issue.isInvalidLabel : Issue → Bool
  | invalidLabel _ => true
  | _ => false

/-- The issues of a numbered line that are not about its label. -/
def Assembly.findings (a : Assembly) (number : Nat) : List Issue :=
  (a.reportsOn number fun issue => !issue.isInvalidLabel).map (·.issue)

/-- **The findings on a line** of the program are what its outcome reports. -/
theorem findings_eq {policy : BlankLines} {lines : List Line} {a : Assembly}
    (h : assembleLines policy lines = .ok a) {i : Nat} {line : Line} {outcome : Outcome}
    (hline : (program lines)[i]? = some line) (houtcome : line.outcome a.symbols = .ok outcome) :
    a.findings (i + 1) = outcome.issue?.toList := by
  have hselect : (line.issue? a.symbols).filter (fun issue => !issue.isInvalidLabel) =
      outcome.issue? := by
    rw [Line.issue?_of_outcome houtcome]
    rcases hissue : outcome.issue? with _ | issue
    · rfl
    · apply Option.filter_some_pos
      have hne := line.issue?_ne_invalidLabel a.symbols
      rw [Line.issue?_of_outcome houtcome, hissue] at hne
      unfold Issue.isInvalidLabel
      split
      · next label => exact absurd rfl (hne label)
      · rfl
  rw [Assembly.findings, reportsOn_eq h hline fun _ => rfl, hselect, Diagnostic.ofIssues,
    List.map_map]
  exact List.map_id _

/-! ## The last definition of a name -/

/-- The last line that defines a name, wherever it stands in the text, gives it the address. -/
def LastDefined (policy : BlankLines) (lines : List Line) (name : String) (address : Word) : Prop :=
  ∃ j, definitionAt? policy lines j = some ⟨name, address⟩ ∧
    ∀ k s, j < k → definitionAt? policy lines k = some s → s.name ≠ name

/-- The last of some numbered definitions counts. -/
theorem SymbolTable.resolve_ofList_range (f : Nat → Option Symbol) (n : Nat) (name : String)
    (address : Word) :
    (SymbolTable.ofList ((List.range n).filterMap f)).resolve name = some address ↔
      ∃ j < n, f j = some ⟨name, address⟩ ∧
        ∀ k s, j < k → k < n → f k = some s → s.name ≠ name := by
  induction n with
  | zero => simp [SymbolTable.ofList, SymbolTable.empty, SymbolTable.resolve]
  | succ n ih =>
      -- the definition number `n` is the last, if there is one
      have hearlier (hlast : ∀ s, f n = some s → s.name ≠ name) :
          (∃ j < n, f j = some ⟨name, address⟩ ∧
              ∀ k s, j < k → k < n → f k = some s → s.name ≠ name) ↔
            ∃ j < n + 1, f j = some ⟨name, address⟩ ∧
              ∀ k s, j < k → k < n + 1 → f k = some s → s.name ≠ name := by
        constructor
        · rintro ⟨j, hj, hdefines, hlater⟩
          refine ⟨j, by omega, hdefines, fun k s hk hkn hs => ?_⟩
          by_cases hkn' : k = n
          · exact hlast s (hkn' ▸ hs)
          · exact hlater k s hk (by omega) hs
        · rintro ⟨j, hj, hdefines, hlater⟩
          have hne : j ≠ n := by
            rintro rfl
            exact hlast _ hdefines rfl
          exact ⟨j, by omega, hdefines, fun k s hk hkn => hlater k s hk (by omega)⟩
      rw [List.range_succ, List.filterMap_append]
      rcases hfn : f n with _ | last
      · rw [List.filterMap_cons_none hfn, List.filterMap_nil, List.append_nil, ih]
        exact hearlier (by simp [hfn])
      · rw [List.filterMap_cons_some hfn, List.filterMap_nil, SymbolTable.ofList_concat,
          SymbolTable.resolve_define]
        by_cases hname : name = last.name
        · subst hname
          rw [if_pos rfl]
          constructor
          · intro haddress
            obtain rfl := Option.some.inj haddress
            exact ⟨n, by omega, hfn, fun k s hk hkn => by omega⟩
          · rintro ⟨j, hj, hdefines, hlater⟩
            have hjn : j = n := by
              by_contra hne
              exact hlater n last (by omega) (by omega) hfn rfl
            rw [hjn, hfn] at hdefines
            rw [Option.some.inj hdefines]
        · rw [if_neg hname, ih]
          apply hearlier
          intro s hs
          obtain rfl : last = s := Option.some.inj (hfn.symm.trans hs)
          exact fun heq => hname heq.symm

/-- **A token stands for the address of its last definition.** -/
theorem resolve_symbolsOf_eq_some_iff {policy : BlankLines} {lines : List Line} {name : String}
    {address : Word} :
    (symbolsOf policy lines).resolve name = some address ↔
      LastDefined policy lines name address := by
  have hbound : ∀ {j s}, definitionAt? policy lines j = some s → j < lines.length := by
    intro j s hs
    obtain ⟨line, hline, -⟩ := Option.bind_eq_some_iff.mp hs
    exact (List.getElem?_eq_some_iff.mp hline).1
  rw [symbolsOf, definitions_eq_filterMap, SymbolTable.resolve_ofList_range]
  constructor
  · rintro ⟨j, -, hdefines, hlater⟩
    exact ⟨j, hdefines, fun k s hk hs => hlater k s hk (hbound hs) hs⟩
  · rintro ⟨j, hdefines, hlater⟩
    exact ⟨j, hbound hdefines, hdefines, fun k s hk _ => hlater k s hk⟩

/-! ## Statements that read their operand -/

namespace Statement

/-- Whether a statement reads its operand. -/
def readsOperand : Statement → Bool
  | org _ => true
  | data _ _ => true
  | instruction op _ _ => op.takesOperand
  | _ => false

/-- The radix in which a statement reads its operand. -/
def radix : Statement → Radix
  | data radix _ => radix
  | _ => .hex

/-- A token is a number of the type that the statement asks for: a word, an operand of 32 bits, or a
signed number of 64 bits. -/
def Accepts (token : String) : Statement → Prop
  | org _ => ∃ n, Numeral.Spells .hex token.toList n ∧ n < 0x10000
  | instruction _ _ _ => ∃ n, Numeral.Spells .hex token.toList n ∧ n < 0x100000000
  | data radix _ => ∃ v, Numeral.SpellsInt radix token.toList v ∧
      -0x8000000000000000 ≤ v ∧ v < 0x8000000000000000
  | _ => False

/-- Whether the reader of a statement takes a token. -/
def accepts (token : String) : Statement → Bool
  | org _ => (Numeral.word? token).isSome
  | instruction _ _ _ => (Numeral.operand? token).isSome
  | data radix _ => (Numeral.signed? radix token).isSome
  | _ => false

/-- **The readers take exactly the numbers of their types.** -/
theorem accepts_iff {token : String} {body : Statement} :
    body.accepts token = true ↔ body.Accepts token := by
  rcases body with operand | _ | ⟨radix, operand⟩ | ⟨op, operand, indirect⟩ | ⟨mnemonic, operand⟩
  · rw [accepts, Numeral.word?, Option.isSome_map, Option.isSome_iff_exists]
    simp only [Numeral.unsigned?_eq_some_iff, Accepts]
  · simp [accepts, Accepts]
  · rw [accepts, Option.isSome_iff_exists]
    simp only [Numeral.signed?_eq_some_iff, Accepts]
  · rw [accepts, Option.isSome_iff_exists]
    simp only [Numeral.operand?_eq_some_iff, Accepts]
  · simp [accepts, Accepts]

instance (token : String) (body : Statement) : Decidable (body.Accepts token) :=
  decidable_of_iff _ accepts_iff

/-- What a statement comes to when its operand names a symbol at an address. -/
inductive Applies (token : String) (address : Word) : Statement → Outcome → Prop
  | org {operand : Option String} {warning : Option Issue}
      (hwarning : ∀ issue ∈ warning, issue = .orgThroughSymbol token address) :
      Applies token address (.org operand) (.moved address warning)
  | hex {operand : Option String} :
      Applies token address (.data .hex operand) (.emitted address none)
  | decimal {operand : Option String} {value : Word}
      (hdigits : Numeral.Digits .decimal (Numeral.hex address).toList value.toNat) :
      Applies token address (.data .decimal operand) (.emitted value none)
  | letters {operand : Option String}
      (hletter : ∃ c ∈ (Numeral.hex address).toList, 'A' ≤ c ∧ c ≤ 'F') :
      Applies token address (.data .decimal operand)
        (.failed (.symbolNotNumeric token (Numeral.hex address) .decimal))
  | reference {op : Opcode} {operand : Option String} {indirect : Bool} {warning : Option Issue}
      (hwarning : ∀ issue ∈ warning, issue = .operandOverflow op.mnemonic address.toNat) :
      Applies token address (.instruction op operand indirect)
        (.emitted (op.pattern + address + if indirect then Word.indirectBit else 0) warning)

end Statement

/-! ## An operand that names a symbol -/

/-- The word of a reference to an address. -/
theorem ofNat_referenceSum (op : Opcode) (address : Word) (indirect : Bool) :
    BitVec.ofNat 16 (referenceSum op address.toNat indirect) =
      op.pattern + address + if indirect then Word.indirectBit else 0 := by
  unfold referenceSum
  rw [BitVec.ofNat_add, BitVec.ofNat_add, BitVec.ofNat_toNat, BitVec.ofNat_toNat]
  cases indirect <;> simp

namespace Line

variable {symbols : SymbolTable} (label : Option String) {token : String}

/-- Decimal data applies the address of its symbol. -/
theorem applies_decimal {address : Word} (haddress : symbols.resolve token = some address) :
    (Statement.data .decimal (some token)).Applies token address
      (dataOutcome .decimal (some (symbols.operand token))) := by
  have hoperand : symbols.operand token = ⟨token, some address⟩ := by
    rw [SymbolTable.operand, haddress]
  rw [hoperand, dataOutcome, Operand.text]
  dsimp only
  rcases Numeral.signed?_decimal_hex address with ⟨value, hdigits, hread⟩ | ⟨hletter, hread⟩
  · rw [hread]
    dsimp only
    rw [Word.ofInt?_toNat]
    exact .decimal hdigits
  · rw [hread]
    exact .letters hletter

/-- **A statement makes use of a symbol**, unless a decimal number is asked for and the address has
a letter in it. -/
theorem applies_of_address {body : Statement} {address : Word} (hreads : body.readsOperand = true)
    (htoken : body.operand? = some token) (haddress : symbols.resolve token = some address) :
    ∃ outcome, (statement label body).outcome symbols = .ok outcome ∧
      body.Applies token address outcome := by
  rcases body with operand | _ | ⟨radix, operand⟩ | ⟨op, operand, indirect⟩ | ⟨mnemonic, operand⟩
  · obtain rfl : operand = some token := htoken
    refine ⟨_, rfl, ?_⟩
    show (Statement.org _).Applies token address (orgOutcome (some (symbols.operand token)))
    rw [orgOutcome_operand, SymbolTable.target?, haddress]
    refine .org fun issue hissue => ?_
    split at hissue
    · exact (Option.some.inj hissue).symm
    · exact absurd hissue (by simp)
  · exact absurd hreads Bool.false_ne_true
  · obtain rfl : operand = some token := htoken
    rcases radix with _ | _
    · exact ⟨_, rfl, applies_decimal haddress⟩
    · exact ⟨_, outcome_hex_of_address haddress, .hex⟩
  · obtain rfl : operand = some token := htoken
    refine ⟨_, outcome_reference_of_address hreads haddress, ?_⟩
    rw [ofNat_referenceSum]
    refine .reference fun issue hissue => ?_
    split at hissue
    · exact (Option.some.inj hissue).symm
    · exact absurd hissue (by simp)
  · exact absurd hreads Bool.false_ne_true

/-! ## An operand that names no symbol -/

/-- **A token that is no number of the asked type** is explained by its first character. -/
theorem outcome_of_not_accepts {body : Statement} (hreads : body.readsOperand = true)
    (htoken : body.operand? = some token) (hnone : symbols.resolve token = none)
    (hno : ¬ body.Accepts token) :
    (statement label body).outcome symbols =
      .ok (.failed (if Operand.startsWithLetter token then .undefinedSymbol token
        else .invalidNumber token body.radix)) := by
  have hoperand : symbols.operand token = ⟨token, none⟩ := by
    rw [SymbolTable.operand, hnone]
  rw [← Statement.accepts_iff] at hno
  rcases body with operand | _ | ⟨radix, operand⟩ | ⟨op, operand, indirect⟩ | ⟨mnemonic, operand⟩
  · obtain rfl : operand = some token := htoken
    have hread : Numeral.word? token = none := by simpa [Statement.accepts] using hno
    show Except.ok (orgOutcome (some (symbols.operand token))) = _
    rw [orgOutcome_operand, SymbolTable.target?, hnone, hread, hoperand]
    rfl
  · exact absurd hreads Bool.false_ne_true
  · obtain rfl : operand = some token := htoken
    have hread : Numeral.signed? radix token = none := by simpa [Statement.accepts] using hno
    show Except.ok (dataOutcome radix (some (symbols.operand token))) = _
    rw [hoperand, dataOutcome, Operand.text]
    dsimp only
    rw [hread]
    rfl
  · obtain rfl : operand = some token := htoken
    have hread : Numeral.operand? token = none := by simpa [Statement.accepts] using hno
    rw [outcome_reference hreads, Option.map_some, referenceOutcome_operand, SymbolTable.number?,
      hnone, hread, hoperand]
    rfl
  · exact absurd hreads Bool.false_ne_true

/-- **A token that is a number of the asked type** may be too large for the statement, and nothing
else is wrong with it. -/
theorem issue_of_accepts {body : Statement} {outcome : Outcome} {issue : Issue}
    (hreads : body.readsOperand = true) (htoken : body.operand? = some token)
    (hnone : symbols.resolve token = none) (haccepts : body.Accepts token)
    (h : (statement label body).outcome symbols = .ok outcome)
    (hissue : outcome.issue? = some issue) :
    (∃ mnemonic number, issue = .operandOverflow mnemonic number) ∨
      ∃ value, issue = .valueOutOfRange value := by
  have hoperand : symbols.operand token = ⟨token, none⟩ := by
    rw [SymbolTable.operand, hnone]
  rcases body with operand | _ | ⟨radix, operand⟩ | ⟨op, operand, indirect⟩ | ⟨mnemonic, operand⟩
  · obtain rfl : operand = some token := htoken
    obtain ⟨n, hspells, hn⟩ := haccepts
    have hread : Numeral.word? token = some (BitVec.ofNat 16 n) := by
      rw [Numeral.word?_eq_some_iff, BitVec.toNat_ofNat, Nat.mod_eq_of_lt hn]
      exact hspells
    have hmoved : (statement label (.org (some token))).outcome symbols = .ok (.moved _ none) :=
      outcome_orgLine hread hnone
    rw [hmoved] at h
    obtain rfl := Except.ok.inj h
    exact absurd hissue (by simp [Outcome.issue?])
  · exact absurd hreads Bool.false_ne_true
  · obtain rfl : operand = some token := htoken
    obtain ⟨value, hvalue⟩ := haccepts
    obtain rfl := Except.ok.inj h
    right
    change (dataOutcome radix (some (symbols.operand token))).issue? = some issue at hissue
    rw [hoperand, dataOutcome, Operand.text] at hissue
    dsimp only at hissue
    rw [Numeral.signed?_eq_some_iff.mpr hvalue] at hissue
    dsimp only at hissue
    split at hissue
    · exact absurd hissue (by simp [Outcome.issue?])
    · exact ⟨value, (Option.some.inj hissue).symm⟩
  · obtain rfl : operand = some token := htoken
    obtain ⟨number, hnumber⟩ := haccepts
    left
    rw [outcome_reference hreads, Option.map_some, referenceOutcome_operand, SymbolTable.number?,
      hnone, Numeral.operand?_eq_some_iff.mpr hnumber] at h
    simp only [Option.map_none, Option.none_or] at h
    split at h
    · obtain rfl := Except.ok.inj h
      simp only [Outcome.issue?] at hissue
      split at hissue
      · exact ⟨_, _, (Option.some.inj hissue).symm⟩
      · exact absurd hissue (by simp)
    · exact absurd h (by simp)
  · exact absurd hreads Bool.false_ne_true

end Line

/-- A token starts with an unaccented letter. -/
def StartsWithLetter (token : String) : Prop :=
  ∃ c, token.toList.head? = some c ∧ ('A' ≤ c ∧ c ≤ 'Z' ∨ 'a' ≤ c ∧ c ≤ 'z')

/-- Starting with a letter, as the test that tells it. -/
theorem startsWithLetter_iff {token : String} :
    Operand.startsWithLetter token = true ↔ StartsWithLetter token := by
  have halpha : ∀ c : Char, c.isAlpha = true ↔ ('A' ≤ c ∧ c ≤ 'Z' ∨ 'a' ≤ c ∧ c ≤ 'z') := by
    intro c
    have hupper : c.isUpper = true ↔ 'A' ≤ c ∧ c ≤ 'Z' := decide_eq_true_iff
    have hlower : c.isLower = true ↔ 'a' ≤ c ∧ c ≤ 'z' := by
      show (decide ('a' ≤ c) && decide (c ≤ 'z')) = true ↔ _
      rw [Bool.and_eq_true, decide_eq_true_iff, decide_eq_true_iff]
    rw [← hupper, ← hlower]
    exact Bool.or_eq_true_iff
  unfold Operand.startsWithLetter StartsWithLetter
  rcases token.toList.head? with _ | c
  · simp
  · simpa using halpha c

instance (token : String) : Decidable (StartsWithLetter token) :=
  decidable_of_iff _ startsWithLetter_iff

/-! ## The reports on an assembly's operands -/

/-- What line `i` does with the address of the symbol that its operand names: it moves the counter
there, stores it, adds it, or stores the number that has the digits of the address in decimal. -/
def Statement.UsesAddress (policy : BlankLines) (lines : List Line) (i : Nat) (address : Word) :
    Statement → Prop
  | org _ => secondCounter policy lines (i + 1) = address
  | data .hex _ => entryAt? policy lines i = some ⟨secondCounter policy lines i, address⟩
  | data .decimal _ => ∃ value : Word,
      Numeral.Digits .decimal (Numeral.hex address).toList value.toNat ∧
        entryAt? policy lines i = some ⟨secondCounter policy lines i, value⟩
  | instruction op _ indirect => entryAt? policy lines i = some ⟨secondCounter policy lines i,
      op.pattern + address + if indirect then Word.indirectBit else 0⟩
  | _ => False

namespace Statement.Applies

variable {body : Statement} {token : String} {address : Word} {outcome : Outcome}

/-- What can be reported of a statement that applies an address. -/
theorem issue_cases (h : body.Applies token address outcome) {issue : Issue}
    (hissue : outcome.issue? = some issue) :
    issue = .orgThroughSymbol token address ∨
      (∃ mnemonic number, issue = .operandOverflow mnemonic number) ∨
      issue = .symbolNotNumeric token (Numeral.hex address) .decimal ∧
        (∃ operand, body = .data .decimal operand) ∧
        ∃ c ∈ (Numeral.hex address).toList, 'A' ≤ c ∧ c ≤ 'F' := by
  cases h with
  | org hwarning => exact .inl (hwarning issue hissue)
  | hex => exact absurd hissue (by simp [Outcome.issue?])
  | decimal _ => exact absurd hissue (by simp [Outcome.issue?])
  | letters hletter => exact .inr (.inr ⟨(Option.some.inj hissue).symm, ⟨_, rfl⟩, hletter⟩)
  | reference hwarning => exact .inr (.inl ⟨_, _, hwarning issue hissue⟩)

/-- A letter in the address keeps it from being read as a decimal number. -/
theorem issue_of_letter {operand : Option String}
    (h : (Statement.data .decimal operand).Applies token address outcome)
    (hletter : ∃ c ∈ (Numeral.hex address).toList, 'A' ≤ c ∧ c ≤ 'F') :
    outcome.issue? = some (.symbolNotNumeric token (Numeral.hex address) .decimal) := by
  cases h with
  | letters _ => rfl
  | decimal hdigits =>
      obtain ⟨c, hc, hrange⟩ := hletter
      rw [Numeral.toList_hex] at hc hdigits
      exact absurd hrange ((Numeral.exists_digits_decimal_iff _).mp ⟨_, hdigits⟩ c hc)

/-- A statement that applies an address uses it, unless the address is not numeric to it. -/
theorem usesAddress {policy : BlankLines} {lines : List Line} {a : Assembly} {i : Nat}
    {label : Option String} (h : body.Applies token address outcome)
    (hrun : assembleLines policy lines = .ok a)
    (hline : (program lines)[i]? = some (.statement label body))
    (houtcome : (Line.statement label body).outcome a.symbols = .ok outcome)
    (hnumeric : ∀ symbol text radix, outcome.issue? ≠ some (.symbolNotNumeric symbol text radix)) :
    body.UsesAddress policy lines i address := by
  obtain ⟨outcome', houtcome', -, hentry⟩ := exists_comesTo hrun hline
  obtain rfl : outcome = outcome' := Except.ok.inj (houtcome.symm.trans houtcome')
  cases h with
  | org hwarning =>
      have hcounter : secondCounter policy lines (i + 1) = _ :=
        secondCounter_succ_of_isOrg (getElem?_program_eq_some_iff.mp hline).1 rfl
      rw [← symbols_of_assembleLines hrun, ← Line.target?_of_outcome houtcome] at hcounter
      exact hcounter
  | hex => exact hentry
  | decimal hdigits => exact ⟨_, hdigits, hentry⟩
  | letters _ => exact absurd rfl (hnumeric _ _ _)
  | reference _ => exact hentry

end Statement.Applies

/-- **Operands are used and reported as they should be.** Take a line in front of the end that is an
`ORG`, stores a number or refers to memory, with a token for its operand.

The token names a symbol when some line of the text defines it, and then it has the address of its
last definition. No report calls such a token undefined, an invalid number or out of range, and it
is reported as not numeric exactly when a decimal number is asked for and the digits of the address
contain a letter. Otherwise the line makes use of the address.

Where no line defines the token, it is not reported as not numeric or as a detour. If it is no
number of the type that the statement asks for, the one report of the second pass names the token
as an undefined symbol when it starts with a letter, and as an invalid number in the radix of the
statement when it does not; if it is one, neither is reported. -/
theorem operands_are_classified {policy : BlankLines} {source : String} {a : Assembly}
    (h : assemble policy source = .ok a) {i : Nat} {label : Option String} {body : Statement}
    {token : String}
    (hline : (program (sourceLines source))[i]? = some (.statement label body))
    (hreads : body.readsOperand = true) (htoken : body.operand? = some token) :
    let lines := sourceLines source
    let found := a.findings (i + 1)
    (a.listing.entries = (List.range (program lines).length).filterMap (entryAt? policy lines)) ∧
    ((∃ line ∈ lines, line.symbolName? = some token) ↔
      ∃ address, LastDefined policy lines token address) ∧
    (∀ address, LastDefined policy lines token address →
      (∀ symbol, .undefinedSymbol symbol ∉ found) ∧
      (∀ text radix, .invalidNumber text radix ∉ found) ∧
      (∀ value, .valueOutOfRange value ∉ found) ∧
      ((∃ symbol text radix, .symbolNotNumeric symbol text radix ∈ found) ↔
        body = .data .decimal (some token) ∧
          ∃ c ∈ (Numeral.hex address).toList, 'A' ≤ c ∧ c ≤ 'F') ∧
      ((∀ symbol text radix, .symbolNotNumeric symbol text radix ∉ found) →
        body.UsesAddress policy lines i address)) ∧
    ((∀ line ∈ lines, line.symbolName? ≠ some token) →
      (∀ symbol text radix, .symbolNotNumeric symbol text radix ∉ found) ∧
      (∀ symbol address, .orgThroughSymbol symbol address ∉ found) ∧
      (¬ body.Accepts token →
        (StartsWithLetter token → found = [.undefinedSymbol token]) ∧
        (¬ StartsWithLetter token → found = [.invalidNumber token body.radix])) ∧
      (body.Accepts token →
        (∀ symbol, .undefinedSymbol symbol ∉ found) ∧
        ∀ text radix, .invalidNumber text radix ∉ found)) := by
  intro lines found
  have hsymbols := symbols_of_assembleLines h
  refine ⟨?_, ?_, fun address hdefined => ?_, fun hundefined => ?_⟩
  · obtain ⟨-, rfl⟩ := assembleLines_eq_ok_iff.mp h
    rfl
  · rw [← isSome_resolve_symbolsOf policy, Option.isSome_iff_exists]
    simp only [resolve_symbolsOf_eq_some_iff]
  · have haddress : a.symbols.resolve token = some address := by
      rw [hsymbols]
      exact resolve_symbolsOf_eq_some_iff.mpr hdefined
    obtain ⟨outcome, houtcome, happlies⟩ :=
      Line.applies_of_address label hreads htoken haddress
    have hfound : found = outcome.issue?.toList := findings_eq h hline houtcome
    simp only [hfound, Option.mem_toList]
    refine ⟨fun symbol hmem => ?_, fun text radix hmem => ?_, fun value hmem => ?_, ?_, ?_⟩
    · have hcases := happlies.issue_cases hmem
      simp at hcases
    · have hcases := happlies.issue_cases hmem
      simp at hcases
    · have hcases := happlies.issue_cases hmem
      simp at hcases
    · constructor
      · rintro ⟨symbol, text, radix, hmem⟩
        rcases happlies.issue_cases hmem with
          hdetour | ⟨_, _, hoverflow⟩ | ⟨-, ⟨operand, rfl⟩, hletter⟩
        · exact absurd hdetour (by simp)
        · exact absurd hoverflow (by simp)
        · exact ⟨congrArg _ htoken, hletter⟩
      · rintro ⟨rfl, hletter⟩
        exact ⟨_, _, _, happlies.issue_of_letter hletter⟩
    · exact fun hnumeric => happlies.usesAddress h hline houtcome hnumeric
  · have hnone : a.symbols.resolve token = none := by
      rw [hsymbols]
      exact resolve_symbolsOf_eq_none policy hundefined
    obtain ⟨outcome, houtcome, -, -⟩ := exists_comesTo h hline
    have hfound : found = outcome.issue?.toList := findings_eq h hline houtcome
    by_cases haccepts : body.Accepts token
    · have hissue : ∀ issue ∈ found, _ := fun issue hmem =>
        Line.issue_of_accepts label hreads htoken hnone haccepts houtcome
          (Option.mem_toList.mp (hfound ▸ hmem))
      refine ⟨fun symbol text radix hmem => ?_, fun symbol address hmem => ?_,
        fun hno => absurd haccepts hno, fun _ => ⟨fun symbol hmem => ?_, fun text radix hmem => ?_⟩⟩
      · simpa using hissue _ hmem
      · simpa using hissue _ hmem
      · simpa using hissue _ hmem
      · simpa using hissue _ hmem
    · have hfailed := Line.outcome_of_not_accepts label hreads htoken hnone haccepts
      rw [houtcome] at hfailed
      obtain rfl := Except.ok.inj hfailed
      simp only [Outcome.issue?, Option.toList_some] at hfound
      refine ⟨fun symbol text radix => ?_, fun symbol address => ?_,
        fun _ => ⟨fun hletter => ?_, fun hletter => ?_⟩, fun hyes => absurd hyes haccepts⟩
      · rw [hfound]
        split_ifs <;> simp
      · rw [hfound]
        split_ifs <;> simp
      · rw [hfound, if_pos (startsWithLetter_iff.mpr hletter)]
      · rw [hfound, if_neg (fun hstarts => hletter (startsWithLetter_iff.mp hstarts))]

/-- Two symbols that are defined behind their use, one of them behind the end, with an address in
digits and with a letter in it, and two tokens that are no symbols. -/
theorem operands_are_classified_around_end :
    let source :=
      "ORG 10\nDEC LOW\nDEC TOP\nLDA XYZ\nHEX 1G\nLOW, HEX 1\nEND\nORG 1A\nTOP, CLA\n"
    ∃ a, assemble .advance source = .ok a ∧
      (Statement.data .decimal (some "LOW")).UsesAddress .advance (sourceLines source) 1 0x14 ∧
      (∃ symbol text radix, .symbolNotNumeric symbol text radix ∈ a.findings 3) ∧
      a.findings 4 = [.undefinedSymbol "XYZ"] ∧ a.findings 5 = [.invalidNumber "1G" .hex] := by
  intro source
  have hlines : sourceLines source =
      [.statement none (.org (some "10")), .statement none (.data .decimal (some "LOW")),
        .statement none (.data .decimal (some "TOP")),
        .statement none (.instruction .lda (some "XYZ") false),
        .statement none (.data .hex (some "1G")), .statement (some "LOW") (.data .hex (some "1")),
        .statement none .stop, .statement none (.org (some "1A")),
        .statement (some "TOP") (.instruction .cla none false)] := by
    decide +kernel
  have hprogram : program (sourceLines source) = (sourceLines source).take 6 := by
    rw [hlines]
    rfl
  have hat : ∀ i : Nat, (program (sourceLines source))[i]? = _ := fun i => by rw [hprogram, hlines]
  obtain ⟨a, hrun⟩ : ∃ a, assemble .advance source = .ok a := by
    rw [assemble, hlines]
    exact ⟨_, rfl⟩
  have hlow : LastDefined .advance (sourceLines source) "LOW" 0x14 := by
    rw [← resolve_symbolsOf_eq_some_iff, hlines]
    decide +kernel
  have htop : LastDefined .advance (sourceLines source) "TOP" 0x1A := by
    rw [← resolve_symbolsOf_eq_some_iff, hlines]
    decide +kernel
  have hundefined : ∀ token ∈ ["XYZ", "1G"],
      ∀ line ∈ sourceLines source, line.symbolName? ≠ some token := by
    rw [hlines]
    decide +kernel
  obtain ⟨-, -, hlowest, -⟩ := operands_are_classified hrun (hat 1) rfl rfl
  obtain ⟨-, -, htopmost, -⟩ := operands_are_classified hrun (hat 2) rfl rfl
  obtain ⟨-, -, -, hname⟩ := operands_are_classified hrun (hat 3) (by decide) rfl
  obtain ⟨-, -, -, hnumber⟩ := operands_are_classified hrun (hat 4) rfl rfl
  refine ⟨a, hrun, ?_, ?_, ?_, ?_⟩
  · obtain ⟨-, -, -, hletter, huses⟩ := hlowest 0x14 hlow
    apply huses
    intro symbol text radix hmem
    obtain ⟨-, c, hc, hrange⟩ := hletter.mp ⟨symbol, text, radix, hmem⟩
    have hdigits : (Numeral.hex 0x14).toList = ['1', '4'] := by decide +kernel
    rw [hdigits, List.mem_pair] at hc
    rcases hc with rfl | rfl
    · exact absurd hrange (by decide)
    · exact absurd hrange (by decide)
  · obtain ⟨-, -, -, hletter, -⟩ := htopmost 0x1A htop
    exact hletter.mpr ⟨rfl, 'A', by decide +kernel, by decide⟩
  · obtain ⟨-, -, hreport, -⟩ := hname (hundefined _ (by decide))
    exact (hreport (by decide +kernel)).1 (by decide +kernel)
  · obtain ⟨-, -, hreport, -⟩ := hnumber (hundefined _ (by decide))
    exact (hreport (by decide +kernel)).2 (by decide +kernel)

end BasicComputer
