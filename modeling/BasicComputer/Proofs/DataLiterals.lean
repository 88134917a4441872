import BasicComputer.Proofs.OperandIssues

/-!
# Numbers to store, over all integers

A line that stores a number is given a numeral of any length, and three ranges lie inside each
other around its value: what fits in a word as an unsigned number or in two's complement, what has
64 bits with a sign, and all integers. This module says what becomes of a numeral in each of them.

* **The three ranges** (`literalOutcome`): a word, a value out of range, or a token that is not read
  at all and is then explained by its first character, a letter being possible in hexadecimal only.
* **One line** (`Line.outcome_of_spellsInt`): the outcome depends on the spelled integer alone, and
  not on its sign character, its zeros in front or the case of its letters, apart from the last
  range, where the token itself is reported.
-/

namespace BasicComputer

/-- What becomes of a token that spells an integer and names no symbol. -/
def literalOutcome (radix : Radix) (token : String) (value : Int) : Outcome :=
  if -0x8000 ≤ value ∧ value ≤ 0xFFFF then .emitted (BitVec.ofInt 16 value) none
  else if -0x8000000000000000 ≤ value ∧ value < 0x8000000000000000 then
    .failed (.valueOutOfRange value)
  else .failed (if StartsWithLetter token then .undefinedSymbol token
    else .invalidNumber token radix)

/-- The word of a number is the number modulo `2 ^ 16`. -/
theorem Word.toNat_ofInt (value : Int) :
    ((BitVec.ofInt 16 value).toNat : Int) = value % 0x10000 := by
  rw [BitVec.toNat_ofInt]
  omega

/-- **A spelled integer** is stored, out of range or not read. -/
theorem Line.outcome_of_spellsInt {symbols : SymbolTable} (label : Option String) {radix : Radix}
    {token : String} {value : Int} (hnone : symbols.resolve token = none)
    (hspells : Numeral.SpellsInt radix token.toList value) :
    (statement label (.data radix (some token))).outcome symbols =
      .ok (literalOutcome radix token value) := by
  have hoperand : symbols.operand token = ⟨token, none⟩ := by
    rw [SymbolTable.operand, hnone]
  have hread := Numeral.signed?_of_spellsInt hspells
  show Except.ok (dataOutcome radix (some (symbols.operand token))) = _
  rw [hoperand, dataOutcome, Operand.text, literalOutcome]
  dsimp only
  by_cases hlong : -0x8000000000000000 ≤ value ∧ value < 0x8000000000000000
  · rw [hread, if_pos hlong, if_pos hlong]
    dsimp only
    rw [Word.ofInt?]
    by_cases hshort : -0x8000 ≤ value ∧ value ≤ 0xFFFF
    · rw [if_pos hshort, if_pos hshort]
    · rw [if_neg hshort, if_neg hshort]
  · have hshort : ¬ (-0x8000 ≤ value ∧ value ≤ 0xFFFF) := by omega
    rw [hread, if_neg hlong, if_neg hshort, if_neg hlong]
    simp only [Operand.issue, startsWithLetter_iff]

/-- **Numbers to store, over all integers.** Take a line in front of the end that stores a number,
with an operand that names no symbol and spells an integer in the radix of the line: at most one
sign, and behind it digits in either case, zeros in front included. The line comes to one of three
things, whatever the rest of the text does, and an assembly shows it. From `-32768` to `65535` the
line has an entry with the integer modulo `2 ^ 16`, and nothing is reported. Any other integer of
64 bits is reported as out of range, with its value, and gives no entry. An integer that has not 64
bits gives no entry either, and the token is reported, as an undefined symbol if it starts with a
letter and as an invalid number if not. -/
theorem integers_are_stored_or_reported (policy : BlankLines) {source : String} {i : Nat}
    {label : Option String} {radix : Radix} {token : String} {value : Int}
    (hline : (program (sourceLines source))[i]? =
      some (.statement label (.data radix (some token))))
    (hundefined : ∀ line ∈ sourceLines source, line.symbolName? ≠ some token)
    (hspells : Numeral.SpellsInt radix token.toList value) :
    let lines := sourceLines source
    (Line.statement label (.data radix (some token))).outcome (symbolsOf policy lines) =
      .ok (literalOutcome radix token value) ∧
    ∀ a, assemble policy source = .ok a →
      (a.listing.entries = (List.range (program lines).length).filterMap (entryAt? policy lines)) ∧
      (-32768 ≤ value ∧ value ≤ 65535 →
        (∃ word : Word, entryAt? policy lines i = some ⟨secondCounter policy lines i, word⟩ ∧
          (word.toNat : Int) = value % 65536) ∧
        a.findings (i + 1) = []) ∧
      (¬ (-32768 ≤ value ∧ value ≤ 65535) →
        -9223372036854775808 ≤ value ∧ value < 9223372036854775808 →
          entryAt? policy lines i = none ∧ a.findings (i + 1) = [.valueOutOfRange value]) ∧
      (¬ (-9223372036854775808 ≤ value ∧ value < 9223372036854775808) →
        entryAt? policy lines i = none ∧
        (StartsWithLetter token → a.findings (i + 1) = [.undefinedSymbol token]) ∧
        (¬ StartsWithLetter token → a.findings (i + 1) = [.invalidNumber token radix])) := by
  intro lines
  have hnone : (symbolsOf policy lines).resolve token = none :=
    resolve_symbolsOf_eq_none policy hundefined
  have houtcome := Line.outcome_of_spellsInt label hnone hspells
  refine ⟨houtcome, fun a ha => ?_⟩
  rw [← symbols_of_assembleLines ha] at houtcome
  have hfound := findings_eq ha hline houtcome
  obtain ⟨outcome, houtcome', -, hentry⟩ := exists_comesTo ha hline
  obtain rfl := Except.ok.inj (houtcome.symm.trans houtcome')
  refine ⟨?_, fun hshort => ?_, fun hshort hlong => ?_, fun hlong => ?_⟩
  · obtain ⟨-, rfl⟩ := assembleLines_eq_ok_iff.mp ha
    rfl
  · rw [literalOutcome, if_pos hshort] at hentry hfound
    exact ⟨⟨_, hentry, Word.toNat_ofInt value⟩, hfound⟩
  · rw [literalOutcome, if_neg hshort, if_pos hlong] at hentry hfound
    exact ⟨hentry, hfound⟩
  · have hshort : ¬ (-32768 ≤ value ∧ value ≤ 65535) := by omega
    rw [literalOutcome, if_neg hshort, if_neg hlong] at hentry hfound
    refine ⟨hentry, fun hletter => ?_, fun hletter => ?_⟩
    · rw [hfound, if_pos hletter]
      rfl
    · rw [hfound, if_neg hletter]
      rfl

/-- The least number that is stored, the one below it, and two that have not 64 bits, with signs, zeros
in front and letters in both cases. -/
theorem integers_are_stored_or_reported_at_bounds :
    let source := "DEC -0032768\nHEX -8001\nHEX fFFFFFFFFFFFFFFF\nDEC +9223372036854775808\n"
    ∃ a, assemble .advance source = .ok a ∧
      (∃ word : Word, entryAt? .advance (sourceLines source) 0 =
          some ⟨secondCounter .advance (sourceLines source) 0, word⟩ ∧
        (word.toNat : Int) = -32768 % 65536) ∧
      a.findings 2 = [.valueOutOfRange (-32769)] ∧
      a.findings 3 = [.undefinedSymbol "fFFFFFFFFFFFFFFF"] ∧
      a.findings 4 = [.invalidNumber "+9223372036854775808" .decimal] := by
  intro source
  have hlines : sourceLines source =
      [.statement none (.data .decimal (some "-0032768")),
        .statement none (.data .hex (some "-8001")),
        .statement none (.data .hex (some "fFFFFFFFFFFFFFFF")),
        .statement none (.data .decimal (some "+9223372036854775808"))] := by
    decide +kernel
  have hprogram : program (sourceLines source) = sourceLines source := by
    rw [hlines]
    rfl
  have hundefined : ∀ token, ∀ line ∈ sourceLines source, line.symbolName? ≠ some token := by
    intro token
    rw [hlines]
    simp [Line.symbolName?, Line.placedLabel?, Line.isOrg, Line.label?]
  obtain ⟨a, hrun⟩ : ∃ a, assemble .advance source = .ok a := by
    rw [assemble, hlines]
    exact ⟨_, rfl⟩
  have hleast : Numeral.SpellsInt .decimal "-0032768".toList (-32768) :=
    Numeral.spellsInt_of_signed? (by decide +kernel)
  have hbelow : Numeral.SpellsInt .hex "-8001".toList (-32769) :=
    Numeral.spellsInt_of_signed? (by decide +kernel)
  have hletters : Numeral.SpellsInt .hex "fFFFFFFFFFFFFFFF".toList 0xFFFFFFFFFFFFFFFF :=
    .natural (.bare (Numeral.digits_of_natural? (by decide +kernel)))
  have hlarge : Numeral.SpellsInt .decimal "+9223372036854775808".toList 9223372036854775808 :=
    .natural (.plus (Numeral.digits_of_natural? (by decide +kernel)))
  have hat : ∀ i : Nat, (program (sourceLines source))[i]? = _ := fun i => by rw [hprogram, hlines]
  obtain ⟨-, hfirst⟩ := integers_are_stored_or_reported .advance (hat 0) (hundefined _) hleast
  obtain ⟨-, hsecond⟩ := integers_are_stored_or_reported .advance (hat 1) (hundefined _) hbelow
  obtain ⟨-, hthird⟩ := integers_are_stored_or_reported .advance (hat 2) (hundefined _) hletters
  obtain ⟨-, hfourth⟩ := integers_are_stored_or_reported .advance (hat 3) (hundefined _) hlarge
  refine ⟨a, hrun, ?_, ?_, ?_, ?_⟩
  · exact ((hfirst a hrun).2.1 (by decide)).1
  · exact ((hsecond a hrun).2.2.1 (by decide) (by decide)).2
  · exact ((hthird a hrun).2.2.2 (by decide)).2.1 (by decide +kernel)
  · exact ((hfourth a hrun).2.2.2 (by decide)).2.2 (by decide +kernel)

end BasicComputer
