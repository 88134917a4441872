import Mathlib.Data.List.Induction
import BasicComputer.Proofs.Decoding
import BasicComputer.Proofs.Passes

/-!
# Every instruction word means what its line says

An instruction goes a long way from its line to its word: the operand is looked up among symbols
that may be defined later, replaced by text, read as a number and added to a pattern. This module
closes the circle: the word of a line, **decoded**, is the instruction that the line asked for.

* **Symbols** (`SymbolTable.resolve_ofList`): a name stands for the address of its last definition,
  and it is a symbol exactly when some line defines it (`isSome_resolve_symbolsOf`).
* **The word** (`Line.word?_reference`, `Line.word?_plain`): what an instruction line emits, in
  terms of the number that its operand denotes.
* **The warning** (`Line.issue?_reference_eq_operandOverflow_iff`): it stands exactly where that
  number needs more than 12 bits, and only there the word may mean something else.

`instruction_words_decode` puts this together with the decoder, for the entries of a listing.
-/

namespace BasicComputer

/-! ## The address of a symbol -/

/-- A name stands for the address of its last definition. -/
theorem SymbolTable.resolve_ofList (definitions : List Symbol) (name : String) :
    (SymbolTable.ofList definitions).resolve name =
      ((definitions.filter (·.name = name)).getLast?).map (·.address) := by
  induction definitions using List.reverseRecOn with
  | nil => rfl
  | append_singleton front last ih =>
      rw [ofList_concat, SymbolTable.resolve_define, ih, List.filter_append]
      by_cases hname : last.name = name
      · subst hname
        simp
      · have hother : ¬ name = last.name := fun h => hname h.symm
        simp [hname, hother]

/-- A name resolves exactly when it is defined. -/
theorem SymbolTable.isSome_resolve_ofList (definitions : List Symbol) (name : String) :
    ((SymbolTable.ofList definitions).resolve name).isSome = true ↔
      name ∈ definitions.map (·.name) := by
  rw [resolve_ofList, Option.isSome_map, Option.isSome_iff_ne_none, ne_eq,
    List.getLast?_eq_none_iff, List.filter_eq_nil_iff]
  simp

/-- **A name is a symbol** exactly when some line defines it. -/
theorem isSome_resolve_symbolsOf (policy : BlankLines) (lines : List Line) (name : String) :
    ((symbolsOf policy lines).resolve name).isSome = true ↔
      ∃ line ∈ lines, line.symbolName? = some name := by
  rw [symbolsOf, SymbolTable.isSome_resolve_ofList, definitions, map_name_definitionsFrom,
    List.mem_filterMap]

/-- A name that no line defines stands for nothing. -/
theorem resolve_symbolsOf_eq_none (policy : BlankLines) {lines : List Line} {name : String}
    (h : ∀ line ∈ lines, line.symbolName? ≠ some name) :
    (symbolsOf policy lines).resolve name = none := by
  rw [← Option.not_isSome_iff_eq_none, isSome_resolve_symbolsOf]
  rintro ⟨line, hline, hname⟩
  exact h line hline hname

/-- The address of a name when all definitions are changed one by one. -/
theorem SymbolTable.resolve_ofList_map {change : Symbol → Symbol} {definitions : List Symbol}
    {name name' : String} (h : ∀ s ∈ definitions, (change s).name = name' ↔ s.name = name) :
    (SymbolTable.ofList (definitions.map change)).resolve name' =
      ((definitions.filter (·.name = name)).getLast?).map (fun s => (change s).address) := by
  have hfilter : (definitions.map change).filter (·.name = name') =
      (definitions.filter (·.name = name)).map change := by
    rw [List.filter_map]
    refine congrArg _ (List.filter_congr fun s hs => ?_)
    exact decide_eq_decide.mpr (h s hs)
  rw [resolve_ofList, hfilter, List.getLast?_map, Option.map_map]
  rfl

/-! ## The outcome of an instruction line -/

namespace Line

variable {symbols : SymbolTable} {label operand : Option String} {op : Opcode} {indirect : Bool}

/-- **The word of a memory reference** without a fault is the low part of the sum, and there is one
exactly when the operand denotes a number. -/
theorem word?_reference (htakes : op.takesOperand = true) {outcome : Outcome}
    (h : (statement label (.instruction op operand indirect)).outcome symbols = .ok outcome) :
    (statement label (.instruction op operand indirect)).word? symbols =
      (operand.bind symbols.number?).map fun number =>
        BitVec.ofNat 16 (referenceSum op number indirect) := by
  rw [word?_of_outcome h]
  rw [outcome_reference htakes] at h
  cases operand with
  | none =>
      cases h
      rfl
  | some token =>
      rw [Option.map_some, referenceOutcome_operand] at h
      rw [Option.bind_some]
      cases hnumber : symbols.number? token with
      | none =>
          rw [hnumber] at h
          cases h
          rfl
      | some number =>
          rw [hnumber] at h
          dsimp only at h
          split at h
          · cases h
            rfl
          · exact nomatch h

/-- **When a memory reference is reported as too large**: the number that its operand denotes needs
more than 12 bits. -/
theorem issue?_reference_eq_operandOverflow_iff (htakes : op.takesOperand = true)
    {outcome : Outcome}
    (h : (statement label (.instruction op operand indirect)).outcome symbols = .ok outcome)
    {mnemonic : String} {number : Nat} :
    (statement label (.instruction op operand indirect)).issue? symbols =
        some (.operandOverflow mnemonic number) ↔
      mnemonic = op.mnemonic ∧ operand.bind symbols.number? = some number ∧ 0xFFF < number := by
  rw [issue?_of_outcome h]
  rw [outcome_reference htakes] at h
  cases operand with
  | none =>
      cases h
      exact ⟨nofun, nofun⟩
  | some token =>
      rw [Option.map_some, referenceOutcome_operand] at h
      rw [Option.bind_some]
      cases hnumber : symbols.number? token with
      | none =>
          rw [hnumber] at h
          cases h
          refine ⟨fun hissue => ?_, nofun⟩
          exact absurd (Option.some.inj hissue) (Operand.issue_ne_of_warning _ _ rfl)
      | some sum =>
          rw [hnumber] at h
          dsimp only at h
          split at h
          · cases h
            constructor
            · intro hissue
              dsimp only [Outcome.issue?] at hissue
              split at hissue
              · next hlarge =>
                cases hissue
                exact ⟨rfl, rfl, hlarge⟩
              · exact nomatch hissue
            · rintro ⟨rfl, hsum, hlarge⟩
              cases hsum
              exact if_pos hlarge
          · exact nomatch h

/-- **The word of any other instruction** is its pattern, whatever stands behind the mnemonic. -/
theorem word?_plain (htakes : op.takesOperand = false) :
    (statement label (.instruction op operand indirect)).word? symbols = some op.pattern :=
  word?_of_outcome (outcome_plain htakes)

end Line

/-! ## The instruction words of a listing -/

/-- The operations with an operand are those on memory. -/
theorem Opcode.takesOperand_iff {op : Opcode} : op.takesOperand = true ↔ op.kind = .memory :=
  decide_eq_true_iff

/-- **Every instruction word means what its line says.** Take an instruction line that the second
pass reaches. A memory reference has a word exactly when its operand denotes a number, the address
of the last definition of a symbol or the number that the token spells, and the word is the sum
of pattern, number and indirect bit modulo `2 ^ 16`. An overflow is reported exactly when the
number needs more than 12 bits; without that report the word decodes to the opcode, the number
and the indirect mark of the line. Any other instruction has a word and decodes to its opcode. The
word stands in the listing behind the words of the lines in front. -/
theorem instruction_words_decode {policy : BlankLines} {source : String} {a : Assembly}
    (h : assemble policy source = .ok a) {i : Nat} {label operand : Option String} {op : Opcode}
    {indirect : Bool}
    (hline : (sourceLines source)[i]? = some (.statement label (.instruction op operand indirect)))
    (hreached : ∀ line ∈ (sourceLines source).take i, line.isStop = false) :
    let line := Line.statement label (.instruction op operand indirect)
    let overflow := ∃ mnemonic number, ⟨i + 1, .operandOverflow mnemonic number⟩ ∈ a.diagnostics
    (∀ name, a.symbols.resolve name =
      ((a.symbols.toList.filter (·.name = name)).getLast?).map (·.address)) ∧
    (op.kind = .memory →
      (line.word? a.symbols =
        (operand.bind a.symbols.number?).map fun number =>
          BitVec.ofNat 16 (op.pattern.toNat + number + if indirect then 0x8000 else 0)) ∧
      (overflow ↔ ∃ number, operand.bind a.symbols.number? = some number ∧ 0xFFF < number) ∧
      (¬ overflow → ∀ word, line.word? a.symbols = some word →
        ∃ address, operand.bind a.symbols.number? = some address.toNat ∧
          Decoded.ofWord word = .memory op address indirect)) ∧
    (op.kind ≠ .memory →
      ∃ word, line.word? a.symbols = some word ∧ Decoded.ofWord word = .register op) ∧
    ∀ word, line.word? a.symbols = some word →
      ∃ earlier address later,
        emitFrom policy a.symbols 0 (numbered ((sourceLines source).take i)) = .ok earlier ∧
        a.listing.entries = earlier.entries ++ ⟨address, word⟩ :: later := by
  intro line overflow
  have hprogram : (program (sourceLines source))[i]? = some line :=
    getElem?_program_eq_some_iff.mpr ⟨hline, rfl, hreached⟩
  have hsymbols : a.symbols = symbolsOf policy (sourceLines source) := by
    obtain ⟨-, rfl⟩ := assembleLines_eq_ok_iff.mp h
    rfl
  obtain ⟨outcome, houtcome⟩ : ∃ outcome, line.outcome a.symbols = .ok outcome := by
    rw [hsymbols]
    exact (assembleLines_eq_ok_iff.mp h).1 line (List.mem_of_getElem? hprogram)
  refine ⟨fun name => ?_, fun hkind => ?_, fun hkind => ?_, fun word hword => ?_⟩
  · rw [hsymbols, symbolsOf, SymbolTable.toList_ofList]
    exact SymbolTable.resolve_ofList _ name
  · have htakes := Opcode.takesOperand_iff.mpr hkind
    have hword := Line.word?_reference htakes houtcome
    have hoverflow : overflow ↔
        ∃ number, operand.bind a.symbols.number? = some number ∧ 0xFFF < number := by
      have hreport : ∀ mnemonic number, ⟨i + 1, .operandOverflow mnemonic number⟩ ∈ a.diagnostics ↔
          mnemonic = op.mnemonic ∧ operand.bind a.symbols.number? = some number ∧
            0xFFF < number := by
        intro mnemonic number
        have hlabel : ∀ label, Issue.operandOverflow mnemonic number ≠ .invalidLabel label := by
          simp
        rw [mem_diagnostics_iff_issue? h hline hreached hlabel]
        exact Line.issue?_reference_eq_operandOverflow_iff htakes houtcome
      constructor
      · rintro ⟨mnemonic, number, hmem⟩
        exact ⟨number, ((hreport mnemonic number).mp hmem).2⟩
      · rintro ⟨number, hnumber⟩
        exact ⟨op.mnemonic, number, (hreport op.mnemonic number).mpr ⟨rfl, hnumber⟩⟩
    refine ⟨hword, hoverflow, fun hfits word hsome => ?_⟩
    rw [hword] at hsome
    obtain ⟨number, hnumber, rfl⟩ := Option.map_eq_some_iff.mp hsome
    have hsmall : number ≤ 0xFFF := by
      by_contra hlarge
      exact hfits (hoverflow.mpr ⟨number, hnumber, by omega⟩)
    refine ⟨BitVec.ofNat 16 number, ?_, Decoded.ofWord_referenceSum htakes hsmall indirect⟩
    rw [hnumber, BitVec.toNat_ofNat, Nat.mod_eq_of_lt (by omega)]
  · have htakes : op.takesOperand = false := by
      by_contra htakes
      exact hkind (Opcode.takesOperand_iff.mp (by simpa using htakes))
    exact ⟨op.pattern, Line.word?_plain htakes, Decoded.ofWord_pattern htakes⟩
  · obtain ⟨earlier, later, hearlier, hentries⟩ := entries_at h hprogram hword
    exact ⟨earlier, _, later, hearlier, hentries⟩

/-- A forward reference through a symbol that also reads as a number, with the indirect mark, in
front of a reference that overflows. -/
theorem instruction_words_decode_of_forward_reference :
    ∃ a, assemble .advance "LDA ABC I\nADD 1FFF\nABC, HEX 5\n" = .ok a ∧
      (∃ word, (Line.statement none (.instruction .lda (some "ABC") true)).word? a.symbols =
        some word ∧ Decoded.ofWord word = .memory .lda 2 true) ∧
      ∃ mnemonic number, ⟨2, .operandOverflow mnemonic number⟩ ∈ a.diagnostics := by
  have hrun : assemble .advance "LDA ABC I\nADD 1FFF\nABC, HEX 5\n" =
      .ok {
        listing := ⟨[⟨0, 0xA002⟩, ⟨1, 0x2FFF⟩, ⟨2, 0x0005⟩]⟩
        symbols := .ofList [⟨"ABC", 2⟩]
        diagnostics := [⟨2, .operandOverflow "ADD" 0x1FFF⟩] } := by
    decide +kernel
  have hfirst : (sourceLines "LDA ABC I\nADD 1FFF\nABC, HEX 5\n")[0]? =
      some (.statement none (.instruction .lda (some "ABC") true)) := by
    decide +kernel
  have hsecond : (sourceLines "LDA ABC I\nADD 1FFF\nABC, HEX 5\n")[1]? =
      some (.statement none (.instruction .add (some "1FFF") false)) := by
    decide +kernel
  obtain ⟨-, hreference, -, -⟩ := instruction_words_decode hrun hfirst (by decide +kernel)
  obtain ⟨hword, -, hdecode⟩ := hreference (by decide)
  obtain ⟨-, hreference, -, -⟩ := instruction_words_decode hrun hsecond (by decide +kernel)
  obtain ⟨-, hoverflow, -⟩ := hreference (by decide)
  refine ⟨_, hrun, ⟨0xA002, ?_, ?_⟩, hoverflow.mpr ⟨0x1FFF, ?_, ?_⟩⟩
  · rw [hword]
    decide +kernel
  · obtain ⟨address, haddress, hmemory⟩ := hdecode (by simp) 0xA002 (by rw [hword]; decide +kernel)
    rw [hmemory]
    have hnumber : (some "ABC").bind (SymbolTable.ofList [⟨"ABC", 2⟩]).number? = some 2 := by
      decide +kernel
    have hnat : address.toNat = 2 := Option.some.inj (haddress.symm.trans hnumber)
    rw [BitVec.eq_of_toNat_eq (y := 2) hnat]
  · decide +kernel
  · decide

end BasicComputer
