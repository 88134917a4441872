import Mathlib.Data.List.TakeWhile
import BasicComputer.Disassembly
import BasicComputer.Proofs.CanonicalLines
import BasicComputer.Proofs.Decoding
import BasicComputer.Proofs.Passes
import BasicComputer.Proofs.Texts

/-!
# A disassembly assembles to what it was made from

A listing is turned into source lines, the source lines into text, the text into lines again, and
these into a listing. The last listing is the first one, entry by entry, for entries in any order
and at any addresses.

* **Text** (`sourceLines_render`): the lines of a rendered disassembly are the statements of its
  source lines, without labels. These are well formed, and a source line is written with the tokens
  of its statement.
* **One line** (`outcome_org`, `outcome_ofWord`): an `ORG` moves to its address and the statement of
  a word emits the word, both without a warning, when there are no symbols.
* **All lines** (`entriesFrom_linesFrom_append`): the induction over the entries. Its invariant
  couples the address that the disassembler expects to the location counter: if the disassembler
  expects an address at all, it is the one the counter has. Behind `FFFF` it expects none, so that
  even an entry at 0, where the counter has wrapped to, gets an `ORG`.
-/

namespace BasicComputer

/-! ## Source lines as tokens -/

namespace SourceLine

/-- The tokens of a source line. -/
def tokens : SourceLine → List String
  | org address => ["ORG", Numeral.hex address]
  | code (.register op) => [op.mnemonic]
  | code (.memory op address false) => [op.mnemonic, Numeral.hex address]
  | code (.memory op address true) => [op.mnemonic, Numeral.hex address, "I"]
  | code (.data value) => ["HEX", Numeral.hex value]

/-- The statement that a source line stands for. -/
def statement : SourceLine → Statement
  | org address => .org (some (Numeral.hex address))
  | code (.register op) => .instruction op none false
  | code (.memory op address indirect) => .instruction op (some (Numeral.hex address)) indirect
  | code (.data value) => .data .hex (some (Numeral.hex value))

/-- The program line that a source line stands for. -/
def line (line : SourceLine) : Line :=
  .statement none line.statement

/-- The text of a line is its tokens with a space between them. -/
theorem text_eq_intercalate (line : SourceLine) : line.text = " ".intercalate line.tokens := by
  cases line with
  | org address => rfl
  | code decoded =>
      cases decoded with
      | register op => rfl
      | data value => rfl
      | memory op address indirect =>
          cases indirect with
          | false => rfl
          | true =>
              have hmark : " I" = " " ++ "I" := rfl
              show op.mnemonic ++ " " ++ Numeral.hex address ++ " I" = _
              rw [hmark]
              simp [tokens, String.intercalate_cons_cons, String.append_assoc]

/-- A word in hexadecimal is a token. -/
theorem isToken_hex (word : Word) : Text.IsToken (Numeral.hex word) := by
  unfold Text.IsToken
  rw [Numeral.toList_hex]
  exact ⟨Numeral.digits_ne_nil .hex word.toNat, Numeral.not_isBlank_of_mem_digits .hex word.toNat⟩

/-- A source line is written with the tokens of its program line. -/
theorem tokens_line (line : SourceLine) : line.line.tokens = line.tokens := by
  cases line with
  | org address => rfl
  | code decoded =>
      cases decoded with
      | register op => rfl
      | data value => rfl
      | memory op address indirect => cases indirect <;> rfl

/-- The lines that disassembly writes are well-formed. -/
theorem wellFormed_line (line : SourceLine) : line.line.WellFormed := by
  refine ⟨by simp, ?_⟩
  cases line with
  | org address => simp [statement, Statement.WellFormed, isToken_hex]
  | code decoded =>
      cases decoded with
      | register op => simp [statement, Statement.WellFormed, op.mem_all]
      | data value => simp [statement, Statement.WellFormed, isToken_hex]
      | memory op address indirect =>
          simp [statement, Statement.WellFormed, op.mem_all, isToken_hex]

/-- The tokens of such a line are tokens. -/
theorem isToken_of_mem_tokens {line : SourceLine} : ∀ token ∈ line.tokens, Text.IsToken token := by
  rw [← tokens_line]
  exact Line.isToken_of_mem_tokens line.wellFormed_line

/-- The indent consists of spaces. -/
theorem eq_space_of_mem_indent : ∀ c ∈ Disassembly.indent.toList, c = ' ' := by
  intro c hc
  have hindent : Disassembly.indent.toList = List.replicate 5 ' ' := by decide +kernel
  rw [hindent] at hc
  exact List.eq_of_mem_replicate hc

/-- An indented source line is cut into its tokens. -/
theorem tokens_indent_text (line : SourceLine) :
    Text.tokens (Disassembly.indent ++ line.text) = line.tokens := by
  have hindent : ∀ c ∈ Disassembly.indent.toList, Text.isBlank c = true := by
    intro c hc
    rw [eq_space_of_mem_indent c hc]
    exact Text.isBlank_space
  rw [Text.tokens_blank_append hindent, text_eq_intercalate,
    Text.tokens_intercalate isToken_of_mem_tokens]

end SourceLine

/-! ## Source lines as statements -/

/-- **A source line parses to its statement**, without a label. -/
theorem Line.parse_indent_text (line : SourceLine) :
    parse (Disassembly.indent ++ line.text) = line.line := by
  rw [parse, SourceLine.tokens_indent_text, ← SourceLine.tokens_line,
    ofTokens_tokens line.wellFormed_line]

/-- A rendered disassembly has a line for each source line. -/
theorem Disassembly.lines_render (d : Disassembly) :
    Text.lines d.render = d.lines.map (Disassembly.indent ++ ·.text) := by
  refine Text.lines_unlines fun text htext => ?_
  obtain ⟨line, -, rfl⟩ := List.mem_map.mp htext
  rw [SourceLine.text_eq_intercalate]
  exact Text.isLine_append_intercalate SourceLine.eq_space_of_mem_indent
    SourceLine.isToken_of_mem_tokens

/-- **The lines of a rendered disassembly** are the statements of its source lines. -/
theorem sourceLines_render (d : Disassembly) :
    sourceLines d.render = d.lines.map SourceLine.line := by
  rw [sourceLines, Disassembly.lines_render, List.map_map]
  exact List.map_congr_left fun line _ => Line.parse_indent_text line

/-! ## What a source line comes to -/

/-- An `ORG` of a disassembly moves the counter to its address. -/
theorem Line.outcome_org (address : Word) :
    (SourceLine.org address).line.outcome .empty =
      .ok (.moved address none) :=
  outcome_orgLine (Numeral.word?_hex address) rfl

/-- **The statement of a word emits the word**: no reading of a word is lost on the way through
its text, and none is worth a warning. -/
theorem Line.outcome_ofWord (word : Word) :
    (SourceLine.code (.ofWord word)).line.outcome .empty =
      .ok (.emitted word none) := by
  rcases Decoded.ofWord_cases word with ⟨op, hdecoded, htakes, hpattern⟩ |
    ⟨op, address, indirect, hdecoded, htakes, haddress, hsum⟩ | hdecoded
  · rw [hdecoded, SourceLine.line, SourceLine.statement, outcome_plain htakes, Option.map_none,
      plainOutcome, hpattern]
    rfl
  · have hnumber : SymbolTable.empty.number? (Numeral.hex address) = some address.toNat :=
      Numeral.operand?_hex address
    have hfits : referenceSum op address.toNat indirect < 0x100000000 := by
      have hpattern := op.pattern.isLt
      have hbit : Word.indirectBit.toNat = 0x8000 := rfl
      rw [referenceSum, hbit]
      split <;> omega
    rw [hdecoded, SourceLine.line, SourceLine.statement, outcome_reference htakes, Option.map_some,
      referenceOutcome_operand, hnumber]
    dsimp only
    rw [if_pos hfits, hsum, if_neg (Nat.not_lt.mpr haddress)]
  · rw [hdecoded]
    show Except.ok (dataOutcome .hex (some ⟨Numeral.hex word, none⟩)) = _
    rw [dataOutcome, Operand.text]
    dsimp only
    rw [Numeral.signed?_hex]
    dsimp only
    rw [Word.ofInt?_toNat]

/-! ## What all source lines come to -/

/-- The next address is one more. -/
theorem Word.next?_eq_some {address next : Word} (h : Word.next? address = some next) :
    next = address + 1 := by
  unfold Word.next? at h
  split at h
  · exact nomatch h
  · exact (Option.some.inj h).symm

/-- An `ORG` of a disassembly emits nothing, and the lines behind it start at its address. -/
theorem entriesFrom_org_cons (policy : BlankLines) (address counter : Word) (rest : List Line) :
    entriesFrom policy .empty counter ((SourceLine.org address).line :: rest) =
      entriesFrom policy .empty address rest := by
  have hword : (orgLine (Numeral.hex address)).word? .empty = none :=
    Line.word?_of_outcome (Line.outcome_org address)
  apply collect_orgLine_cons (Numeral.word?_hex address) rfl
  rw [hword, Option.map_none]

/-- The statement of a word puts the word where the counter stands and takes one address. -/
theorem entriesFrom_ofWord_cons (policy : BlankLines) (word counter : Word) (rest : List Line) :
    entriesFrom policy .empty counter ((SourceLine.code (.ofWord word)).line :: rest) =
      ⟨counter, word⟩ :: entriesFrom policy .empty (counter + 1) rest := by
  have hword : (SourceLine.code (.ofWord word)).line.word? .empty = some word :=
    Line.word?_of_outcome (Line.outcome_ofWord word)
  have hnext : policy.next (SourceLine.code (.ofWord word)).line
      ((SourceLine.code (.ofWord word)).line.resolvedTarget? .empty) counter = counter + 1 := by
    cases Decoded.ofWord word <;> rfl
  rw [entriesFrom, BlankLines.collect, hword, hnext]
  rfl

/-- Where the location counter stands behind the source lines of entries: one address behind the
last of them. -/
def addressBehind (start : Word) (entries : List Entry) : Word :=
  entries.foldl (fun _ e => e.address + 1) start

/-- **The entries come back** from their source lines, and what follows these lines goes on behind
the last entry. The induction is on the entries, and its invariant is `hexpected`: the address that
the disassembler expects next, if there is one, is the location counter. -/
theorem entriesFrom_linesFrom_append (policy : BlankLines) (entries : List Entry)
    {expected : Option Word} {counter : Word}
    (hexpected : ∀ address, expected = some address → address = counter) (rest : List Line) :
    entriesFrom policy .empty counter
        ((Disassembly.linesFrom expected entries).map SourceLine.line ++ rest) =
      entries ++ entriesFrom policy .empty (addressBehind counter entries) rest := by
  induction entries generalizing expected counter with
  | nil => rfl
  | cons e others ih =>
      have hcode : entriesFrom policy .empty e.address ((SourceLine.code (.ofWord e.value) ::
            Disassembly.linesFrom (Word.next? e.address) others).map SourceLine.line ++ rest) =
          e :: others ++ entriesFrom policy .empty (addressBehind counter (e :: others)) rest := by
        rw [List.map_cons, List.cons_append, entriesFrom_ofWord_cons,
          ih fun _ => Word.next?_eq_some]
        rfl
      rw [Disassembly.linesFrom]
      split
      · next heq =>
        rw [← hexpected e.address heq]
        exact hcode
      · rw [List.map_cons, List.cons_append, entriesFrom_org_cons]
        exact hcode

/-- **The listing comes back.** -/
theorem entriesFrom_linesFrom (policy : BlankLines) (entries : List Entry) {expected : Option Word}
    {counter : Word} (hexpected : ∀ address, expected = some address → address = counter) :
    entriesFrom policy .empty counter
        ((Disassembly.linesFrom expected entries).map SourceLine.line) = entries := by
  have hall := entriesFrom_linesFrom_append policy entries hexpected []
  rw [List.append_nil] at hall
  rw [hall]
  exact List.append_nil entries

/-- What a source line of a disassembly is: an `ORG`, or the reading of a word. -/
def SourceLine.IsReading (line : SourceLine) : Prop :=
  (∃ address, line = .org address) ∨ ∃ word, line = .code (.ofWord word)

/-- Every line that is made of a listing is the reading of a word or an `ORG`. -/
theorem isReading_of_mem_linesFrom {expected : Option Word} {entries : List Entry}
    {line : SourceLine} (h : line ∈ Disassembly.linesFrom expected entries) : line.IsReading := by
  induction entries generalizing expected with
  | nil => exact absurd h List.not_mem_nil
  | cons e rest ih =>
      have hcode : line ∈ SourceLine.code (.ofWord e.value) ::
            Disassembly.linesFrom (Word.next? e.address) rest → line.IsReading := by
        intro hmem
        rcases List.mem_cons.mp hmem with rfl | hrest
        · exact .inr ⟨e.value, rfl⟩
        · exact ih hrest
      rw [Disassembly.linesFrom] at h
      split at h
      · exact hcode h
      · rcases List.mem_cons.mp h with rfl | hmem
        · exact .inl ⟨e.address, rfl⟩
        · exact hcode hmem

/-- No source line of a disassembly is at fault or worth a report. -/
theorem SourceLine.IsReading.outcome {line : SourceLine} (h : line.IsReading) :
    ∃ outcome, line.line.outcome .empty = .ok outcome ∧ outcome.issue? = none := by
  rcases h with ⟨address, rfl⟩ | ⟨word, rfl⟩
  · exact ⟨_, Line.outcome_org address, rfl⟩
  · exact ⟨_, Line.outcome_ofWord word, rfl⟩

/-! ## Lines without labels -/

/-- Lines without labels define nothing. -/
theorem definitionsFrom_of_label?_eq_none (policy : BlankLines) (counter : Word) {lines : List Line}
    (h : ∀ line ∈ lines, line.label? = none) : definitionsFrom policy counter lines = [] := by
  induction lines generalizing counter with
  | nil => rfl
  | cons line rest ih =>
      obtain ⟨hline, hrest⟩ := List.forall_mem_cons.mp h
      rw [definitionsFrom, Line.symbolName?_eq_bind, hline, ih _ hrest]
      rfl

/-- Lines without labels have no label to report. -/
theorem labelDiagnostics_of_label?_eq_none {lines : List Line}
    (h : ∀ line ∈ lines, line.label? = none) : labelDiagnostics (numbered lines) = [] := by
  rw [labelDiagnostics, List.filterMap_eq_nil_iff]
  intro p hp
  have hlabel := h p.1 (List.fst_mem_of_mem_zipIdx hp)
  have hplaced : p.1.placedLabel? = none := by
    unfold Line.placedLabel?
    rw [hlabel]
    exact ite_self none
  show (p.1.labelIssue?).map _ = none
  rw [Line.labelIssue?, hplaced]
  rfl

/-! ## Reassembly -/

/-- Disassembly writes no `END`. -/
theorem SourceLine.isStop_line (line : SourceLine) : line.line.isStop = false := by
  rcases line with address | decoded
  · rfl
  · cases decoded <;> rfl

/-- **Source lines assemble** to what their words come to, without symbols and without a
diagnostic. -/
theorem assembleLines_of_isReading (policy : BlankLines) {source : List SourceLine}
    (h : ∀ line ∈ source, line.IsReading) :
    assembleLines policy (source.map SourceLine.line) =
      .ok { listing := ⟨entriesFrom policy .empty 0 (source.map SourceLine.line)⟩,
            symbols := .empty, diagnostics := [] } := by
  generalize hlines : source.map SourceLine.line = lines
  have hmem : ∀ line ∈ lines, ∃ sourceLine ∈ source, sourceLine.line = line := by
    intro line hline
    rw [← hlines] at hline
    exact List.mem_map.mp hline
  have hlabel : ∀ line ∈ lines, line.label? = none := by
    intro line hline
    obtain ⟨sourceLine, -, rfl⟩ := hmem line hline
    rfl
  have houtcome : ∀ line ∈ lines,
      ∃ outcome, line.outcome .empty = .ok outcome ∧ outcome.issue? = none := by
    intro line hline
    obtain ⟨sourceLine, hsource, rfl⟩ := hmem line hline
    exact (h sourceLine hsource).outcome
  have hprogram : program lines = lines := by
    refine List.takeWhile_eq_self_iff.mpr fun line hline => ?_
    obtain ⟨sourceLine, -, rfl⟩ := hmem line hline
    rw [SourceLine.isStop_line]
    rfl
  have hsymbols : symbolsOf policy lines = .empty := by
    rw [symbolsOf, definitions, definitionsFrom_of_label?_eq_none policy 0 hlabel]
    rfl
  have hreports : reports .empty lines = [] := by
    rw [reports, hprogram, List.filterMap_eq_nil_iff]
    intro p hp
    obtain ⟨outcome, hok, hissue⟩ := houtcome p.1 (List.fst_mem_of_mem_zipIdx hp)
    show (p.1.issue? .empty).map _ = none
    rw [Line.issue?_of_outcome hok, hissue]
    rfl
  rw [assembleLines_eq_ok_iff, ← entriesFrom_program, hsymbols, hprogram, hreports,
    labelDiagnostics_of_label?_eq_none hlabel]
  refine ⟨fun line hline => ?_, rfl⟩
  obtain ⟨outcome, hok, -⟩ := houtcome line hline
  exact ⟨outcome, hok⟩

/-- **The source lines of any entries assemble to these entries.** -/
theorem assembleLines_linesOf (policy : BlankLines) (entries : List Entry) :
    assembleLines policy ((Disassembly.linesOf entries).map SourceLine.line) =
      .ok { listing := ⟨entries⟩, symbols := .empty, diagnostics := [] } := by
  rw [Disassembly.linesOf, assembleLines_of_isReading policy fun _ => isReading_of_mem_linesFrom,
    entriesFrom_linesFrom policy entries (by simp)]

/-- **Disassembling and assembling again loses nothing.** Whatever text is read as a listing, with
malformed lines, repeated addresses and addresses in any order, the rendered disassembly assembles
under both policies to exactly the entries that were read, without symbols and without a
diagnostic. -/
theorem assemble_render_disassembly (policy : BlankLines) (text : String) :
    assemble policy (Disassembly.ofText text).render =
      .ok { listing := (Listing.read text).listing, symbols := .empty, diagnostics := [] } := by
  rw [assemble, sourceLines_render]
  exact assembleLines_linesOf policy (Listing.read text).listing.entries

end BasicComputer
