import BasicComputer.Proofs.CanonicalLines
import BasicComputer.Proofs.Deliveries
import BasicComputer.Proofs.ListingGrammar
import BasicComputer.Proofs.Reports

/-!
# One line for each diagnostic

A diagnostic quotes what it found in the input, and a line feed in a quoted text would cut its
report in two. None gets there, whatever the input holds.

* **Messages** (`Issue.isUnbroken_message`): a message is fixed words, numerals and the texts that
  it quotes (`Issue.quoted`), so a line feed in it is one of a quoted text.
* **Source lines** (`Line.quotes_of_issue?`): the second pass quotes the label, the mnemonic or the
  operand of the line, or the numeral of an address. In a line that was parsed these hold no blank
  character, and the line feed is one.
* **Listing lines** (`Entry.isUnbroken_of_ofLine?`): the reader of a listing quotes a half of the
  line as it stands, with blank characters inside. Here there is no line feed because the line has
  none.
* **Runs** (`isOneLine_of_run`): what a run reports are the diagnostics of an assembly or of a
  disassembly, so line feeds cut them apart again (`splitOnP_reported`).
-/

namespace BasicComputer

/-! ## Texts without a line feed -/

namespace Text

/-- A text that no line feed cuts in two. -/
def IsUnbroken (text : String) : Prop :=
  '\n' ∉ text.toList

instance (text : String) : Decidable (IsUnbroken text) :=
  inferInstanceAs (Decidable ('\n' ∉ text.toList))

/-- Texts without a line feed have none when they are joined. -/
theorem IsUnbroken.append {first second : String} (hfirst : IsUnbroken first)
    (hsecond : IsUnbroken second) : IsUnbroken (first ++ second) := by
  intro hfeed
  rw [String.toList_append, List.mem_append] at hfeed
  rcases hfeed with hfeed | hfeed
  · exact hfirst hfeed
  · exact hsecond hfeed

/-- The line feed is blank, so a text without a blank character is unbroken. -/
theorem isUnbroken_of_not_isBlank {text : String} (h : ∀ c ∈ text.toList, isBlank c = false) :
    IsUnbroken text :=
  fun hfeed => absurd (h _ hfeed) (by decide)

/-- The lines of a text are unbroken. -/
theorem isUnbroken_of_cutInto {cs : List Char} {lines : List String} (h : CutInto cs lines) :
    ∀ line ∈ lines, IsUnbroken line := by
  induction h with
  | nil => simp
  | last hne hfeed => exact List.forall_mem_singleton.mpr hfeed
  | feed hline _ ih => exact List.forall_mem_cons.mpr ⟨hline.1, ih⟩
  | returnFeed hfeed _ ih => exact List.forall_mem_cons.mpr ⟨hfeed, ih⟩

end Text

open Text (IsUnbroken)

namespace Numeral

/-- A number has no line feed. -/
theorem isUnbroken_write (radix : Radix) (n : Nat) : IsUnbroken (write radix n) := by
  apply Text.isUnbroken_of_not_isBlank
  rw [write, String.toList_ofList]
  exact not_isBlank_of_mem_digits radix n

/-- A signed number has no line feed. -/
theorem isUnbroken_writeInt (value : Int) : IsUnbroken (writeInt value) := by
  unfold writeInt
  split
  · exact .append (by decide) (isUnbroken_write _ _)
  · exact isUnbroken_write _ _

end Numeral

/-! ## Messages -/

/-- The name of a radix has no line feed. -/
theorem Radix.isUnbroken_name (radix : Radix) : IsUnbroken radix.name := by
  cases radix <;> decide

namespace Issue

/-- The texts that the message of an issue quotes. -/
def quoted : Issue → List String
  | unknownMnemonic mnemonic => [mnemonic]
  | missingMnemonic label => [label]
  | missingOperand mnemonic => [mnemonic]
  | invalidNumber token _ => [token]
  | symbolNotNumeric symbol text _ => [symbol, text]
  | orgThroughSymbol symbol _ => [symbol]
  | undefinedSymbol symbol => [symbol]
  | invalidLabel label => [label]
  | operandOverflow mnemonic _ => [mnemonic]
  | ignoredOperand mnemonic operand => [mnemonic, operand]
  | valueOutOfRange _ => []

/-- Quoting adds no line feed. -/
theorem isUnbroken_quote {token : String} (h : IsUnbroken token) : IsUnbroken (quote token) :=
  .append (.append (by decide) h) (by decide)

/-- **A message is unbroken** if the texts that it quotes are. -/
theorem isUnbroken_message {issue : Issue} (h : ∀ text ∈ issue.quoted, IsUnbroken text) :
    IsUnbroken issue.message := by
  have hquote : ∀ text ∈ issue.quoted, IsUnbroken (quote text) :=
    fun text htext => isUnbroken_quote (h text htext)
  cases issue with
  | unknownMnemonic mnemonic => exact .append (by decide) (hquote mnemonic (.head _))
  | missingMnemonic label =>
      exact .append (.append (by decide) (hquote label (.head _))) (by decide)
  | missingOperand mnemonic => exact .append (hquote mnemonic (.head _)) (by decide)
  | invalidNumber token radix =>
      refine .append (.append (.append (hquote token (.head _)) ?_) radix.isUnbroken_name) ?_ <;>
        decide
  | symbolNotNumeric symbol text radix =>
      have hsymbol := hquote symbol (.head _)
      have htext := hquote text (.tail _ (.head _))
      refine .append (.append (.append (.append (.append (.append ?_ hsymbol) ?_) htext) ?_)
        radix.isUnbroken_name) ?_ <;> decide
  | orgThroughSymbol symbol address =>
      have hsymbol := hquote symbol (.head _)
      have haddress := Numeral.isUnbroken_write .hex address.toNat
      refine .append (.append (.append (.append ?_ hsymbol) ?_) haddress) ?_ <;> decide
  | undefinedSymbol symbol => exact .append (by decide) (hquote symbol (.head _))
  | invalidLabel label =>
      exact .append (.append (by decide) (hquote label (.head _))) (by decide)
  | operandOverflow mnemonic operand =>
      have hoperand := Numeral.isUnbroken_write .hex operand
      have hmnemonic := hquote mnemonic (.head _)
      refine .append (.append (.append (.append ?_ hoperand) ?_) hmnemonic) ?_ <;> decide
  | ignoredOperand mnemonic operand =>
      exact .append (.append (hquote mnemonic (.head _)) (by decide))
        (hquote operand (.tail _ (.head _)))
  | valueOutOfRange value =>
      exact .append (.append (by decide) (Numeral.isUnbroken_writeInt value)) (by decide)

end Issue

/-! ## What the second pass quotes -/

/-- The operand that cannot be read is quoted as it stands, or with the address of its symbol. -/
theorem Operand.quoted_issue (operand : Operand) (radix : Radix) :
    ∀ text ∈ (operand.issue radix).quoted,
      text = operand.token ∨ ∃ address : Word, text = Numeral.hex address := by
  unfold issue
  split
  · next address _ => simp [Issue.quoted]
  · split
    · simp [Issue.quoted]
    · simp [Issue.quoted]

namespace Line

/-- The label, the mnemonic and the operand of a line. -/
def parts : Line → List String
  | blank => []
  | labelOnly label => [label]
  | statement label body => label.toList ++ body.mnemonic :: body.operand?.toList

/-- An issue quotes nothing but parts of the line and the numerals of addresses. -/
def Quotes (line : Line) (issue : Issue) : Prop :=
  ∀ text ∈ issue.quoted, text ∈ line.parts ∨ ∃ address : Word, text = Numeral.hex address

section outcome

variable {label operand : Option String} {body : Statement} {issue : Issue}

/-- The mnemonic is a part of its line. -/
theorem mnemonic_mem_parts : body.mnemonic ∈ (statement label body).parts :=
  List.mem_append_right _ List.mem_cons_self

/-- The operand is a part of its line. -/
theorem operand_mem_parts {token : String} (h : body.operand? = some token) :
    token ∈ (statement label body).parts :=
  List.mem_append_right _ (List.mem_cons_of_mem _ (Option.mem_toList.mpr h))

/-- An issue that quotes the mnemonic alone. -/
theorem quotes_mnemonic (h : issue.quoted = [body.mnemonic]) :
    (statement label body).Quotes issue := by
  intro text htext
  rw [h, List.mem_singleton] at htext
  exact .inl (htext ▸ mnemonic_mem_parts)

/-- An operand that cannot be read is quoted from the line. -/
theorem quotes_operandIssue {token : String} (h : body.operand? = some token)
    (symbols : SymbolTable) (radix : Radix) :
    (statement label body).Quotes ((symbols.operand token).issue radix) := by
  intro text htext
  rcases (symbols.operand token).quoted_issue radix text htext with rfl | haddress
  · exact .inl (operand_mem_parts h)
  · exact .inr haddress

/-- What is reported of an `ORG` quotes parts of the line. -/
theorem quotes_orgOutcome (symbols : SymbolTable)
    (h : (orgOutcome (operand.map symbols.operand)).issue? = some issue) :
    (statement label (.org operand)).Quotes issue := by
  cases operand with
  | none =>
      cases h
      exact quotes_mnemonic rfl
  | some token =>
      rw [Option.map_some, orgOutcome_operand] at h
      split at h
      · cases h
        exact quotes_operandIssue rfl symbols .hex
      · dsimp only [Outcome.issue?] at h
        split at h
        · cases h
          intro text htext
          rw [List.mem_singleton.mp htext]
          exact .inl (operand_mem_parts rfl)
        · cases h

/-- What is reported of data quotes parts of the line. -/
theorem quotes_dataOutcome (symbols : SymbolTable) (radix : Radix)
    (h : (dataOutcome radix (operand.map symbols.operand)).issue? = some issue) :
    (statement label (.data radix operand)).Quotes issue := by
  cases operand with
  | none =>
      cases h
      exact quotes_mnemonic rfl
  | some token =>
      rw [Option.map_some, dataOutcome] at h
      split at h
      · cases h
        exact quotes_operandIssue rfl symbols radix
      · split at h
        · cases h
        · cases h
          simp [Quotes, Issue.quoted]

/-- What is reported of an instruction with an operand quotes parts of the line. -/
theorem quotes_referenceOutcome (symbols : SymbolTable) {op : Opcode} {indirect : Bool}
    {outcome : Outcome}
    (houtcome : referenceOutcome op indirect (operand.map symbols.operand) = .ok outcome)
    (h : outcome.issue? = some issue) :
    (statement label (.instruction op operand indirect)).Quotes issue := by
  cases operand with
  | none =>
      cases houtcome
      cases h
      exact quotes_mnemonic rfl
  | some token =>
      rw [Option.map_some, referenceOutcome] at houtcome
      split at houtcome
      · cases houtcome
        cases h
        exact quotes_operandIssue rfl symbols .hex
      · dsimp only at houtcome
        split at houtcome
        · cases houtcome
          dsimp only [Outcome.issue?] at h
          split at h
          · cases h
            exact quotes_mnemonic rfl
          · cases h
        · cases houtcome

/-- What is reported of an instruction without an operand quotes parts of the line. -/
theorem quotes_plainOutcome (symbols : SymbolTable) {op : Opcode} {indirect : Bool}
    (h : (plainOutcome op (operand.map symbols.operand)).issue? = some issue) :
    (statement label (.instruction op operand indirect)).Quotes issue := by
  obtain ⟨o, ho, rfl⟩ := Option.map_eq_some_iff.mp h
  obtain ⟨token, rfl, rfl⟩ := Option.map_eq_some_iff.mp ho
  intro text htext
  rcases List.mem_cons.mp htext with rfl | htext
  · exact .inl mnemonic_mem_parts
  · rw [List.mem_singleton.mp htext]
    exact .inl (operand_mem_parts rfl)

end outcome

/-- **The second pass quotes from the line that it reports.** -/
theorem quotes_of_issue? {symbols : SymbolTable} {line : Line} {issue : Issue}
    (h : line.issue? symbols = some issue) : line.Quotes issue := by
  obtain ⟨outcome, houtcome, hissue⟩ := exists_outcome_of_issue? h
  cases line with
  | blank => cases houtcome; cases hissue
  | labelOnly label =>
      cases houtcome
      cases hissue
      exact fun text htext => .inl htext
  | statement label body =>
      cases body with
      | org operand =>
          cases houtcome
          exact quotes_orgOutcome symbols hissue
      | stop => cases houtcome; cases hissue
      | data radix operand =>
          cases houtcome
          exact quotes_dataOutcome symbols radix hissue
      | unknown mnemonic operand =>
          cases houtcome
          cases hissue
          exact quotes_mnemonic rfl
      | instruction op operand indirect =>
          cases htakes : op.takesOperand with
          | true =>
              rw [outcome_reference htakes] at houtcome
              exact quotes_referenceOutcome symbols houtcome hissue
          | false =>
              rw [outcome_plain htakes] at houtcome
              cases houtcome
              exact quotes_plainOutcome symbols hissue

/-- The first pass quotes the label of the line that it reports. -/
theorem quotes_of_labelIssue? {line : Line} {issue : Issue} (h : line.labelIssue? = some issue) :
    line.Quotes issue := by
  obtain ⟨label, hlabel, rfl⟩ := Option.map_eq_some_iff.mp h
  have hplaced := (Option.filter_eq_some_iff.mp hlabel).1
  rw [placedLabel?] at hplaced
  split at hplaced
  · cases hplaced
  · intro text htext
    rw [List.mem_singleton.mp htext]
    cases line with
    | blank => cases hplaced
    | labelOnly name => cases hplaced; exact .inl List.mem_cons_self
    | statement name body =>
        exact .inl (List.mem_append_left _ (Option.mem_toList.mpr hplaced))

/-- The parts of a line that was parsed hold no blank character. -/
theorem isUnbroken_of_mem_parts {line : Line} (h : line.WellFormed) :
    ∀ text ∈ line.parts, IsUnbroken text := by
  have hlabel : ∀ name, IsLabel name → IsUnbroken name :=
    fun name hname => Text.isUnbroken_of_not_isBlank fun c hc => (hname.2 c hc).1
  intro text htext
  cases line with
  | blank => cases htext
  | labelOnly label =>
      rw [List.mem_singleton.mp htext]
      exact hlabel label h
  | statement label body =>
      rcases List.mem_append.mp htext with hmem | hmem
      · exact hlabel text (h.1 text (Option.mem_toList.mp hmem))
      · apply Text.isUnbroken_of_not_isBlank
        rcases List.mem_cons.mp hmem with rfl | hmem
        · exact (Statement.isToken_mnemonic h.2).2
        · exact (Statement.isToken_of_mem_operand? h.2 text (Option.mem_toList.mp hmem)).2

/-- What is quoted from a line that was parsed makes no line feed. -/
theorem Quotes.isUnbroken_message {line : Line} {issue : Issue} (h : line.Quotes issue)
    (hline : line.WellFormed) : IsUnbroken issue.message := by
  refine Issue.isUnbroken_message fun text htext => ?_
  rcases h text htext with hpart | ⟨address, rfl⟩
  · exact isUnbroken_of_mem_parts hline text hpart
  · exact Numeral.isUnbroken_write .hex address.toNat

end Line

/-- **The messages of an assembly are unbroken.** -/
theorem isUnbroken_message_of_assemble {policy : BlankLines} {source : String} {a : Assembly}
    (h : assemble policy source = .ok a) :
    ∀ d ∈ a.diagnostics, IsUnbroken d.issue.message := by
  have hparsed : ∀ line ∈ sourceLines source, line.WellFormed := by
    intro line hline
    obtain ⟨text, -, rfl⟩ := List.mem_map.mp hline
    exact Line.wellFormed_parse text
  intro d hd
  rw [diagnostics_eq_lineReports h] at hd
  obtain ⟨i, -, hi⟩ := List.mem_flatMap.mp hd
  obtain ⟨issue, hissue, rfl⟩ := List.mem_map.mp hi
  rcases List.mem_append.mp hissue with hfirst | hsecond
  · obtain ⟨line, hline, hlabel⟩ := Option.bind_eq_some_iff.mp (Option.mem_toList.mp hfirst)
    exact (Line.quotes_of_labelIssue? hlabel).isUnbroken_message
      (hparsed line (List.mem_of_getElem? hline))
  · obtain ⟨line, hline, hissue⟩ := Option.bind_eq_some_iff.mp (Option.mem_toList.mp hsecond)
    exact (Line.quotes_of_issue? hissue).isUnbroken_message
      (hparsed line (mem_of_mem_program (List.mem_of_getElem? hline)))

/-! ## What the reader of a listing quotes -/

namespace Entry

/-- The token of a field is a stretch of it. -/
theorem isUnbroken_of_isTrimmed {field token : List Char} (h : Text.IsTrimmed field token)
    (hfield : '\n' ∉ field) : IsUnbroken (String.ofList token) := by
  obtain ⟨before, after, rfl, -⟩ := h
  intro hfeed
  rw [String.toList_ofList] at hfeed
  exact hfield (List.mem_append_right _ (List.mem_append_left _ hfeed))

/-- **The reader quotes from the line that it reports**, and a line is unbroken. -/
theorem isUnbroken_of_ofLine? {line : String} (hline : IsUnbroken line) {issue : Issue}
    (h : ofLine? line = some (.error issue)) : ∀ text ∈ issue.quoted, IsUnbroken text := by
  unfold Text.IsUnbroken at hline
  have hreads := reads_iff.mpr h
  generalize line.toList = cs at hline hreads
  cases hreads with
  | badAddress hcolon hfirst haddress =>
      exact List.forall_mem_singleton.mpr (isUnbroken_of_isTrimmed hfirst fun hfeed =>
        hline (List.mem_append_left _ hfeed))
  | badValue hcolon hfirst hsecond haddress hvalue =>
      exact List.forall_mem_singleton.mpr (isUnbroken_of_isTrimmed hsecond fun hfeed =>
        hline (List.mem_append_right _ (List.mem_cons_of_mem _ hfeed)))

end Entry

/-- **The messages of a disassembly are unbroken.** -/
theorem isUnbroken_message_of_ofText (text : String) :
    ∀ d ∈ (Disassembly.ofText text).diagnostics, IsUnbroken d.issue.message := by
  intro d hd
  change d ∈ (Listing.read text).diagnostics at hd
  rw [Listing.read_eq] at hd
  obtain ⟨⟨result, number⟩, hmem, hreport⟩ := List.mem_filterMap.mp hd
  obtain ⟨line, hline, rfl⟩ := List.mem_map.mp (List.fst_mem_of_mem_zipIdx hmem)
  have hunbroken := Text.isUnbroken_of_cutInto (Text.cutInto_iff.mpr rfl) line hline
  unfold Listing.diagnosticOf at hreport
  split at hreport
  · next issue number hresult =>
    cases hreport
    exact Issue.isUnbroken_message
      (Entry.isUnbroken_of_ofLine? hunbroken (congrArg Prod.fst hresult))
  · cases hreport

/-! ## The text of a diagnostic -/

namespace Diagnostic

/-- What the text of a diagnostic starts with. -/
def heading (d : Diagnostic) : String :=
  "line " ++ Numeral.write .decimal d.line ++
    match d.severity with
    | .warning => ": warning: "
    | .error => ": error: "

/-- The text of a diagnostic is one line, under the number and the severity of the diagnostic. -/
def IsOneLine (d : Diagnostic) : Prop :=
  IsUnbroken d.text ∧ d.heading.toList <+: d.text.toList

/-- The text of a diagnostic is its heading and behind it the message. -/
theorem text_eq (d : Diagnostic) : d.text = d.heading ++ d.issue.message := by
  unfold text heading
  cases d.severity with
  | warning => simp [Severity.name, String.append_assoc]
  | error => simp [Severity.name, String.append_assoc]

/-- A heading has no line feed. -/
theorem isUnbroken_heading (d : Diagnostic) : IsUnbroken d.heading := by
  have hnumber := Numeral.isUnbroken_write .decimal d.line
  unfold heading
  cases d.severity with
  | warning => exact .append (.append (by decide) hnumber) (by decide)
  | error => exact .append (.append (by decide) hnumber) (by decide)

variable {d : Diagnostic}

/-- A diagnostic whose message has no line feed is one line. -/
theorem isOneLine_of_message (h : IsUnbroken d.issue.message) : d.IsOneLine := by
  rw [IsOneLine, text_eq]
  refine ⟨.append d.isUnbroken_heading h, ?_⟩
  rw [String.toList_append]
  exact List.prefix_append _ _

/-- A text under such a heading is not taken for the reason why a run failed. -/
theorem IsOneLine.not_failure (h : d.IsOneLine) : ¬ "Error: ".toList <+: d.text.toList := by
  obtain ⟨rest, hrest⟩ := h.2
  rintro ⟨other, hother⟩
  have hfirst := congrArg List.head? (hother.trans hrest.symm)
  simp [heading] at hfirst

end Diagnostic

/-! ## Runs -/

/-- What a command is to report are the diagnostics of an assembly or of a disassembly. -/
theorem Command.isOneLine_of_prepare {command : Command} {files : FileTree} {job : Job}
    (h : command.prepare files.read? = .ok job) : ∀ d ∈ job.diagnostics, d.IsOneLine := by
  intro d hd
  apply Diagnostic.isOneLine_of_message
  cases command with
  | version => cases h; cases hd
  | assemble o =>
      obtain ⟨a, ⟨source, policy, -, -, ha⟩, rfl⟩ := exists_of_prepare_assemble h
      exact isUnbroken_message_of_assemble ha d hd
  | disassemble o =>
      obtain ⟨-, ⟨text, -, rfl⟩, rfl⟩ := exists_of_prepare_disassemble h
      exact isUnbroken_message_of_ofText text d hd

section run

variable {arguments : List String} {files : FileTree} {w : Wording}

/-- **Whatever a run reports is one line.** -/
theorem isOneLine_of_run : ∀ d ∈ (run arguments files w).reported, d.IsOneLine := by
  rcases run_cases arguments files w with ⟨ending, -, hrun⟩ | ⟨-, hrun⟩ |
    ⟨command, job, -, hprepare, hrun⟩
  · rw [hrun]
    exact List.forall_mem_nil _
  · rw [hrun]
    exact List.forall_mem_nil _
  · rw [hrun]
    rcases job.carryOut_cases files with ⟨output, after, -, hjob⟩ |
      ⟨front, path, text, rest, -, -, -, hjob⟩
    · rw [hjob]
      exact Command.isOneLine_of_prepare hprepare
    · rw [hjob]
      exact List.forall_mem_nil _

/-- A run that is denied its diagnostics counts them. -/
theorem count_of_denied {count : Nat}
    (h : (run arguments files w).ending = .failed (.denied count)) :
    count = (run arguments files w).reported.length := by
  rcases run_cases arguments files w with ⟨ending, hearly, hrun⟩ | ⟨-, hrun⟩ |
    ⟨command, job, -, -, hrun⟩
  · rw [hrun] at h
    cases h
    exact hearly.elim
  · rw [hrun] at h
    cases h
  · rcases job.carryOut_cases files with ⟨output, after, -, hjob⟩ |
      ⟨front, path, text, rest, -, -, -, hjob⟩
    · rw [hrun, hjob] at h ⊢
      simp only [Job.verdict] at h
      split at h
      · cases h; rfl
      · cases h
    · rw [hrun, hjob] at h
      cases h

/-- What stands behind the diagnostics on standard error when all deliveries were made. -/
def RunResult.closing (r : RunResult) : String :=
  if r.ending = .done then ""
  else "Error: " ++ Numeral.write .decimal r.reported.length ++ " diagnostic(s) reported\n"

/-- Standard error holds the diagnostics and what closes them, and nothing else. -/
theorem errorOutput_of_verdict
    (h : (run arguments files w).ending = .done ∨
      ∃ count, (run arguments files w).ending = .failed (.denied count)) :
    (run arguments files w).errorOutput w =
      Text.unlines ((run arguments files w).reported.map Diagnostic.text) ++
        (run arguments files w).closing := by
  rcases h with hdone | ⟨count, hdenied⟩
  · rw [RunResult.errorOutput, RunResult.closing, if_pos hdone, hdone]
  · rw [RunResult.closing, if_neg (by simp [hdenied]), ← count_of_denied hdenied]
    simp [RunResult.errorOutput, hdenied, Failure.message, Failure.causeText, String.append_assoc]

/-- Line feeds cut the diagnostics apart and leave nothing behind the last. -/
theorem splitOnP_reported :
    ((Text.unlines ((run arguments files w).reported.map Diagnostic.text)).toList.splitOnP
        (· == '\n')).map String.ofList =
      (run arguments files w).reported.map Diagnostic.text ++ [""] := by
  have hunbroken : ∀ line ∈ (run arguments files w).reported.map Diagnostic.text,
      IsUnbroken line := by
    intro line hline
    obtain ⟨d, hd, rfl⟩ := List.mem_map.mp hline
    exact (isOneLine_of_run d hd).1
  rw [Text.splitOnP_unlines hunbroken, List.map_append, List.map_map]
  simp [Function.comp_def]

end run

/-- **One line for each diagnostic.** The text of every diagnostic of an assembly or a disassembly
is one line, which starts with the number and the severity of the diagnostic. So on standard error
the diagnostics of a run can be told apart by the line feeds, and from the reason why the run failed
by how they start. -/
theorem diagnostics_are_single_lines :
    (∀ policy source a, assemble policy source = .ok a → ∀ d ∈ a.diagnostics, d.IsOneLine) ∧
    (∀ text, ∀ d ∈ (Disassembly.ofText text).diagnostics, d.IsOneLine) ∧
    ∀ arguments files w, let r := run arguments files w
      r.ending = .done ∨ (∃ count, r.ending = .failed (.denied count)) →
      (∀ o, Command.ofArguments? arguments = some (.assemble o) →
        ∃ a, o.Yields files a ∧ r.reported = a.diagnostics) ∧
      (∀ o, Command.ofArguments? arguments = some (.disassemble o) →
        ∃ d, o.Yields files d ∧ r.reported = d.diagnostics) ∧
      (∃ part, r.errorOutput w = part ++ r.closing ∧
        (part.toList.splitOnP (· == '\n')).map String.ofList =
          r.reported.map Diagnostic.text ++ [""]) ∧
      ∀ d ∈ r.reported, d.IsOneLine ∧ ¬ "Error: ".toList <+: d.text.toList := by
  refine ⟨?_, ?_, ?_⟩
  · intro policy source a ha d hd
    exact Diagnostic.isOneLine_of_message (isUnbroken_message_of_assemble ha d hd)
  · intro text d hd
    exact Diagnostic.isOneLine_of_message (isUnbroken_message_of_ofText text d hd)
  · intro arguments files w r hverdict
    refine ⟨fun o ho => ?_, fun o ho => ?_, ⟨_, errorOutput_of_verdict hverdict, splitOnP_reported⟩,
      fun d hd => ⟨isOneLine_of_run d hd, (isOneLine_of_run d hd).not_failure⟩⟩
    · obtain ⟨job, hprepare, hreported, -⟩ := run_of_verdict hverdict ho
      obtain ⟨a, ha, rfl⟩ := Command.exists_of_prepare_assemble hprepare
      exact ⟨a, ha, hreported⟩
    · obtain ⟨job, hprepare, hreported, -⟩ := run_of_verdict hverdict ho
      obtain ⟨d, hd, rfl⟩ := Command.exists_of_prepare_disassemble hprepare
      exact ⟨d, hd, hreported⟩

/-- A mnemonic of a control character behind a label that is too short, and a run over a listing
with a carriage return inside a line and an empty address. -/
theorem diagnostics_are_single_lines_around_returns :
    let source := "AB, \u001f\r\n LDA \u2028\n"
    let listing := "X\rY: 1\r\n: Error: \n"
    let files : FileTree := { files := [(["l.mc"], listing.toUTF8)] }
    let r := run ["disassemble", "l.mc", "--deny-warnings"] files {}
    (∃ a, assemble .advance source = .ok a ∧ a.diagnostics.length = 3 ∧
      ∀ d ∈ a.diagnostics, d.IsOneLine) ∧
    (∀ d ∈ (Disassembly.ofText listing).diagnostics, d.IsOneLine) ∧
    r.ending = .failed (.denied 2) ∧
    ∃ part, r.errorOutput {} = part ++ "Error: 2 diagnostic(s) reported\n" ∧
      (part.toList.splitOnP (· == '\n')).map String.ofList =
        ["line 1: error: `X\rY` is not a valid hexadecimal number",
          "line 2: error: `` is not a valid hexadecimal number", ""] := by
  intro source listing files r
  have hrun : assemble .advance source =
      .ok {
        listing := ⟨[]⟩
        symbols := .empty
        diagnostics := [⟨1, .invalidLabel "AB"⟩, ⟨1, .unknownMnemonic "\u001f"⟩,
          ⟨2, .missingOperand "LDA"⟩] } := by
    decide +kernel
  have hending : r.ending = .failed (.denied 2) := by decide +kernel
  have hclosing : r.closing = "Error: 2 diagnostic(s) reported\n" := by decide +kernel
  have htexts : r.reported.map Diagnostic.text =
      ["line 1: error: `X\rY` is not a valid hexadecimal number",
        "line 2: error: `` is not a valid hexadecimal number"] := by
    decide +kernel
  obtain ⟨hassembly, hdisassembly, hruns⟩ := diagnostics_are_single_lines
  obtain ⟨-, -, ⟨part, houtput, hpart⟩, -⟩ := hruns _ files {} (.inr ⟨2, hending⟩)
  refine ⟨⟨_, hrun, rfl, hassembly _ _ _ hrun⟩, hdisassembly listing, hending, part, ?_, ?_⟩
  · rw [← hclosing]
    exact houtput
  · rw [hpart]
    exact congrArg (· ++ [""]) htexts

end BasicComputer
