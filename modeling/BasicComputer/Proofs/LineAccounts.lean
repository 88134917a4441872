import Mathlib.Data.List.Count
import BasicComputer.Proofs.Reports

/-!
# Every line is accounted for

A line of the program puts one word into the listing, or it is reported by one error, or it is a
line that has nothing to put there. No line does two of these things and none does none.

* **What a line can come to** (`Line.ComesTo`): a relation between lines and outcomes that says, for
  every kind of outcome, which lines have it and how its issue is graded. It is the inversion of
  `Line.outcome` (`Line.comesTo_of_outcome`); nothing behind it looks at operands.
* **One line of an assembly** (`exists_comesTo`): the entry of the line and the errors on it are
  those of its outcome.
* **The fate of a line** (`Fate`): the three cases, each with what it says about the listing, the
  diagnostics and the kind of line. They exclude each other (`Fate.eq_of_befalls`).

`every_line_is_accounted_for` states this for the lines of an assembly and draws the two
conclusions: how long the listing is, and when an assembly has no errors.
-/

namespace BasicComputer

/-! ## What a line can come to -/

namespace Line

/-- Whether a line asks for a word: it stores a number or is an instruction. -/
def asksForWord : Line → Bool
  | statement _ (.data _ _) => true
  | statement _ (.instruction _ _ _) => true
  | _ => false

/-- Whether the mnemonic of a line is unknown. -/
def isUnknown : Line → Bool
  | statement _ (.unknown _ _) => true
  | _ => false

/-- Whether a line can fail: it is an `ORG`, stores a number, refers to memory or is unknown. -/
def canFail : Line → Bool
  | statement _ (.org _) => true
  | statement _ (.data _ _) => true
  | statement _ (.instruction op _ _) => op.takesOperand
  | statement _ (.unknown _ _) => true
  | _ => false

/-- Which lines have which outcomes. -/
inductive ComesTo : Line → Outcome → Prop
  | word {line : Line} {word : Word} {warning : Option Issue} (hasks : line.asksForWord = true)
      (hwarning : ∀ issue, warning = some issue → issue.severity = .warning) :
      ComesTo line (.emitted word warning)
  | move {line : Line} {target : Word} {warning : Option Issue} (horg : line.isOrg = true)
      (hwarning : ∀ issue, warning = some issue → issue.severity = .warning) :
      ComesTo line (.moved target warning)
  | failure {line : Line} {error : Issue} (hfails : line.canFail = true)
      (herror : error.severity = .error) : ComesTo line (.failed error)
  | blank : ComesTo .blank (.idle none)
  | label {label : String} : ComesTo (.labelOnly label) (.idle (some (.missingMnemonic label)))
  | stop {label : Option String} : ComesTo (.statement label .stop) (.idle none)

/-- What an `ORG` line may come to. -/
theorem comesTo_orgOutcome (label operand : Option String) (symbols : SymbolTable) :
    (statement label (.org operand)).ComesTo (orgOutcome (operand.map symbols.operand)) := by
  cases operand with
  | none => exact .failure rfl rfl
  | some token =>
      rw [Option.map_some, orgOutcome_operand]
      cases symbols.target? token with
      | none => exact .failure rfl (Operand.severity_issue _ _)
      | some target =>
          refine .move rfl fun issue hissue => ?_
          split at hissue
          · cases hissue; rfl
          · exact nomatch hissue

/-- What a line of data may come to. -/
theorem comesTo_dataOutcome (label : Option String) (radix : Radix) (token : Option String)
    (operand : Option Operand) :
    (statement label (.data radix token)).ComesTo (dataOutcome radix operand) := by
  unfold dataOutcome
  split
  · exact .failure rfl rfl
  · split
    · exact .failure rfl (Operand.severity_issue _ _)
    · split
      · exact .word rfl (by simp)
      · exact .failure rfl rfl

/-- What an instruction with an operand may come to. -/
theorem comesTo_referenceOutcome {label token : Option String} {op : Opcode} {indirect : Bool}
    {operand : Option Operand} {outcome : Outcome} (htakes : op.takesOperand = true)
    (h : referenceOutcome op indirect operand = .ok outcome) :
    (statement label (.instruction op token indirect)).ComesTo outcome := by
  unfold referenceOutcome at h
  split at h
  · cases h
    exact .failure htakes rfl
  · split at h
    · cases h
      exact .failure htakes (Operand.severity_issue _ _)
    · dsimp only at h
      split at h
      · cases h
        refine .word rfl fun issue hissue => ?_
        split at hissue
        · cases hissue; rfl
        · exact nomatch hissue
      · exact nomatch h

/-- What an instruction without an operand may come to. -/
theorem comesTo_plainOutcome (label token : Option String) (op : Opcode) (indirect : Bool)
    (operand : Option Operand) :
    (statement label (.instruction op token indirect)).ComesTo (plainOutcome op operand) := by
  refine .word rfl fun issue hissue => ?_
  obtain ⟨o, -, rfl⟩ := Option.map_eq_some_iff.mp hissue
  rfl

/-- **What a line comes to is what it can come to.** -/
theorem comesTo_of_outcome {symbols : SymbolTable} {line : Line} {outcome : Outcome}
    (h : line.outcome symbols = .ok outcome) : line.ComesTo outcome := by
  cases line with
  | blank => cases h; exact .blank
  | labelOnly label => cases h; exact .label
  | statement label body =>
      cases body with
      | org operand => cases h; exact comesTo_orgOutcome label operand symbols
      | stop => cases h; exact .stop
      | data radix operand => cases h; exact comesTo_dataOutcome label radix operand _
      | unknown mnemonic operand => cases h; exact .failure rfl rfl
      | instruction op operand indirect =>
          cases htakes : op.takesOperand with
          | true =>
              rw [outcome_reference htakes] at h
              exact comesTo_referenceOutcome htakes h
          | false =>
              rw [outcome_plain htakes] at h
              cases h
              exact comesTo_plainOutcome label operand op indirect _

/-- A line that asks for a word is neither an `ORG` nor unknown. -/
theorem kind_of_asksForWord {line : Line} (h : line.asksForWord = true) :
    line.isOrg = false ∧ line.isUnknown = false := by
  cases line with
  | blank => exact nomatch h
  | labelOnly label => exact nomatch h
  | statement label body => cases body <;> simp_all [asksForWord, isOrg, isUnknown]

/-- A line that can fail has something to do: find its place, its word or its mnemonic. -/
theorem kind_of_canFail {line : Line} (h : line.canFail = true) :
    line.isOrg = true ∨ line.asksForWord = true ∨ line.isUnknown = true := by
  cases line with
  | blank => exact nomatch h
  | labelOnly label => exact nomatch h
  | statement label body => cases body <;> simp_all [canFail, asksForWord, isOrg, isUnknown]

/-- **A line is without error exactly when it does its work**: a line that asks for a word emits
one, an `ORG` moves the counter, and no mnemonic is unknown. -/
theorem ComesTo.severity_iff {line : Line} {outcome : Outcome} (h : line.ComesTo outcome) :
    (∀ issue, outcome.issue? = some issue → issue.severity = .warning) ↔
      (line.asksForWord = true → outcome.word?.isSome = true) ∧
        (line.isOrg = true → outcome.target?.isSome = true) ∧ line.isUnknown = false := by
  cases h with
  | word hasks hwarning =>
      obtain ⟨horg, hknown⟩ := kind_of_asksForWord hasks
      simpa [Outcome.issue?, Outcome.word?, horg, hknown] using hwarning
  | move horg hwarning =>
      have hkinds : line.asksForWord = false ∧ line.isUnknown = false := by
        unfold isOrg at horg
        split at horg
        · exact ⟨rfl, rfl⟩
        · exact absurd horg Bool.false_ne_true
      simpa [Outcome.issue?, Outcome.target?, hkinds] using hwarning
  | failure hfails herror =>
      constructor
      · intro hwarning
        rw [hwarning _ rfl] at herror
        cases herror
      · rintro ⟨hasks, horg, hknown⟩
        rcases kind_of_canFail hfails with hkind | hkind | hkind
        · exact absurd (horg hkind) Bool.false_ne_true
        · exact absurd (hasks hkind) Bool.false_ne_true
        · rw [hknown] at hkind
          exact absurd hkind Bool.false_ne_true
  | blank => simp [Outcome.issue?, asksForWord, isOrg, isUnknown]
  | label => simp [Outcome.issue?, asksForWord, isOrg, isUnknown, Issue.severity]
  | stop => simp [Outcome.issue?, asksForWord, isOrg, isUnknown]

end Line

/-! ## One line of an assembly -/

/-- Whether an issue means that its line did not do its work. -/
def Issue.isError (issue : Issue) : Bool :=
  issue.severity = .error

/-- A warning is no error. -/
theorem filter_isError_of_warning {warning : Option Issue}
    (h : ∀ issue, warning = some issue → issue.severity = .warning) :
    warning.filter Issue.isError = none := by
  cases warning with
  | none => rfl
  | some issue => simp [Option.filter_some, Issue.isError, h issue rfl]

/-- Whether an issue is that of a lone label. -/
def Issue.isMissingMnemonic : Issue → Bool
  | missingMnemonic _ => true
  | _ => false

/-- The diagnostics of an assembly on a numbered line whose issues are selected. -/
def Assembly.reportsOn (a : Assembly) (number : Nat) (select : Issue → Bool) : List Diagnostic :=
  a.diagnostics.filter fun d => d.line = number && select d.issue

/-- Apart from the issues of labels, the diagnostics on a line of the program are what the second
pass found there. -/
theorem reportsOn_eq {policy : BlankLines} {lines : List Line} {a : Assembly}
    (h : assembleLines policy lines = .ok a) {i : Nat} {line : Line}
    (hline : (program lines)[i]? = some line) {select : Issue → Bool}
    (hlabel : ∀ label, select (.invalidLabel label) = false) :
    a.reportsOn (i + 1) select =
      Diagnostic.ofIssues (i + 1) ((line.issue? a.symbols).filter select).toList := by
  have hlines : lines[i]? = some line := (getElem?_program_eq_some_iff.mp hline).1
  have hi : i < lines.length := (List.getElem?_eq_some_iff.mp hlines).1
  have hnolabel : line.labelIssue?.toList.filter select = [] := by
    cases hissue : line.labelIssue? with
    | none => rfl
    | some issue =>
        obtain ⟨label, rfl⟩ := Line.labelIssue?_eq_some hissue
        simp [hlabel]
  have hfilter : a.reportsOn (i + 1) select =
      (Diagnostic.ofIssues (i + 1) (issuesAt a.symbols lines i)).filter
        fun d => select d.issue := by
    rw [← filter_line_eq a.symbols hi, List.filter_filter, ← diagnostics_eq_lineReports h]
    exact List.filter_congr fun d _ => Bool.and_comm _ _
  rw [hfilter, issuesAt, hlines, hline]
  unfold Diagnostic.ofIssues
  rw [List.filter_map]
  show ((line.labelIssue?.toList ++ (line.issue? a.symbols).toList).filter select).map _ = _
  rw [List.filter_append, hnolabel, List.nil_append]
  cases hissue : line.issue? a.symbols with
  | none => rfl
  | some issue => cases hselect : select issue <;> simp [Option.filter_some, hselect]

/-- **A line of an assembly**: it has an outcome that a line of its kind can have, and its entry and
its errors are those of the outcome. -/
theorem exists_comesTo {policy : BlankLines} {lines : List Line} {a : Assembly}
    (h : assembleLines policy lines = .ok a) {i : Nat} {line : Line}
    (hline : (program lines)[i]? = some line) :
    ∃ outcome, line.outcome a.symbols = .ok outcome ∧ line.ComesTo outcome ∧
      entryAt? policy lines i = outcome.word?.map (⟨secondCounter policy lines i, ·⟩) := by
  obtain ⟨hall, rfl⟩ := assembleLines_eq_ok_iff.mp h
  obtain ⟨outcome, houtcome⟩ := hall line (List.mem_of_getElem? hline)
  refine ⟨outcome, houtcome, Line.comesTo_of_outcome houtcome, ?_⟩
  rw [entryAt?, hline, Option.bind_some, Line.word?_of_outcome houtcome]

/-! ## The fate of a line -/

/-- What becomes of a line of the program. -/
inductive Fate where
  /-- It puts a word into the listing. -/
  | word
  /-- It fails and is reported. -/
  | error
  /-- It has nothing to put into the listing, and that is in order. -/
  | nothing
  deriving DecidableEq, Repr

/-- What a fate says about line `i` of an assembly: its entry, the errors on it, and which lines
can have this fate. -/
def Fate.Befalls (policy : BlankLines) (lines : List Line) (a : Assembly) (i : Nat) (line : Line) :
    Fate → Prop
  | word =>
    (∃ entry, entryAt? policy lines i = some entry) ∧ a.reportsOn (i + 1) Issue.isError = [] ∧
      line.asksForWord = true
  | error =>
    entryAt? policy lines i = none ∧ (∃ d, a.reportsOn (i + 1) Issue.isError = [d]) ∧
      line.canFail = true ∧ (line.isOrg = true → line.resolvedTarget? a.symbols = none)
  | nothing =>
    entryAt? policy lines i = none ∧ a.reportsOn (i + 1) Issue.isError = [] ∧
      (line = .blank ∨
        (∃ label, line = .labelOnly label ∧
          a.reportsOn (i + 1) Issue.isMissingMnemonic = [⟨i + 1, .missingMnemonic label⟩]) ∨
        line.isOrg = true ∧ (line.resolvedTarget? a.symbols).isSome = true)

section

variable {policy : BlankLines} {lines : List Line} {a : Assembly} {i : Nat} {line : Line}

/-- A line has one fate: the entry tells a word from the rest, and the errors tell an error. -/
theorem Fate.eq_of_befalls {first second : Fate} (hfirst : first.Befalls policy lines a i line)
    (hsecond : second.Befalls policy lines a i line) : first = second := by
  cases first <;> cases second <;> simp_all [Befalls]

/-- Every line of the program has a fate. -/
theorem exists_befalls (h : assembleLines policy lines = .ok a)
    (hline : (program lines)[i]? = some line) :
    ∃ fate : Fate, fate.Befalls policy lines a i line := by
  obtain ⟨outcome, houtcome, hcomes, hentry⟩ := exists_comesTo h hline
  have herrors : a.reportsOn (i + 1) Issue.isError = _ := reportsOn_eq h hline fun _ => rfl
  have hmissing : a.reportsOn (i + 1) Issue.isMissingMnemonic = _ :=
    reportsOn_eq h hline fun _ => rfl
  have htarget := Line.target?_of_outcome houtcome
  rw [Line.issue?_of_outcome houtcome] at herrors hmissing
  cases hcomes with
  | word hasks hwarning =>
      rw [Outcome.issue?, filter_isError_of_warning hwarning] at herrors
      exact ⟨.word, ⟨_, hentry⟩, herrors, hasks⟩
  | move horg hwarning =>
      rw [Outcome.issue?, filter_isError_of_warning hwarning] at herrors
      exact ⟨.nothing, hentry, herrors, .inr (.inr ⟨horg, by rw [← htarget]; rfl⟩)⟩
  | failure hfails herror =>
      have hone : (some _).filter Issue.isError = some _ :=
        Option.filter_eq_some_iff.mpr ⟨rfl, decide_eq_true herror⟩
      rw [Outcome.issue?, hone] at herrors
      exact ⟨.error, hentry, ⟨_, herrors⟩, hfails, fun _ => htarget.symm⟩
  | blank => exact ⟨.nothing, hentry, herrors, .inl rfl⟩
  | label => exact ⟨.nothing, hentry, herrors, .inr (.inl ⟨_, rfl, hmissing⟩)⟩
  | stop =>
      have hstop := (getElem?_program_eq_some_iff.mp hline).2.1
      exact Bool.noConfusion hstop

/-- An `ORG` fails exactly when it does not move the counter. -/
theorem befalls_error_iff_of_isOrg (h : assembleLines policy lines = .ok a)
    (hline : (program lines)[i]? = some line) (horg : line.isOrg = true) :
    Fate.error.Befalls policy lines a i line ↔ line.resolvedTarget? a.symbols = none := by
  constructor
  · rintro ⟨-, -, -, hnone⟩
    exact hnone horg
  · intro hnone
    obtain ⟨fate, hfate⟩ := exists_befalls h hline
    cases fate with
    | error => exact hfate
    | word =>
        obtain ⟨-, -, hasks⟩ := hfate
        rw [(Line.kind_of_asksForWord hasks).1] at horg
        exact nomatch horg
    | nothing =>
        obtain ⟨-, -, rfl | ⟨label, rfl, -⟩ | ⟨-, hsome⟩⟩ := hfate
        · exact nomatch horg
        · exact nomatch horg
        · rw [hnone] at hsome
          exact nomatch hsome

/-- The counter behind an `ORG` is where the `ORG` says, or where it was if the `ORG` fails. -/
theorem secondCounter_succ_of_isOrg (hline : lines[i]? = some line) (horg : line.isOrg = true) :
    secondCounter policy lines (i + 1) =
      (line.resolvedTarget? (symbolsOf policy lines)).getD (secondCounter policy lines i) := by
  unfold secondCounter
  rw [List.take_add_one, hline, Option.toList_some, BlankLines.behind_concat, BlankLines.next,
    if_pos horg]

/-! ## Conclusions for the whole program -/

/-- A line has an entry exactly when it asks for a word and no error is reported on it. -/
theorem isSome_entryAt? (h : assembleLines policy lines = .ok a)
    (hline : (program lines)[i]? = some line) :
    (entryAt? policy lines i).isSome =
      (line.asksForWord && (a.reportsOn (i + 1) Issue.isError).isEmpty) := by
  obtain ⟨fate, hfate⟩ := exists_befalls h hline
  cases fate with
  | word =>
      obtain ⟨⟨entry, hentry⟩, herrors, hasks⟩ := hfate
      rw [hentry, herrors, hasks]
      rfl
  | error =>
      obtain ⟨hentry, ⟨d, herrors⟩, -, -⟩ := hfate
      rw [hentry, herrors, List.isEmpty_cons, Bool.and_false]
      rfl
  | nothing =>
      obtain ⟨hentry, -, hkind⟩ := hfate
      have hasks : line.asksForWord = false := by
        by_contra hasks
        have hword := Line.kind_of_asksForWord (by simpa using hasks)
        rcases hkind with rfl | ⟨label, rfl, -⟩ | ⟨horg, -⟩
        · exact hasks rfl
        · exact hasks rfl
        · rw [hword.1] at horg
          exact nomatch horg
      rw [hentry, hasks, Bool.false_and]
      rfl

/-- The words of some lines are as many as the lines that come to a word. -/
theorem length_entriesFrom (symbols : SymbolTable) (counter : Word) :
    (entriesFrom policy symbols counter lines).length =
      lines.countP fun line => (line.word? symbols).isSome := by
  unfold entriesFrom
  induction lines generalizing counter with
  | nil => rfl
  | cons first rest ih =>
      rw [BlankLines.collect, List.length_append, ih, List.countP_cons]
      cases first.word? symbols <;> simp [Nat.add_comm]

/-- **The length of the listing**: one entry for each line of the program that asks for a word and
has no error. -/
theorem size_listing (h : assembleLines policy lines = .ok a) :
    a.listing.size = (numbered (program lines)).countP fun p =>
      p.1.asksForWord && (a.reportsOn p.2 Issue.isError).isEmpty := by
  have hentries : a.listing.entries = entriesFrom policy a.symbols 0 (program lines) := by
    obtain ⟨-, rfl⟩ := assembleLines_eq_ok_iff.mp h
    exact (entriesFrom_program policy lines).symm
  rw [Listing.size, hentries, length_entriesFrom]
  conv => lhs; rw [← map_fst_numbered (program lines), List.countP_map]
  refine List.countP_congr fun p hp => ?_
  obtain ⟨line, number⟩ := p
  obtain ⟨i, rfl⟩ : ∃ i, number = i + 1 :=
    ⟨number - 1, by have := List.le_snd_of_mem_zipIdx hp; simp only at this; omega⟩
  have hline : (program lines)[i]? = some line := mem_numbered_iff.mp hp
  have hword : (entryAt? policy lines i).isSome = (line.word? a.symbols).isSome := by
    obtain ⟨-, rfl⟩ := assembleLines_eq_ok_iff.mp h
    rw [entryAt?, hline, Option.bind_some, Option.isSome_map]
  rw [← isSome_entryAt? h hline, hword]
  rfl

/-- An assembly has no errors exactly when the second pass finds none on the lines of the
program. -/
theorem hasErrors_eq_false_iff (h : assembleLines policy lines = .ok a) :
    a.hasErrors = false ↔ ∀ (i : Nat) (line : Line), (program lines)[i]? = some line →
      ∀ issue, line.issue? a.symbols = some issue → issue.severity = .warning := by
  have hgrade : ∀ severity : Severity, ¬ severity = .error ↔ severity = .warning := by
    intro severity
    cases severity <;> simp
  unfold Assembly.hasErrors
  rw [List.any_eq_false]
  constructor
  · intro hnone i line hline issue hissue
    have hmem := (mem_diagnostics_iff h).mpr (.inr ⟨line, hline, hissue⟩)
    exact (hgrade _).mp fun herror => hnone _ hmem (decide_eq_true herror)
  · intro hall d hd
    rcases origin_of_mem_diagnostics h hd with ⟨label, hissue⟩ | ⟨i, line, -, hline, hissue⟩
    · simp [Diagnostic.isError, Diagnostic.severity, hissue, Issue.severity]
    · simp [Diagnostic.isError, Diagnostic.severity, hall i line hline d.issue hissue]

end

/-- **Every line is accounted for.** The listing holds the entries of the lines in order. Each line
in front of the end has exactly one fate: it has an entry and no error, and then it asks for a
word; or it has no entry and one error, and then it is a line that can fail; or it has neither, and
then it is blank, a lone label with its one warning, or an `ORG` that moves the counter. An `ORG`
fails exactly when it leaves the counter where it was. So the listing has an entry for each line
that asks for a word and is without error, and there are no errors exactly when every line that
asks for a word has its entry, every `ORG` moves the counter and no mnemonic is unknown. -/
theorem every_line_is_accounted_for {policy : BlankLines} {source : String} {a : Assembly}
    (h : assemble policy source = .ok a) :
    let lines := sourceLines source
    (a.listing.entries = (List.range (program lines).length).filterMap (entryAt? policy lines)) ∧
    (∀ i line, (program lines)[i]? = some line →
      (∃! fate : Fate, fate.Befalls policy lines a i line) ∧
      (line.isOrg = true →
        (Fate.error.Befalls policy lines a i line ↔ line.resolvedTarget? a.symbols = none) ∧
        secondCounter policy lines (i + 1) =
          (line.resolvedTarget? a.symbols).getD (secondCounter policy lines i))) ∧
    (a.listing.size = (numbered (program lines)).countP fun p =>
      p.1.asksForWord && (a.reportsOn p.2 Issue.isError).isEmpty) ∧
    (a.hasErrors = false ↔ ∀ i line, (program lines)[i]? = some line →
      (line.asksForWord = true → (entryAt? policy lines i).isSome = true) ∧
      (line.isOrg = true → (line.resolvedTarget? a.symbols).isSome = true) ∧
      line.isUnknown = false) := by
  intro lines
  refine ⟨?_, fun i line hline => ⟨?_, fun horg => ⟨?_, ?_⟩⟩, size_listing h, ?_⟩
  · obtain ⟨-, rfl⟩ := assembleLines_eq_ok_iff.mp h
    rfl
  · obtain ⟨fate, hfate⟩ := exists_befalls h hline
    exact ⟨fate, hfate, fun other hother => Fate.eq_of_befalls hother hfate⟩
  · exact befalls_error_iff_of_isOrg h hline horg
  · obtain ⟨-, rfl⟩ := assembleLines_eq_ok_iff.mp h
    exact secondCounter_succ_of_isOrg (getElem?_program_eq_some_iff.mp hline).1 horg
  · rw [hasErrors_eq_false_iff h]
    refine forall_congr' fun i => forall_congr' fun line => imp_congr_right fun hline => ?_
    obtain ⟨outcome, houtcome, hcomes, hentry⟩ := exists_comesTo h hline
    rw [Line.issue?_of_outcome houtcome, hcomes.severity_iff, hentry, Option.isSome_map,
      Line.target?_of_outcome houtcome]

/-- A text with a lone label that is also too short, a reference and an `ORG` that fail, one word, a
mnemonic that is unknown and one behind the end that does not count. -/
theorem every_line_is_accounted_for_in_mixed_text :
    let source := "ORG 10\nAB,\nLDA XYZ\nORG ZZZ\nDEC 7\nFOO\nEND\nBAR\n"
    ∃ a, assemble .advance source = .ok a ∧ a.listing.size = 1 ∧ a.hasErrors = true ∧
      Fate.error.Befalls .advance (sourceLines source) a 3 (.statement none (.org (some "ZZZ"))) ∧
      ∃! fate : Fate, fate.Befalls .advance (sourceLines source) a 1 (.labelOnly "AB") := by
  intro source
  have hrun : assemble .advance source =
      .ok {
        listing := ⟨[⟨0x12, 7⟩]⟩
        symbols := .empty
        diagnostics := [⟨2, .invalidLabel "AB"⟩, ⟨2, .missingMnemonic "AB"⟩,
          ⟨3, .undefinedSymbol "XYZ"⟩, ⟨4, .undefinedSymbol "ZZZ"⟩,
          ⟨6, .unknownMnemonic "FOO"⟩] } := by
    decide +kernel
  obtain ⟨-, hlines, hsize, herrors⟩ := every_line_is_accounted_for hrun
  have hunknown : (program (sourceLines source))[5]? =
      some (.statement none (.unknown "FOO" none)) := by
    decide +kernel
  refine ⟨_, hrun, hsize.trans (by decide +kernel), ?_, ?_, (hlines 1 _ (by decide +kernel)).1⟩
  · by_contra hclean
    exact nomatch (herrors.mp (by simpa using hclean) 5 _ hunknown).2.2
  · exact ((hlines 3 _ (by decide +kernel)).2 rfl).1.mpr (by decide +kernel)

end BasicComputer
