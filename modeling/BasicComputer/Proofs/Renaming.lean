import BasicComputer.Proofs.CanonicalLines
import BasicComputer.Proofs.LaterLines
import BasicComputer.Proofs.ReplacedTokens

/-!
# Names of labels do not matter

A label is given another name, wherever it stands in a text. The program stays the same: the
listing does not change, and names change in the symbols and in the reports.

The difficulty is that an operand is a token without a kind. It may name a symbol, read as a number,
or neither, and a new name may happen to read as a number too. What carries the argument is that
an operand with a symbol is not read as it stands, and that an operand without one keeps its name.

* **Lines** (`Line.mapNames`): a line with its label and its operand under other names. What the
  first pass reads off a line goes along (`symbolName?_mapNames`, `labelIssue?_mapNames`).
* **Outcomes** (`Line.outcome_mapNames`): a line comes to the same, with other names in its issue.
  An `ORG` is left out: to it a symbol and the number that its name spells are different things.
* **Programs** (`Renaming.assembleLines_eq`): both passes go along with a new name that is fresh.
* **Texts** (`sourceLines_mapTokens`): to replace tokens in a text is to rename its lines.
-/

namespace BasicComputer

/-! ## Lines and issues under other names -/

/-- A statement with another name for its operand. -/
def Statement.mapOperand (f : String → String) : Statement → Statement
  | org operand => .org (operand.map f)
  | stop => .stop
  | data radix operand => .data radix (operand.map f)
  | instruction op operand indirect => .instruction op (operand.map f) indirect
  | unknown mnemonic operand => .unknown mnemonic (operand.map f)

/-- A line with other names for its label and its operand. -/
def Line.mapNames (f : String → String) : Line → Line
  | blank => .blank
  | labelOnly label => .labelOnly (f label)
  | statement label body => .statement (label.map f) (body.mapOperand f)

/-- An issue with other names for its label, its symbol or its operand. -/
def Issue.mapNames (f : String → String) : Issue → Issue
  | missingMnemonic label => .missingMnemonic (f label)
  | invalidLabel label => .invalidLabel (f label)
  | symbolNotNumeric symbol text radix => .symbolNotNumeric (f symbol) text radix
  | orgThroughSymbol symbol address => .orgThroughSymbol (f symbol) address
  | undefinedSymbol symbol => .undefinedSymbol (f symbol)
  | ignoredOperand mnemonic operand => .ignoredOperand mnemonic (f operand)
  | issue => issue

/-- The same place under another name. -/
def Symbol.mapName (f : String → String) (s : Symbol) : Symbol :=
  ⟨f s.name, s.address⟩

namespace Line

variable (f : String → String) (line : Line)

/-- Renaming makes no `ORG` line and removes none. -/
@[simp] theorem isOrg_mapNames : (line.mapNames f).isOrg = line.isOrg := by
  rcases line with _ | _ | ⟨_, _ | _ | _ | _ | _⟩ <;> rfl

/-- Renaming makes no blank line and removes none. -/
@[simp] theorem isBlank_mapNames : (line.mapNames f).isBlank = line.isBlank := by
  cases line <;> rfl

/-- Renaming makes no `END` and removes none. -/
@[simp] theorem isStop_mapNames : (line.mapNames f).isStop = line.isStop := by
  rcases line with _ | _ | ⟨_, _ | _ | _ | _ | _⟩ <;> rfl

/-- The label of a renamed line is renamed. -/
@[simp] theorem label?_mapNames : (line.mapNames f).label? = line.label?.map f := by
  cases line <;> rfl

/-- The label of a renamed line is renamed where labels count. -/
@[simp] theorem placedLabel?_mapNames :
    (line.mapNames f).placedLabel? = line.placedLabel?.map f := by
  unfold placedLabel?
  rw [isOrg_mapNames, label?_mapNames]
  split <;> rfl

variable {f} {line}

/-- Renaming moves no counter. -/
theorem next_mapNames (policy : BlankLines) (target : Option Word) (counter : Word) :
    policy.next (line.mapNames f) target counter = policy.next line target counter := by
  simp [BlankLines.next, BlankLines.takesAddress]

/-- A first pass sees an `ORG` go to the same place if its operand keeps its name. -/
theorem literalTarget?_mapNames
    (horg : line.isOrg = true → ∀ token, line.operand? = some token → f token = token) :
    (line.mapNames f).literalTarget? = line.literalTarget? := by
  by_cases h : line.isOrg = true
  · unfold isOrg at h
    split at h
    · next label operand =>
      have hoperand : operand.map f = operand := by
        cases operand with
        | none => rfl
        | some token => exact congrArg some (horg rfl token rfl)
      show (operand.map f).bind Numeral.word? = operand.bind Numeral.word?
      rw [hoperand]
    · exact absurd h (by simp)
  · have hline : line.isOrg = false := by simpa using h
    have hmapped : (line.mapNames f).isOrg = false := by simpa using h
    rw [literalTarget?_of_not_isOrg hline, literalTarget?_of_not_isOrg hmapped]

section names

variable (hlength : ∀ label, (f label).length = 3 ↔ label.length = 3)

include hlength

/-- A renamed label can name a symbol exactly when the label can. -/
theorem isSymbolName_comp : isSymbolName ∘ f = isSymbolName := by
  funext label
  exact decide_eq_decide.mpr (hlength label)

/-- A renamed line defines the renamed symbol. -/
theorem symbolName?_mapNames : (line.mapNames f).symbolName? = line.symbolName?.map f := by
  unfold symbolName?
  rw [placedLabel?_mapNames, Option.filter_map, isSymbolName_comp hlength]

/-- A label is reported under its new name. -/
theorem labelIssue?_mapNames :
    (line.mapNames f).labelIssue? = line.labelIssue?.map (Issue.mapNames f) := by
  have hcomp : (fun label => !isSymbolName label) ∘ f = fun label => !isSymbolName label := by
    funext label
    exact congrArg (!·) (congrFun (isSymbolName_comp hlength) label)
  unfold labelIssue?
  rw [placedLabel?_mapNames, Option.filter_map, hcomp, Option.map_map, Option.map_map]
  rfl

end names

end Line

/-! ## Outcomes under other names -/

/-- The same operand under another name. -/
def Operand.mapToken (f : String → String) (o : Operand) : Operand :=
  ⟨f o.token, o.address?⟩

section outcome

variable {f : String → String} {o : Operand}

/-- An operand that names a symbol is not read as it stands. -/
theorem Operand.text_mapToken (h : o.address? = none → f o.token = o.token) :
    (o.mapToken f).text = o.text := by
  unfold mapToken text
  cases haddress : o.address? with
  | none => exact h haddress
  | some address => rfl

/-- An operand is reported under its new name. -/
theorem Operand.issue_mapToken (h : o.address? = none → f o.token = o.token) (radix : Radix) :
    (o.mapToken f).issue radix = (o.issue radix).mapNames f := by
  unfold mapToken issue
  cases haddress : o.address? with
  | some address => rfl
  | none =>
      simp only [h haddress]
      split
      · simp [Issue.mapNames, h haddress]
      · rfl

/-- Data with a renamed operand comes to the same, but for names in reports. -/
theorem dataOutcome_mapToken (h : o.address? = none → f o.token = o.token) (radix : Radix) :
    dataOutcome radix (some (o.mapToken f)) =
      (dataOutcome radix (some o)).mapIssue (Issue.mapNames f) := by
  unfold dataOutcome
  simp only [Operand.text_mapToken h, Operand.issue_mapToken h]
  cases Numeral.signed? radix o.text with
  | none => rfl
  | some value =>
      dsimp only
      cases Word.ofInt? value <;> rfl

/-- An instruction with a renamed operand comes to the same, but for names in reports. -/
theorem referenceOutcome_mapToken (h : o.address? = none → f o.token = o.token) (op : Opcode)
    (indirect : Bool) :
    referenceOutcome op indirect (some (o.mapToken f)) =
      (referenceOutcome op indirect (some o)).map (Outcome.mapIssue (Issue.mapNames f)) := by
  unfold referenceOutcome
  simp only [Operand.text_mapToken h, Operand.issue_mapToken h]
  cases Numeral.operand? o.text with
  | none => rfl
  | some number =>
      by_cases hfits : referenceSum op number indirect < 0x100000000
      · by_cases hoverflow : Word.addressMask.toNat < number
        · simp [hfits, hoverflow, Except.map, Outcome.mapIssue, Issue.mapNames]
        · simp [hfits, hoverflow, Except.map, Outcome.mapIssue]
      · simp [hfits, Except.map]

/-- An `ORG` tells a symbol from the number that its name spells, so its operand has to keep its
name. -/
theorem orgOutcome_mapToken (h : f o.token = o.token) :
    orgOutcome (some (o.mapToken f)) =
      (orgOutcome (some o)).mapIssue (Issue.mapNames f) := by
  have hsame : o.mapToken f = o := by
    rw [Operand.mapToken, h]
  have hissue : o.issue .hex = (o.issue .hex).mapNames f := by
    conv => lhs; rw [← hsame]
    exact Operand.issue_mapToken (fun _ => h) .hex
  rw [hsame]
  unfold orgOutcome
  dsimp only
  cases Numeral.word? o.text with
  | none => exact congrArg Outcome.failed hissue
  | some target =>
      dsimp only [Outcome.mapIssue]
      split
      · simp [Issue.mapNames, h]
      · rfl

end outcome

namespace Line

variable {f : String → String} {first second : SymbolTable} {line : Line}

/-- **A line under other names comes to the same**, with other names in its issue, if symbols go
along with their names, and an operand keeps its name where it is no symbol or belongs to an
`ORG`. -/
theorem outcome_mapNames
    (hresolve : ∀ token, line.operand? = some token →
      second.resolve (f token) = first.resolve token)
    (hkeep : ∀ token, line.operand? = some token →
      line.isOrg = true ∨ first.resolve token = none → f token = token) :
    (line.mapNames f).outcome second =
      (line.outcome first).map (Outcome.mapIssue (Issue.mapNames f)) := by
  cases line with
  | blank => rfl
  | labelOnly label => rfl
  | statement label body =>
      have hnone : ∀ token, body.operand? = some token →
          (first.operand token).address? = none → f token = token :=
        fun token htoken haddress => hkeep token htoken (.inr haddress)
      have hoperand : ∀ token, body.operand? = some token →
          second.operand (f token) = (first.operand token).mapToken f := by
        intro token htoken
        rw [SymbolTable.operand, hresolve token htoken]
        rfl
      cases body with
      | stop => rfl
      | unknown mnemonic operand => rfl
      | org operand =>
          cases operand with
          | none => rfl
          | some token =>
              have htoken : f token = token := hkeep token rfl (.inl rfl)
              show Except.ok (orgOutcome (some (second.operand (f token)))) = Except.ok _
              rw [hoperand token rfl, orgOutcome_mapToken htoken]
              rfl
      | data radix operand =>
          cases operand with
          | none => rfl
          | some token =>
              show Except.ok (dataOutcome radix (some (second.operand (f token)))) = Except.ok _
              rw [hoperand token rfl, dataOutcome_mapToken (hnone token rfl)]
              rfl
      | instruction op operand indirect =>
          cases htakes : op.takesOperand with
          | true =>
              show (statement _ (.instruction op _ indirect)).outcome second = _
              rw [outcome_reference htakes, outcome_reference htakes]
              cases operand with
              | none => rfl
              | some token =>
                  show referenceOutcome op indirect (some (second.operand (f token))) = _
                  rw [hoperand token rfl, referenceOutcome_mapToken (hnone token rfl)]
                  rfl
          | false =>
              show (statement _ (.instruction op _ indirect)).outcome second = _
              rw [outcome_plain htakes, outcome_plain htakes]
              cases operand <;> rfl

end Line

/-! ## A program with another name for a label -/

/-- A first pass goes along with other names that keep their length. -/
theorem definitionsFrom_mapNames (policy : BlankLines) {f : String → String} {lines : List Line}
    (hlength : ∀ label, (f label).length = 3 ↔ label.length = 3)
    (horg : ∀ line ∈ lines, line.isOrg = true →
      ∀ token, line.operand? = some token → f token = token) (counter : Word) :
    definitionsFrom policy counter (lines.map (Line.mapNames f)) =
      (definitionsFrom policy counter lines).map (Symbol.mapName f) := by
  induction lines generalizing counter with
  | nil => rfl
  | cons line rest ih =>
      obtain ⟨hline, hrest⟩ := List.forall_mem_cons.mp horg
      rw [List.map_cons, definitionsFrom, definitionsFrom, Line.symbolName?_mapNames hlength,
        Line.literalTarget?_mapNames hline, Line.next_mapNames, ih hrest, List.map_append]
      cases line.symbolName? <;> rfl

/-- Renaming does not move the end of the program. -/
theorem program_mapNames (f : String → String) (lines : List Line) :
    program (lines.map (Line.mapNames f)) = (program lines).map (Line.mapNames f) := by
  unfold program
  rw [List.takeWhile_map]
  congr 2
  funext line
  simp

/-- Changing lines keeps their numbers. -/
theorem numbered_map (change : Line → Line) (lines : List Line) :
    numbered (lines.map change) = (numbered lines).map fun p => (change p.1, p.2) := by
  unfold numbered
  rw [List.zipIdx_map]
  rfl

/-- The same report with other names. -/
def Diagnostic.mapNames (f : String → String) (d : Diagnostic) : Diagnostic :=
  ⟨d.line, d.issue.mapNames f⟩

/-- Labels are reported under their new names. -/
theorem labelDiagnostics_mapNames {f : String → String}
    (hlength : ∀ label, (f label).length = 3 ↔ label.length = 3) (lines : List Line) :
    labelDiagnostics (numbered (lines.map (Line.mapNames f))) =
      (labelDiagnostics (numbered lines)).map (Diagnostic.mapNames f) := by
  unfold labelDiagnostics
  rw [numbered_map, List.filterMap_map, List.map_filterMap]
  refine List.filterMap_congr fun p _ => ?_
  show Option.map _ (p.1.mapNames f).labelIssue? = Option.map _ (Option.map _ p.1.labelIssue?)
  rw [Line.labelIssue?_mapNames hlength, Option.map_map, Option.map_map]
  rfl

/-- A name, or the new one in place of the old one. -/
def renamed (old new name : String) : String :=
  if name = old then new else name

/-- Any other name stays. -/
theorem renamed_of_ne {old new name : String} (h : name ≠ old) : renamed old new name = name :=
  if_neg h

/-- Names other than the new one stay apart. -/
theorem renamed_inj {old new name name' : String} (h : name ≠ new) (h' : name' ≠ new) :
    renamed old new name = renamed old new name' ↔ name = name' := by
  unfold renamed
  split <;> split <;> simp_all [eq_comm]

/-- The lines of a program, a label of theirs that no `ORG` refers to, and a fresh name for it. -/
structure Renaming (old new : String) (lines : List Line) : Prop where
  defined : ∃ line ∈ lines, line.symbolName? = some old
  org_ne : ∀ line ∈ lines, line.isOrg = true → line.operand? ≠ some old
  length_new : new.length = 3
  label_ne : ∀ line ∈ lines, line.label? ≠ some new
  operand_ne : ∀ line ∈ lines, line.operand? ≠ some new

namespace Renaming

variable {old new : String} {lines : List Line} (r : Renaming old new lines)
  (policy : BlankLines)

include r

/-- A new name can name a symbol exactly when the old one can. -/
theorem length_renamed_iff (label : String) :
    (renamed old new label).length = 3 ↔ label.length = 3 := by
  obtain ⟨line, -, hname⟩ := r.defined
  have hold := (Line.symbolName?_eq_some hname).2
  unfold renamed
  split
  · next hlabel => simp [hlabel, hold, r.length_new]
  · rfl

/-- The operands of `ORG` lines are not renamed. -/
theorem org_keeps {line : Line} (hline : line ∈ lines) (h : line.isOrg = true) (token : String)
    (htoken : line.operand? = some token) : renamed old new token = token := by
  apply renamed_of_ne
  rintro rfl
  exact r.org_ne line hline h htoken

/-- The definitions are renamed. -/
theorem definitions_eq :
    definitions policy (lines.map (Line.mapNames (renamed old new))) =
      (definitions policy lines).map (Symbol.mapName (renamed old new)) :=
  definitionsFrom_mapNames policy r.length_renamed_iff (fun _ hline => r.org_keeps hline) 0

/-- The symbol table is renamed. -/
theorem symbolsOf_eq :
    symbolsOf policy (lines.map (Line.mapNames (renamed old new))) =
      .ofList ((symbolsOf policy lines).toList.map (Symbol.mapName (renamed old new))) := by
  rw [symbolsOf, r.definitions_eq, symbolsOf, SymbolTable.toList_ofList]

/-- An operand stands for the same address under its other name. -/
theorem resolve_eq {line : Line} (hline : line ∈ lines) {token : String}
    (htoken : line.operand? = some token) :
    (symbolsOf policy (lines.map (Line.mapNames (renamed old new)))).resolve
        (renamed old new token) = (symbolsOf policy lines).resolve token := by
  have htoken_ne : token ≠ new := by
    rintro rfl
    exact r.operand_ne line hline htoken
  have hnames : ∀ s ∈ definitions policy lines,
      (s.mapName (renamed old new)).name = renamed old new token ↔ s.name = token := by
    intro s hs
    obtain ⟨line', hline', hname⟩ := mem_definitionsFrom hs
    have hname_ne : s.name ≠ new := by
      intro hnew
      rw [hnew] at hname
      exact r.label_ne line' hline' (Line.symbolName?_eq_some hname).1
    exact renamed_inj hname_ne htoken_ne
  rw [symbolsOf, r.definitions_eq, symbolsOf, SymbolTable.resolve_ofList_map hnames,
    SymbolTable.resolve_ofList]
  rfl

/-- Every line comes to the same, but for names in reports. -/
theorem outcome_eq {line : Line} (hline : line ∈ lines) :
    (line.mapNames (renamed old new)).outcome
        (symbolsOf policy (lines.map (Line.mapNames (renamed old new)))) =
      (line.outcome (symbolsOf policy lines)).map
        (Outcome.mapIssue (Issue.mapNames (renamed old new))) := by
  apply Line.outcome_mapNames
  · intro token htoken
    exact r.resolve_eq policy hline htoken
  · rintro token htoken (horg | hnone)
    · exact r.org_keeps hline horg token htoken
    · -- the old name is a symbol
      apply renamed_of_ne
      rintro rfl
      have hsome := (isSome_resolve_symbolsOf policy lines token).mpr r.defined
      rw [hnone] at hsome
      exact absurd hsome (by simp)

/-- **The assembly of a program under another name** is the assembly of the program, with other
names in its symbols and its reports. -/
theorem assembleLines_eq :
    assembleLines policy (lines.map (Line.mapNames (renamed old new))) =
      (assembleLines policy lines).map fun a => {
        listing := a.listing
        symbols := .ofList (a.symbols.toList.map (Symbol.mapName (renamed old new)))
        diagnostics := a.diagnostics.map (Diagnostic.mapNames (renamed old new)) } := by
  have hemit : emit policy (symbolsOf policy (lines.map (Line.mapNames (renamed old new))))
        (lines.map (Line.mapNames (renamed old new))) =
      (emit policy (symbolsOf policy lines) lines).map
        (Emission.mapReports (Diagnostic.mapNames (renamed old new))) := by
    rw [emit_eq_emitFrom_program, emit_eq_emitFrom_program, program_mapNames, numbered_map]
    apply emitFrom_map policy (Line.mapNames (renamed old new)) id
      (Issue.mapNames (renamed old new))
    · intro p hp target counter
      exact Line.next_mapNames policy target counter
    · intro p hp
      exact r.outcome_eq policy (mem_of_mem_program (List.fst_mem_of_mem_zipIdx hp))
  rw [assembleLines_eq_map, assembleLines_eq_map, hemit, r.symbolsOf_eq,
    labelDiagnostics_mapNames r.length_renamed_iff]
  cases emit policy (symbolsOf policy lines) lines with
  | error fault => rfl
  | ok emission =>
      simp only [Except.map, Emission.mapReports, ← List.map_append]
      rw [Diagnostic.sortByLine_map]
      intro d hd e he
      exact Iff.rfl

end Renaming

/-! ## A text with another name for a label -/

/-- The tokens behind a mnemonic, with another name for the operand. -/
def renameOperand (old new : String) : List String → List String
  | [] => []
  | operand :: others => renamed old new operand :: others

/-- The tokens of a line, with another name for the label and for the operand. -/
def renameTokens (old new : String) : List String → List String
  | [] => []
  | first :: rest =>
    match Line.labelOfToken? first, rest with
    | none, arguments => first :: renameOperand old new arguments
    | some label, [] => [if label = old then new ++ "," else first]
    | some label, mnemonic :: arguments =>
      (if label = old then new ++ "," else first) :: mnemonic :: renameOperand old new arguments

variable {old new : String}

/-- Renaming the operand among the tokens renames it in the statement. -/
theorem Statement.ofTokens_renameOperand (mnemonic : String) (arguments : List String) :
    Statement.ofTokens mnemonic (renameOperand old new arguments) =
      (Statement.ofTokens mnemonic arguments).mapOperand (renamed old new) := by
  have hoperand : (renameOperand old new arguments)[0]? = arguments[0]?.map (renamed old new) := by
    cases arguments <;> rfl
  have hmark : (renameOperand old new arguments)[1]? = arguments[1]? := by
    cases arguments <;> rfl
  unfold ofTokens
  simp only [hoperand, hmark]
  split
  · rfl
  · rfl
  · rfl
  · rfl
  · split <;> rfl

/-- The label of a first token under its other name. -/
theorem Line.labelOfToken?_renamed (hlength : new.length = 3) (hcomma : ∀ c ∈ new.toList, c ≠ ',')
    {first label : String} (hlabel : labelOfToken? first = some label) :
    labelOfToken? (if label = old then new ++ "," else first) = some (renamed old new label) := by
  unfold renamed
  split
  · exact labelOfToken?_append_comma hlength.le hcomma
  · exact hlabel

/-- **Renamed tokens are the tokens of the renamed line.** -/
theorem Line.ofTokens_renameTokens (hlength : new.length = 3) (hcomma : ∀ c ∈ new.toList, c ≠ ',')
    (tokens : List String) :
    ofTokens (renameTokens old new tokens) = (ofTokens tokens).mapNames (renamed old new) := by
  cases tokens with
  | nil => rfl
  | cons first rest =>
      cases hlabel : labelOfToken? first with
      | none =>
          simp only [renameTokens, ofTokens, hlabel, Statement.ofTokens_renameOperand]
          rfl
      | some label =>
          have hrenamed : labelOfToken? (if label = old then new ++ "," else first) =
              some (renamed old new label) := labelOfToken?_renamed hlength hcomma hlabel
          cases rest with
          | nil =>
              simp only [renameTokens, ofTokens, hlabel, hrenamed]
              rfl
          | cons mnemonic arguments =>
              simp only [renameTokens, ofTokens, hlabel, hrenamed,
                Statement.ofTokens_renameOperand]
              rfl

/-- Renaming an operand replaces tokens by as many others. -/
theorem replacesTokens_renameOperand (old : String) (h : Text.IsToken new) :
    Text.ReplacesTokens (renameOperand old new) := by
  intro arguments harguments
  cases arguments with
  | nil => exact ⟨rfl, harguments⟩
  | cons operand others =>
      obtain ⟨hoperand, hothers⟩ := List.forall_mem_cons.mp harguments
      refine ⟨rfl, List.forall_mem_cons.mpr ⟨?_, hothers⟩⟩
      unfold renamed
      split
      · exact h
      · exact hoperand

/-- Renaming in a line replaces tokens by as many others. -/
theorem replacesTokens_renameTokens (old : String) (h : Text.IsToken new) :
    Text.ReplacesTokens (renameTokens old new) := by
  intro tokens htokens
  cases tokens with
  | nil => exact ⟨rfl, htokens⟩
  | cons first rest =>
      obtain ⟨hfirst, hrest⟩ := List.forall_mem_cons.mp htokens
      cases hlabel : Line.labelOfToken? first with
      | none =>
          obtain ⟨hlength, harguments⟩ := replacesTokens_renameOperand old h rest hrest
          simp only [renameTokens, hlabel, List.length_cons, hlength, List.forall_mem_cons]
          exact ⟨trivial, hfirst, harguments⟩
      | some label =>
          have htoken : Text.IsToken (if label = old then new ++ "," else first) := by
            split
            · exact Line.isToken_append_comma h.2
            · exact hfirst
          cases rest with
          | nil =>
              simp only [renameTokens, hlabel, List.length_cons, List.forall_mem_cons]
              exact ⟨trivial, htoken, hrest⟩
          | cons mnemonic arguments =>
              obtain ⟨hmnemonic, harguments⟩ := List.forall_mem_cons.mp hrest
              obtain ⟨hlength, hrenamed⟩ :=
                replacesTokens_renameOperand old h arguments harguments
              simp only [renameTokens, hlabel, List.length_cons, hlength, List.forall_mem_cons]
              exact ⟨trivial, htoken, hmnemonic, hrenamed⟩

/-- Renaming in the text renames in the lines. -/
theorem sourceLines_mapTokens (hlength : new.length = 3) (hcomma : ∀ c ∈ new.toList, c ≠ ',')
    (h : Text.IsToken new) (source : String) :
    sourceLines (Text.mapTokens (renameTokens old new) source) =
      (sourceLines source).map (Line.mapNames (renamed old new)) := by
  have htokens := Text.map_tokens_lines_mapTokens (replacesTokens_renameTokens old h) source
  have hparse : Line.parse = Line.ofTokens ∘ Text.tokens := rfl
  unfold sourceLines
  rw [hparse, ← List.map_map, htokens, List.map_map, List.map_map]
  refine List.map_congr_left fun line _ => ?_
  exact Line.ofTokens_renameTokens hlength hcomma (Text.tokens line)

/-- **Names of labels do not matter.** Some line defines the label `old`, no `ORG` has it for an
operand, and `new` is a label that no line has for a label or an operand. In the text, each line
gets `new` and a comma in place of a first token whose label is `old`, and `new` in place of an
operand `old`; all else stays. Either both texts are without an assembly, or both have one, with the same
listing, and with the same symbols and the same reports in the same order, under the new name. -/
theorem label_names_do_not_matter (policy : BlankLines) (source old new : String)
    (hdefined : ∃ line ∈ sourceLines source, line.symbolName? = some old)
    (horg : ∀ line ∈ sourceLines source, line.isOrg = true → line.operand? ≠ some old)
    (hlength : new.length = 3) (hchars : ∀ c ∈ new.toList, Text.isBlank c = false ∧ c ≠ ',')
    (hfresh : ∀ line ∈ sourceLines source, line.label? ≠ some new ∧ line.operand? ≠ some new) :
    (Text.lines (Text.mapTokens (renameTokens old new) source)).map Text.tokens =
      (Text.lines source).map (fun line => renameTokens old new (Text.tokens line)) ∧
    assemble policy (Text.mapTokens (renameTokens old new) source) =
      (assemble policy source).map fun a => {
        listing := a.listing
        symbols := .ofList (a.symbols.toList.map fun s => ⟨renamed old new s.name, s.address⟩)
        diagnostics := a.diagnostics.map fun d =>
          ⟨d.line, d.issue.mapNames (renamed old new)⟩ } := by
  have htoken : Text.IsToken new := by
    refine ⟨?_, fun c hc => (hchars c hc).1⟩
    intro hnil
    rw [← String.length_toList, hnil] at hlength
    exact absurd hlength (by decide)
  have r : Renaming old new (sourceLines source) :=
    { defined := hdefined
      org_ne := horg
      length_new := hlength
      label_ne := fun line hline => (hfresh line hline).1
      operand_ne := fun line hline => (hfresh line hline).2 }
  constructor
  · exact Text.map_tokens_lines_mapTokens (replacesTokens_renameTokens old htoken) source
  · unfold assemble
    rw [sourceLines_mapTokens hlength (fun c hc => (hchars c hc).2) htoken, r.assembleLines_eq]
    rfl

/-- Both names read as numbers. The label is defined three times, once cut off from a longer one and
once behind the end, and two reports are about it. -/
theorem label_names_do_not_matter_for_number :
    let source := "\tLDA  ABC I\r\nABCD,x HEX ABC\nCLA ABC \n ABC,\nDEC ABC\nEND\nABC, FOO ABC"
    Text.mapTokens (renameTokens "ABC" "0FF") source =
        "\tLDA  0FF I\r\n0FF, HEX 0FF\nCLA 0FF \n 0FF,\nDEC 0FF\nEND\n0FF, FOO 0FF" ∧
      assemble .advance (Text.mapTokens (renameTokens "ABC" "0FF") source) = .ok {
        listing := ⟨[⟨0, 0xA006⟩, ⟨1, 0x0006⟩, ⟨2, 0x7800⟩, ⟨4, 0x0006⟩]⟩
        symbols := .ofList [⟨"0FF", 1⟩, ⟨"0FF", 3⟩, ⟨"0FF", 6⟩]
        diagnostics := [⟨3, .ignoredOperand "CLA" "0FF"⟩, ⟨4, .missingMnemonic "0FF"⟩] } := by
  intro source
  have hlines : sourceLines source =
      [.statement none (.instruction .lda (some "ABC") true),
        .statement (some "ABC") (.data .hex (some "ABC")),
        .statement none (.instruction .cla (some "ABC") false),
        .labelOnly "ABC",
        .statement none (.data .decimal (some "ABC")),
        .statement none .stop,
        .statement (some "ABC") (.unknown "FOO" (some "ABC"))] := by
    decide +kernel
  have hchars : ∀ c ∈ "0FF".toList, Text.isBlank c = false ∧ c ≠ ',' := by
    have htoList : "0FF".toList = ['0', 'F', 'F'] := rfl
    rw [htoList]
    simp only [List.forall_mem_cons, List.not_mem_nil, false_implies, implies_true, and_true]
    decide
  have hsource : assemble .advance source = .ok {
      listing := ⟨[⟨0, 0xA006⟩, ⟨1, 0x0006⟩, ⟨2, 0x7800⟩, ⟨4, 0x0006⟩]⟩
      symbols := .ofList [⟨"ABC", 1⟩, ⟨"ABC", 3⟩, ⟨"ABC", 6⟩]
      diagnostics := [⟨3, .ignoredOperand "CLA" "ABC"⟩, ⟨4, .missingMnemonic "ABC"⟩] } := by
    rw [assemble, hlines]
    decide +kernel
  refine ⟨by decide +kernel, ?_⟩
  have hrenamed := (label_names_do_not_matter .advance source "ABC" "0FF"
    (by rw [hlines]; decide) (by rw [hlines]; decide) (by decide) hchars
    (by rw [hlines]; decide)).2
  rw [hrenamed, hsource]
  decide +kernel

end BasicComputer
