import Mathlib.Data.Finset.Card
import BasicComputer.Log
import BasicComputer.Proofs.InstructionWords
import BasicComputer.Proofs.Reports

/-!
# The log of an assembly and its results

The log and the assembly are made from the same lines by different walks: the log tells a definition
from a redefinition as it goes, and it knows nothing of the final order of the diagnostics. This
module says that the two agree.

* **The first pass** (`filterMap_report?_labelLog`, `filter_isDefinition_labelLog`): the reports of
  its log are the issues of the labels, and its other events are those of the definitions, each
  series in order. `getElem?_definitionEvents` tells the `k`-th of them from the `k` definitions
  in front of it.
* **The number of names** (`SymbolTable.size_ofList`): a table counts the distinct names.
* **The order** (`Diagnostic.sortByLine_append_eq_merge`): where two series of reports go strictly
  from line to line, their sort is their merge, the first series in front on the same line. Each
  pass makes such a series (`pairwise_filterMap_numbered`).
* **The kinds** (`Line.issue?_ne_invalidLabel`): the second pass never reports a label.
-/

namespace BasicComputer

/-! ## Events -/

namespace Event

/-- The diagnostic that an event reports. -/
def report? : Event → Option Diagnostic
  | reported d => some d
  | _ => none

/-- Whether an event gives a label its address. -/
def isDefinition : Event → Bool
  | defined _ _ => true
  | redefined _ _ _ => true
  | _ => false

end Event

namespace SymbolTable

/-- A definition is logged without a report. -/
theorem report?_definitionEvent (t : SymbolTable) (name : String) (address : Word) :
    (t.definitionEvent name address).report? = none := by
  unfold definitionEvent
  split <;> rfl

/-- A definition is logged as one. -/
theorem isDefinition_definitionEvent (t : SymbolTable) (name : String) (address : Word) :
    (t.definitionEvent name address).isDefinition = true := by
  unfold definitionEvent
  split <;> rfl

end SymbolTable

/-! ## The log of the first pass -/

/-- The events of definitions that are made behind those of a table. -/
def definitionEvents : SymbolTable → List Symbol → List Event
  | _, [] => []
  | known, s :: rest =>
    known.definitionEvent s.name s.address ::
      definitionEvents (known.define s.name s.address) rest

/-- Every definition is logged once. -/
theorem length_definitionEvents (known : SymbolTable) (definitions : List Symbol) :
    (definitionEvents known definitions).length = definitions.length := by
  induction definitions generalizing known with
  | nil => rfl
  | cons s rest ih => simp [definitionEvents, ih]

/-- **The reports of the first pass** are the issues of the labels. -/
theorem filterMap_report?_labelLog (policy : BlankLines) (known : SymbolTable) (counter : Word)
    (lines : List (Line × Nat)) :
    (labelLog policy known counter lines).filterMap Event.report? = labelDiagnostics lines := by
  unfold labelDiagnostics
  fun_induction labelLog policy known counter lines with
  | case1 => rfl
  | case2 known counter line number rest next hlabel ih =>
      simp [Line.labelIssue?, hlabel, ih]
  | case3 known counter line number rest next label hlabel hname ih =>
      simp [Line.labelIssue?, hlabel, hname, ih, SymbolTable.report?_definitionEvent]
  | case4 known counter line number rest next label hlabel hname ih =>
      simp [Line.labelIssue?, hlabel, hname, ih, Event.report?]

/-- **The other events of the first pass** are those of the definitions. -/
theorem filter_isDefinition_labelLog (policy : BlankLines) (known : SymbolTable) (counter : Word)
    (lines : List (Line × Nat)) :
    (labelLog policy known counter lines).filter Event.isDefinition =
      definitionEvents known (definitionsFrom policy counter (lines.map Prod.fst)) := by
  fun_induction labelLog policy known counter lines with
  | case1 => rfl
  | case2 known counter line number rest next hlabel ih =>
      simp [definitionsFrom, Line.symbolName?, hlabel, ih, next]
  | case3 known counter line number rest next label hlabel hname ih =>
      simp [definitionsFrom, Line.symbolName?, hlabel, hname, ih, next, definitionEvents,
        Option.filter_some, SymbolTable.isDefinition_definitionEvent]
  | case4 known counter line number rest next label hlabel hname ih =>
      simp [definitionsFrom, Line.symbolName?, hlabel, hname, ih, next, Option.filter_some,
        Event.isDefinition]

/-- Nothing else happens in the first pass. -/
theorem mem_labelLog {policy : BlankLines} {known : SymbolTable} {counter : Word}
    {lines : List (Line × Nat)} {e : Event} (h : e ∈ labelLog policy known counter lines) :
    e.isDefinition = true ∨ ∃ d ∈ labelDiagnostics lines, e = .reported d := by
  have hkinds : e.isDefinition = true ∨ ∃ d, e = .reported d := by
    fun_induction labelLog policy known counter lines with
    | case1 => exact absurd h List.not_mem_nil
    | case2 known counter line number rest next hlabel ih => exact ih h
    | case3 known counter line number rest next label hlabel hname ih =>
        rcases List.mem_cons.mp h with rfl | hrest
        · exact .inl (SymbolTable.isDefinition_definitionEvent known label counter)
        · exact ih hrest
    | case4 known counter line number rest next label hlabel hname ih =>
        rcases List.mem_cons.mp h with rfl | hrest
        · exact .inr ⟨_, rfl⟩
        · exact ih hrest
  rcases hkinds with hdefinition | ⟨d, rfl⟩
  · exact .inl hdefinition
  · refine .inr ⟨d, ?_, rfl⟩
    rw [← filterMap_report?_labelLog policy known counter lines]
    exact List.mem_filterMap.mpr ⟨_, h, rfl⟩

/-- **The `k`-th definition** is logged as the table of the definitions in front of it demands. -/
theorem getElem?_definitionEvents (earlier definitions : List Symbol) (k : Nat) :
    (definitionEvents (.ofList earlier) definitions)[k]? =
      definitions[k]?.map fun s =>
        (SymbolTable.ofList (earlier ++ definitions.take k)).definitionEvent s.name s.address := by
  induction definitions generalizing earlier k with
  | nil => rfl
  | cons s rest ih =>
      cases k with
      | zero => simp [definitionEvents]
      | succ k =>
          rw [definitionEvents, List.getElem?_cons_succ, ← SymbolTable.ofList_concat, ih]
          simp

/-- A definition is a redefinition when its name was defined before, and the event then holds the
address of the last definition of that name. -/
theorem SymbolTable.definitionEvent_ofList (earlier : List Symbol) (name : String)
    (address : Word) :
    (SymbolTable.ofList earlier).definitionEvent name address =
      match (earlier.filter (·.name = name)).getLast? with
      | some previous => .redefined name previous.address address
      | none => .defined name address := by
  rw [definitionEvent, resolve_ofList]
  cases (earlier.filter (·.name = name)).getLast? <;> rfl

/-! ## The number of names -/

/-- **The size of a table** is the number of distinct names. -/
theorem SymbolTable.size_ofList (definitions : List Symbol) :
    (SymbolTable.ofList definitions).size = (definitions.map (·.name)).toFinset.card := by
  induction definitions using List.reverseRecOn with
  | nil => rfl
  | append_singleton front last ih =>
      have hnames : ((front ++ [last]).map (·.name)).toFinset =
          insert last.name (front.map (·.name)).toFinset := by
        ext name
        simp
      rw [ofList_concat, size_define, ih, hnames]
      by_cases hknown : last.name ∈ front.map (·.name)
      · rw [if_pos ((isSome_resolve_ofList front last.name).mpr hknown), Nat.add_zero,
          Finset.insert_eq_of_mem (List.mem_toFinset.mpr hknown)]
      · have hnew : ¬ ((SymbolTable.ofList front).resolve last.name).isSome = true := by
          intro hsome
          exact hknown ((isSome_resolve_ofList front last.name).mp hsome)
        rw [if_neg hnew, Finset.card_insert_of_notMem]
        intro hmem
        exact hknown (List.mem_toFinset.mp hmem)

/-! ## The order of the reports -/

/-- A pass over numbered lines reports strictly from line to line. -/
theorem pairwise_filterMap_numbered (view : Line → Option Issue) (lines : List Line) :
    ((numbered lines).filterMap fun p => (view p.1).map (Diagnostic.mk p.2)).Pairwise
      fun d e => d.line < e.line := by
  have hnumbers : (numbered lines).Pairwise fun p q => p.2 < q.2 := by
    have hrange : ((numbered lines).map Prod.snd).Pairwise (· < ·) := by
      rw [numbered, List.zipIdx_map_snd]
      exact List.pairwise_lt_range'
    exact List.pairwise_map.mp hrange
  rw [List.pairwise_filterMap]
  refine hnumbers.imp ?_
  intro p q hlt d hd e he
  obtain ⟨issue, -, rfl⟩ := Option.map_eq_some_iff.mp hd
  obtain ⟨issue', -, rfl⟩ := Option.map_eq_some_iff.mp he
  exact hlt

namespace Diagnostic

/-- Insertion into a merge, report by report. -/
theorem foldr_insertByLine_eq_merge {first second : List Diagnostic}
    (hfirst : first.Pairwise fun d e => d.line ≤ e.line)
    (hsecond : second.Pairwise fun d e => d.line ≤ e.line) :
    first.foldr insertByLine second =
      first.merge second (fun d e => decide (d.line ≤ e.line)) := by
  -- along the second list: each of its reports stands in front of all that comes later
  induction second generalizing first with
  | nil =>
      rw [List.merge_right, foldr_insertByLine_of_le hfirst (by simp), List.append_nil]
  | cons e second ih =>
      obtain ⟨he, hsecond⟩ := List.pairwise_cons.mp hsecond
      induction first with
      | nil => simp
      | cons d first ihfirst =>
          obtain ⟨hd, hrest⟩ := List.pairwise_cons.mp hfirst
          by_cases hle : d.line ≤ e.line
          · -- `d` is not behind anything that is left
            rw [List.foldr_cons, ihfirst hrest, List.cons_merge_cons, if_pos (decide_eq_true hle)]
            apply insertByLine_of_le
            intro x hx
            rcases List.mem_merge.mp hx with hx | hx
            · exact hd x hx
            · rcases List.mem_cons.mp hx with rfl | hx
              · exact hle
              · exact Nat.le_trans hle (he x hx)
          · -- `e` is in front of `d` and of everything behind `d`
            have hlater : ∀ x ∈ d :: first, ∀ y ∈ [e], y.line < x.line := by
              intro x hx y hy
              rw [List.mem_singleton.mp hy]
              rcases List.mem_cons.mp hx with rfl | hx
              · omega
              · have := hd x hx
                omega
            have hpass := foldr_insertByLine_append hlater second
            rw [List.singleton_append, ih hfirst hsecond] at hpass
            rw [hpass, List.cons_merge_cons, if_neg (by simpa using hle), List.singleton_append]

/-- **The sort of two series of reports is their merge**, the first series in front on the same
line. -/
theorem sortByLine_append_eq_merge {first second : List Diagnostic}
    (hfirst : first.Pairwise fun d e => d.line < e.line)
    (hsecond : second.Pairwise fun d e => d.line < e.line) :
    sortByLine (first ++ second) =
      first.merge second (fun d e => decide (d.line ≤ e.line)) := by
  have hfirst := hfirst.imp fun h => Nat.le_of_lt h
  have hsecond := hsecond.imp fun h => Nat.le_of_lt h
  have hsorted : sortByLine second = second := by
    rw [sortByLine, foldr_insertByLine_of_le hsecond (by simp), List.append_nil]
  rw [sortByLine, List.foldr_append]
  change first.foldr insertByLine (sortByLine second) = _
  rw [hsorted, foldr_insertByLine_eq_merge hfirst hsecond]

end Diagnostic

/-! ## The kinds of the reports -/

/-- An operand that cannot be read is no matter of a label. -/
theorem Operand.issue_ne_invalidLabel (operand : Operand) (radix : Radix) (label : String) :
    operand.issue radix ≠ .invalidLabel label :=
  operand.issue_ne_of_warning radix rfl

/-- The outcome of an `ORG` never tells of a label. -/
theorem issue?_orgOutcome_ne_invalidLabel (operand : Option Operand) (label : String) :
    (orgOutcome operand).issue? ≠ some (.invalidLabel label) := by
  unfold orgOutcome
  split
  · simp [Outcome.issue?]
  · split
    · simp [Outcome.issue?, Operand.issue_ne_invalidLabel]
    · simp [Outcome.issue?]

/-- The outcome of data never tells of a label. -/
theorem issue?_dataOutcome_ne_invalidLabel (radix : Radix) (operand : Option Operand)
    (label : String) : (dataOutcome radix operand).issue? ≠ some (.invalidLabel label) := by
  unfold dataOutcome
  split
  · simp [Outcome.issue?]
  · split
    · simp [Outcome.issue?, Operand.issue_ne_invalidLabel]
    · split <;> simp [Outcome.issue?]

/-- The outcome of an instruction with an operand never tells of a label. -/
theorem issue?_referenceOutcome_ne_invalidLabel {op : Opcode} {indirect : Bool}
    {operand : Option Operand} {outcome : Outcome}
    (h : referenceOutcome op indirect operand = .ok outcome) (label : String) :
    outcome.issue? ≠ some (.invalidLabel label) := by
  unfold referenceOutcome at h
  split at h
  · cases h
    simp [Outcome.issue?]
  · split at h
    · cases h
      simp [Outcome.issue?, Operand.issue_ne_invalidLabel]
    · dsimp only at h
      split at h
      · cases h
        simp [Outcome.issue?]
      · exact absurd h (by simp)

/-- **The second pass never reports a label.** -/
theorem Line.issue?_ne_invalidLabel (symbols : SymbolTable) (line : Line) (label : String) :
    line.issue? symbols ≠ some (.invalidLabel label) := by
  intro h
  obtain ⟨outcome, houtcome, hissue⟩ := exists_outcome_of_issue? h
  cases line with
  | blank => cases houtcome; cases hissue
  | labelOnly name => cases houtcome; cases hissue
  | statement name body =>
      cases body with
      | org operand =>
          cases houtcome
          exact issue?_orgOutcome_ne_invalidLabel _ label hissue
      | stop => cases houtcome; cases hissue
      | data radix operand =>
          cases houtcome
          exact issue?_dataOutcome_ne_invalidLabel radix _ label hissue
      | unknown mnemonic operand => cases houtcome; cases hissue
      | instruction op operand indirect =>
          cases htakes : op.takesOperand with
          | true =>
              rw [outcome_reference htakes] at houtcome
              exact issue?_referenceOutcome_ne_invalidLabel houtcome label hissue
          | false =>
              rw [outcome_plain htakes] at houtcome
              cases houtcome
              simp [plainOutcome, Outcome.issue?] at hissue

/-- The diagnostics of the first pass are about labels. -/
theorem invalidLabel_of_mem_labelDiagnostics {lines : List (Line × Nat)} {d : Diagnostic}
    (h : d ∈ labelDiagnostics lines) : ∃ label, d.issue = .invalidLabel label := by
  obtain ⟨p, -, hp⟩ := List.mem_filterMap.mp h
  obtain ⟨issue, hissue, rfl⟩ := Option.map_eq_some_iff.mp hp
  exact Line.labelIssue?_eq_some hissue

/-- The reports of the second pass are not about labels. -/
theorem ne_invalidLabel_of_mem_reports {symbols : SymbolTable} {lines : List Line} {d : Diagnostic}
    (h : d ∈ reports symbols lines) (label : String) : d.issue ≠ .invalidLabel label := by
  obtain ⟨p, -, hp⟩ := List.mem_filterMap.mp h
  obtain ⟨issue, hissue, rfl⟩ := Option.map_eq_some_iff.mp hp
  rintro rfl
  exact Line.issue?_ne_invalidLabel symbols p.1 label hissue

/-- **The reports with one number**: the issue of a label, if there is one, and behind it an issue
of the second pass, if there is one. -/
theorem filter_line_eq_append {policy : BlankLines} {lines : List Line} {a : Assembly}
    (h : assembleLines policy lines = .ok a) (n : Nat) :
    ∃ (label? : Option String) (issue? : Option Issue),
      (∀ label, issue? ≠ some (.invalidLabel label)) ∧
      a.diagnostics.filter (fun d => decide (d.line = n)) =
        Diagnostic.ofIssues n ((label?.map Issue.invalidLabel).toList ++ issue?.toList) := by
  rw [diagnostics_eq_lineReports h]
  by_cases hn : 1 ≤ n ∧ n ≤ lines.length
  · obtain ⟨i, rfl⟩ : ∃ i, n = i + 1 := ⟨n - 1, by omega⟩
    rw [filter_line_eq a.symbols (by omega), issuesAt]
    refine ⟨(lines[i]?.bind Line.placedLabel?).filter (!Line.isSymbolName ·),
      (program lines)[i]?.bind (Line.issue? a.symbols), ?_, ?_⟩
    · intro label hissue
      obtain ⟨line, -, hline⟩ := Option.bind_eq_some_iff.mp hissue
      exact line.issue?_ne_invalidLabel a.symbols label hline
    · cases lines[i]? <;> rfl
  · refine ⟨none, none, by simp, ?_⟩
    rw [List.filter_eq_nil_iff.mpr]
    · rfl
    · intro d hd hline
      have hrange := line_le_of_mem_lineReports hd
      rw [of_decide_eq_true hline] at hrange
      exact hn hrange

/-! ## The log and the results -/

/-- The log of a program that has an assembly. -/
theorem assemblyLogOfLines_of_ok {policy : BlankLines} {lines : List Line} {a : Assembly}
    (h : assembleLines policy lines = .ok a) :
    assemblyLogOfLines policy lines =
      .ok (labelLog policy .empty 0 (numbered lines) ++
        .firstPassDone (a.symbols.toList.map (·.name)).toFinset.card ::
          (reports a.symbols lines).map .reported ++ [.secondPassDone a.listing.size]) := by
  have hsymbols := symbols_of_assembleLines h
  have hnames := SymbolTable.size_ofList (definitions policy lines)
  rw [assemblyLogOfLines, emit_of_assembleLines h, hsymbols, symbolsOf, SymbolTable.toList_ofList,
    hnames]
  rfl

/-- The reports of a log are those of the two passes. -/
theorem filterMap_report?_log (first : List Event) (names words : Nat)
    (reports : List Diagnostic) :
    (first ++ Event.firstPassDone names :: reports.map Event.reported ++
        [Event.secondPassDone words]).filterMap Event.report? =
      first.filterMap Event.report? ++ reports := by
  have hreports : (reports.map Event.reported).filterMap Event.report? = reports := by
    rw [List.filterMap_map]
    exact List.filterMap_some
  rw [List.filterMap_append, List.filterMap_append, List.filterMap_cons_none rfl, hreports,
    List.filterMap_cons_none rfl, List.filterMap_nil, List.append_nil]

/-- The `k`-th event of a definition in the log of a program. -/
theorem getElem?_filter_labelLog (policy : BlankLines) (lines : List Line) (k : Nat) :
    ((labelLog policy .empty 0 (numbered lines)).filter Event.isDefinition)[k]? =
      (definitions policy lines)[k]?.map fun s =>
        (SymbolTable.ofList ((definitions policy lines).take k)).definitionEvent
          s.name s.address := by
  rw [filter_isDefinition_labelLog, map_fst_numbered]
  exact getElem?_definitionEvents [] (definitions policy lines) k

/-- **The log agrees with the results.** The log of an assembly holds the events of the first pass,
its end with the number of distinct names, the reports of the second pass, and its end with the
length of the listing. The reports of the log are the diagnostics: those of the first pass are all
about labels, those of the second never, both go strictly from line to line, and the diagnostics
are their merge, the first pass in front on the same line. So a line has at most two, and of two
the first is about a label and the second is not. The other events of the first pass are, one by
one, the definitions of the symbols; an event is a redefinition exactly when an earlier definition
has the same name, and then holds the address of the last of these. -/
theorem log_agrees_with_results {policy : BlankLines} {source : String} {a : Assembly}
    (h : assemble policy source = .ok a) :
    ∃ (log first : List Event) (labelReports reports : List Diagnostic),
      assemblyLog policy source = .ok log ∧
      log = first ++ .firstPassDone (a.symbols.toList.map (·.name)).toFinset.card ::
        reports.map .reported ++ [.secondPassDone a.listing.size] ∧
      (∀ e ∈ first, e.isDefinition = true ∨ ∃ d ∈ labelReports, e = .reported d) ∧
      first.filterMap Event.report? = labelReports ∧
      (log.filterMap Event.report?).Perm a.diagnostics ∧
      (∀ d ∈ labelReports, ∃ label, d.issue = .invalidLabel label) ∧
      labelReports.Pairwise (fun d e => d.line < e.line) ∧
      (∀ d ∈ reports, ∀ label, d.issue ≠ .invalidLabel label) ∧
      reports.Pairwise (fun d e => d.line < e.line) ∧
      a.diagnostics = labelReports.merge reports (fun d e => decide (d.line ≤ e.line)) ∧
      (∀ d ∈ a.diagnostics, 1 ≤ d.line ∧ d.line ≤ (Text.lines source).length) ∧
      (∀ n, (a.diagnostics.filter fun d => decide (d.line = n)).length ≤ 2 ∧
        ∀ d e, (a.diagnostics.filter fun d => decide (d.line = n)) = [d, e] →
          (∃ label, d.issue = .invalidLabel label) ∧ ∀ label, e.issue ≠ .invalidLabel label) ∧
      (first.filter Event.isDefinition).length = a.symbols.toList.length ∧
      ∀ k s, a.symbols.toList[k]? = some s →
        let earlier := (a.symbols.toList.take k).filter (·.name = s.name)
        (earlier = [] →
          (first.filter Event.isDefinition)[k]? = some (.defined s.name s.address)) ∧
        ∀ previous, earlier.getLast? = some previous →
          (first.filter Event.isDefinition)[k]? =
            some (.redefined s.name previous.address s.address) := by
  have hsymbols : a.symbols.toList = definitions policy (sourceLines source) := by
    obtain ⟨-, rfl⟩ := assembleLines_eq_ok_iff.mp h
    exact SymbolTable.toList_ofList _
  have hlabels := pairwise_filterMap_numbered Line.labelIssue? (sourceLines source)
  have hreports := pairwise_filterMap_numbered (Line.issue? a.symbols)
    (program (sourceLines source))
  have hsort : a.diagnostics = Diagnostic.sortByLine
      (labelDiagnostics (numbered (sourceLines source)) ++
        reports a.symbols (sourceLines source)) := by
    obtain ⟨-, rfl⟩ := assembleLines_eq_ok_iff.mp h
    rfl
  refine ⟨_, labelLog policy .empty 0 (numbered (sourceLines source)),
    labelDiagnostics (numbered (sourceLines source)), reports a.symbols (sourceLines source),
    assemblyLogOfLines_of_ok h, rfl, fun e => mem_labelLog, filterMap_report?_labelLog _ _ _ _, ?_,
    fun d => invalidLabel_of_mem_labelDiagnostics, hlabels, fun d => ne_invalidLabel_of_mem_reports,
    hreports, hsort.trans (Diagnostic.sortByLine_append_eq_merge hlabels hreports), ?_, ?_, ?_, ?_⟩
  · rw [filterMap_report?_log, filterMap_report?_labelLog, hsort]
    exact (Diagnostic.sortByLine_perm _).symm
  · intro d hd
    rw [diagnostics_eq_lineReports h] at hd
    have hrange := line_le_of_mem_lineReports hd
    rwa [sourceLines, List.length_map] at hrange
  · intro n
    obtain ⟨label?, issue?, hissue, hline⟩ := filter_line_eq_append h n
    rw [hline]
    cases label? <;> cases issue? <;> simp_all [Diagnostic.ofIssues]
  · rw [filter_isDefinition_labelLog, map_fst_numbered, length_definitionEvents, hsymbols,
      definitions]
  · rw [hsymbols]
    intro k s hs earlier
    have hevent := getElem?_filter_labelLog policy (sourceLines source) k
    rw [hs, Option.map_some, SymbolTable.definitionEvent_ofList] at hevent
    refine ⟨fun hnone => ?_, fun previous hprevious => ?_⟩
    · rw [hevent, show List.filter _ _ = [] from hnone]
      rfl
    · rw [hevent, show List.getLast? _ = some previous from hprevious]

/-- A text with a label that is defined again, a line with two diagnostics, and a label behind the
end that is reported in the first pass only. -/
theorem log_agrees_with_results_of_redefinition :
    let source := "ABC, LDA XYZ\nAB, FOO\nABC, HLT\nEND\nQ, HLT\n"
    ∃ a log, assemble .advance source = .ok a ∧ assemblyLog .advance source = .ok log ∧
      (log.filterMap Event.report?).Perm a.diagnostics ∧ a.diagnostics.length = 4 ∧
      .redefined "ABC" 0 2 ∈ log := by
  intro source
  have hrun : assemble .advance source =
      .ok {
        listing := ⟨[⟨2, 0x7001⟩]⟩
        symbols := .ofList [⟨"ABC", 0⟩, ⟨"ABC", 2⟩]
        diagnostics := [⟨1, .undefinedSymbol "XYZ"⟩, ⟨2, .invalidLabel "AB"⟩,
          ⟨2, .unknownMnemonic "FOO"⟩, ⟨5, .invalidLabel "Q"⟩] } := by
    decide +kernel
  obtain ⟨log, first, labelReports, reports, hlog, hparts, -, -, hperm, -, -, -, -, -, -, -, -,
    hdefinitions⟩ := log_agrees_with_results hrun
  have hevent := (hdefinitions 1 ⟨"ABC", 2⟩ (by decide +kernel)).2 ⟨"ABC", 0⟩ (by decide +kernel)
  have hfirst : .redefined "ABC" 0 2 ∈ first :=
    List.mem_of_mem_filter (List.mem_of_getElem? hevent)
  refine ⟨_, log, hrun, hlog, hperm, rfl, ?_⟩
  rw [hparts, List.append_assoc]
  exact List.mem_append_left _ hfirst

end BasicComputer
