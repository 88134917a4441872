import BasicComputer.Proofs.Faults
import BasicComputer.Proofs.LaterLines
import BasicComputer.Proofs.Reassembly

/-!
# A program at another place

A text without an `ORG` is put behind an `ORG` of one's choice. This module compares two such
programs: the same lines behind `ORG a` and behind `ORG b`. All addresses differ by the distance
from `a` to `b`, modulo `2 ^ 16`, and so do the words that are made from addresses.

* **Walks** (`BlankLines.collect_add`): lines without an `ORG` carry the distance along, line by
  line. Definitions and entries are both such walks.
* **One line** (`Line.MovesTo`): when the symbols are moved by a distance, the outcome of a line is
  the same, or it is a word that moves with them. Only the second kind may gain or lose a warning,
  since an address of 16 bits need not fit in 12.
* **The `ORG` in front** (`outcome_orgLine`): it moves both counters to the same place, because its
  operand is a number and no symbol.

The decimal radix is left out: there the digits of an address are read as another number, or as
none, and this may change from one place to the next.
-/

namespace BasicComputer

variable {β : Type}

/-! ## Walks over lines without an `ORG` -/

namespace BlankLines

/-- A line that is no `ORG` carries a distance along, whatever the pass says about `ORG` lines. -/
theorem next_add (policy : BlankLines) {line : Line} (h : line.isOrg = false)
    (target target' : Option Word) (counter distance : Word) :
    policy.next line target' (counter + distance) = policy.next line target counter + distance := by
  unfold next
  rw [h]
  by_cases htakes : policy.takesAddress line = true
  · simp [htakes, BitVec.add_assoc, BitVec.add_comm distance]
  · simp [htakes]

/-- **A walk that starts at a distance** gives what the walk gives, at that distance. -/
theorem collect_add (policy : BlankLines) {target target' : Line → Option Word}
    {give give' : Line → Word → Option β} {distance : Word} {lines : List Line}
    (h : ∀ line ∈ lines, line.isOrg = false ∧
      ∀ address, give' line (address + distance) = give line address) (counter : Word) :
    policy.collect target' give' (counter + distance) lines =
      policy.collect target give counter lines := by
  induction lines generalizing counter with
  | nil => rfl
  | cons line rest ih =>
      obtain ⟨⟨horg, hgive⟩, hrest⟩ := List.forall_mem_cons.mp h
      rw [collect, collect, hgive, policy.next_add horg (target line), ih hrest]

end BlankLines

/-! ## Symbols that are moved -/

/-- The same name at a distance. -/
def Symbol.move (distance : Word) (s : Symbol) : Symbol :=
  ⟨s.name, s.address + distance⟩

/-- Lines without an `ORG` define the same names at a distance. -/
theorem definitionsFrom_add (policy : BlankLines) {lines : List Line}
    (h : ∀ line ∈ lines, line.isOrg = false) (counter distance : Word) :
    definitionsFrom policy (counter + distance) lines =
      (definitionsFrom policy counter lines).map (Symbol.move distance) := by
  rw [definitionsFrom_eq_collect, definitionsFrom_eq_collect, BlankLines.map_collect]
  apply BlankLines.collect_add
  intro line hline
  refine ⟨h line hline, fun address => ?_⟩
  cases line.symbolName? <;> rfl

/-- The symbols of a second table are those of a first at a distance. -/
def SymbolTable.MovedBy (distance : Word) (first second : SymbolTable) : Prop :=
  ∀ name, second.resolve name = (first.resolve name).map (· + distance)

/-- Definitions that are moved make a table that is moved. -/
theorem SymbolTable.movedBy_ofList (distance : Word) (definitions : List Symbol) :
    MovedBy distance (ofList definitions) (ofList (definitions.map (Symbol.move distance))) := by
  intro name
  have hname : ∀ s ∈ definitions, (s.move distance).name = name ↔ s.name = name :=
    fun _ _ => Iff.rfl
  rw [resolve_ofList_map hname, resolve_ofList, Option.map_map]
  rfl

/-! ## One line -/

/-- Whether an issue is that of an operand that does not fit in 12 bits. -/
def Issue.isOperandOverflow : Issue → Bool
  | operandOverflow _ _ => true
  | _ => false

namespace Line

/-- Whether a line is a memory reference whose operand names a symbol. -/
def referencesSymbol (symbols : SymbolTable) : Line → Bool
  | statement _ (.instruction op (some token) _) =>
    op.takesOperand && (symbols.resolve token).isSome
  | _ => false

/-- Whether a line stores, in hexadecimal, what a symbol stands for. -/
def storesSymbol (symbols : SymbolTable) : Line → Bool
  | statement _ (.data .hex (some token)) => (symbols.resolve token).isSome
  | _ => false

/-- Whether the word of a line is made from the address of a symbol. -/
def holdsAddress (symbols : SymbolTable) (line : Line) : Bool :=
  line.referencesSymbol symbols || line.storesSymbol symbols

/-- What a line comes to, with some symbols and with the same symbols at a distance. -/
inductive MovesTo (distance : Word) (symbols : SymbolTable) (line : Line) :
    Except Fault Outcome → Except Fault Outcome → Prop
  | same {outcome : Except Fault Outcome} (hholds : line.holdsAddress symbols = false) :
      MovesTo distance symbols line outcome outcome
  | word {word : Word} {warning warning' : Option Issue}
      (hholds : line.holdsAddress symbols = true)
      (hwarning : ∀ issue, warning = some issue ∨ warning' = some issue →
        issue.isOperandOverflow = true ∧ line.referencesSymbol symbols = true) :
      MovesTo distance symbols line (.ok (.emitted word warning))
        (.ok (.emitted (word + distance) warning'))

/-- A line that holds no address stays as it is. -/
theorem MovesTo.of_eq {distance : Word} {symbols : SymbolTable} {line : Line}
    {outcome outcome' : Except Fault Outcome} (hholds : line.holdsAddress symbols = false)
    (h : outcome' = outcome) : MovesTo distance symbols line outcome outcome' :=
  h ▸ .same hholds

end Line

/-- The word of a reference moves with the operand. -/
theorem ofNat_referenceSum_add (op : Opcode) (address distance : Word) (indirect : Bool) :
    BitVec.ofNat 16 (referenceSum op (address + distance).toNat indirect) =
      BitVec.ofNat 16 (referenceSum op address.toNat indirect) + distance := by
  apply BitVec.eq_of_toNat_eq
  unfold referenceSum
  rw [BitVec.toNat_ofNat, BitVec.toNat_add, BitVec.toNat_add, BitVec.toNat_ofNat]
  omega

namespace Line

variable {distance : Word} {first second : SymbolTable}

/-- A line whose operand names no symbol is not moved. -/
theorem movesTo_of_unresolved (h : first.MovedBy distance second) {line : Line}
    (hnone : ∀ token, line.operand? = some token → first.resolve token = none) :
    line.MovesTo distance first (line.outcome first) (line.outcome second) := by
  apply MovesTo.of_eq
  · unfold holdsAddress referencesSymbol storesSymbol
    split
    · simp [hnone _ rfl]
    · split
      · simp [hnone _ rfl]
      · rfl
  · apply outcome_congr
    intro token htoken
    rw [h, hnone token htoken]
    rfl

/-- A memory reference to a symbol moves. -/
theorem movesTo_reference (h : first.MovedBy distance second) {label : Option String} {op : Opcode}
    {token : String} {indirect : Bool} {address : Word} (htakes : op.takesOperand = true)
    (haddress : first.resolve token = some address) :
    (statement label (.instruction op (some token) indirect)).MovesTo distance first
      ((statement label (.instruction op (some token) indirect)).outcome first)
      ((statement label (.instruction op (some token) indirect)).outcome second) := by
  have hmoved : second.resolve token = some (address + distance) := by
    rw [h, haddress]
    rfl
  have hreferences :
      (statement label (.instruction op (some token) indirect)).referencesSymbol first = true := by
    simp [referencesSymbol, htakes, haddress]
  have hoverflow : ∀ (number : Nat) (issue : Issue),
      (if 0xFFF < number then some (Issue.operandOverflow op.mnemonic number) else none) =
        some issue → issue.isOperandOverflow = true := by
    intro number issue hissue
    split at hissue
    · cases hissue
      rfl
    · simp at hissue
  rw [outcome_reference_of_address htakes haddress, outcome_reference_of_address htakes hmoved,
    ofNat_referenceSum_add]
  apply MovesTo.word
  · simp [holdsAddress, hreferences]
  · intro issue hissue
    refine ⟨?_, hreferences⟩
    rcases hissue with hissue | hissue
    · exact hoverflow _ issue hissue
    · exact hoverflow _ issue hissue

/-- A symbol that is stored in hexadecimal moves. -/
theorem movesTo_hex (h : first.MovedBy distance second) {label : Option String} {token : String}
    {address : Word} (haddress : first.resolve token = some address) :
    (statement label (.data .hex (some token))).MovesTo distance first
      ((statement label (.data .hex (some token))).outcome first)
      ((statement label (.data .hex (some token))).outcome second) := by
  have hmoved : second.resolve token = some (address + distance) := by
    rw [h, haddress]
    rfl
  rw [outcome_hex_of_address haddress, outcome_hex_of_address hmoved]
  apply MovesTo.word
  · simp [holdsAddress, storesSymbol, haddress]
  · simp

/-- **A line when its symbols move**: its outcome is the same, or its word moves with them. -/
theorem movesTo_of_movedBy (h : first.MovedBy distance second) {line : Line}
    (horg : line.isOrg = false)
    (hdecimal : ∀ label token, line = .statement label (.data .decimal (some token)) →
      first.resolve token = none) :
    line.MovesTo distance first (line.outcome first) (line.outcome second) := by
  by_cases hnone : ∀ token, line.operand? = some token → first.resolve token = none
  · exact movesTo_of_unresolved h hnone
  · simp only [not_forall] at hnone
    obtain ⟨token, htoken, hsome⟩ := hnone
    obtain ⟨address, haddress⟩ := Option.ne_none_iff_exists'.mp hsome
    cases line with
    | blank => exact .same rfl
    | labelOnly label => exact .same rfl
    | statement label body =>
        cases body with
        | org operand => exact absurd horg (by simp [isOrg])
        | stop => exact .same rfl
        | unknown mnemonic operand => exact .same rfl
        | data radix operand =>
            cases htoken
            cases radix with
            | decimal => exact absurd (hdecimal label token rfl) hsome
            | hex => exact movesTo_hex h haddress
        | instruction op operand indirect =>
            cases htoken
            cases htakes : op.takesOperand with
            | true => exact movesTo_reference h htakes haddress
            | false =>
                apply MovesTo.of_eq
                · simp [holdsAddress, referencesSymbol, storesSymbol, htakes]
                · rw [outcome_plain htakes, outcome_plain htakes]
                  rfl

/-! ## What follows for the views of an outcome -/

variable {line : Line}

/-- A line that is moved has an outcome exactly when it had one. -/
theorem ok_iff_of_movesTo
    (h : line.MovesTo distance first (line.outcome first) (line.outcome second)) :
    (∃ outcome, line.outcome second = .ok outcome) ↔
      ∃ outcome, line.outcome first = .ok outcome := by
  generalize line.outcome first = result at h ⊢
  generalize line.outcome second = result' at h ⊢
  cases h with
  | same hholds => exact Iff.rfl
  | word hholds hwarning => simp

/-- The word of a line moves exactly when it is made from an address. -/
theorem word?_of_movesTo
    (h : line.MovesTo distance first (line.outcome first) (line.outcome second)) :
    line.word? second =
      (line.word? first).map fun word =>
        if line.holdsAddress first then word + distance else word := by
  unfold word?
  generalize line.outcome first = result at h ⊢
  generalize line.outcome second = result' at h ⊢
  cases h with
  | same hholds => simp [hholds]
  | word hholds hwarning => simp [hholds, Except.toOption, Outcome.word?]

/-- The issue of a line is the same, unless it is that of an address which does not fit. -/
theorem issue?_of_movesTo
    (h : line.MovesTo distance first (line.outcome first) (line.outcome second)) :
    ((line.issue? second).filter fun issue =>
        !(issue.isOperandOverflow && line.referencesSymbol first)) =
      (line.issue? first).filter fun issue =>
        !(issue.isOperandOverflow && line.referencesSymbol first) := by
  unfold issue?
  generalize line.outcome first = result at h ⊢
  generalize line.outcome second = result' at h ⊢
  cases h with
  | same hholds => rfl
  | @word word warning warning' hholds hwarning =>
      have hnone : ∀ {issue? : Option Issue}, (∀ issue, issue? = some issue →
          issue.isOperandOverflow = true ∧ line.referencesSymbol first = true) →
          (issue?.filter fun issue =>
            !(issue.isOperandOverflow && line.referencesSymbol first)) = none := by
        intro issue? hissue
        rw [Option.filter_eq_none_iff]
        intro issue hsome
        simp [hissue issue hsome]
      show warning'.filter _ = warning.filter _
      rw [hnone fun issue h => hwarning issue (.inl h),
        hnone fun issue h => hwarning issue (.inr h)]

end Line

/-! ## Entries with their lines -/

/-- The words of lines that start at `counter`, each at its address and with its line. -/
def linedEntriesFrom (policy : BlankLines) (symbols : SymbolTable) (counter : Word)
    (lines : List Line) : List (Line × Entry) :=
  policy.collect (Line.resolvedTarget? symbols)
    (fun line address => (line.word? symbols).map fun word => (line, ⟨address, word⟩)) counter lines

/-- Without their lines these are the entries. -/
theorem map_snd_linedEntriesFrom (policy : BlankLines) (symbols : SymbolTable) (counter : Word)
    (lines : List Line) :
    (linedEntriesFrom policy symbols counter lines).map Prod.snd =
      entriesFrom policy symbols counter lines := by
  simp only [linedEntriesFrom, BlankLines.map_collect, Option.map_map]
  rfl

/-- An entry at a distance: its address moves, and its word if it is made from an address. -/
def Line.moveEntry (distance : Word) (symbols : SymbolTable) (line : Line) (e : Entry) : Entry :=
  ⟨e.address + distance, if line.holdsAddress symbols then e.value + distance else e.value⟩

/-- **The entries of lines whose symbols move** are the entries at a distance. -/
theorem entriesFrom_add (policy : BlankLines) {distance : Word} {first second : SymbolTable}
    {lines : List Line} (h : ∀ line ∈ lines, line.isOrg = false ∧
      line.MovesTo distance first (line.outcome first) (line.outcome second)) (counter : Word) :
    entriesFrom policy second (counter + distance) lines =
      (linedEntriesFrom policy first counter lines).map fun p =>
        p.1.moveEntry distance first p.2 := by
  rw [linedEntriesFrom, BlankLines.map_collect, entriesFrom]
  apply BlankLines.collect_add
  intro line hline
  obtain ⟨horg, hmoves⟩ := h line hline
  refine ⟨horg, fun address => ?_⟩
  rw [Line.word?_of_movesTo hmoves, Option.map_map, Option.map_map]
  rfl

/-! ## The `ORG` in front -/

/-- A source behind an `ORG` line is that line and its own lines. -/
theorem sourceLines_org {token : String} (h : Text.IsToken token) (body : String) :
    sourceLines ("ORG " ++ token ++ "\n" ++ body) = orgLine token :: sourceLines body := by
  have htokens : ∀ piece ∈ ["ORG", token], Text.IsToken piece := by
    simp only [List.forall_mem_cons, List.not_mem_nil, false_implies, implies_true, and_true]
    exact ⟨by decide, h⟩
  have hline : "ORG " ++ token = "" ++ " ".intercalate ["ORG", token] := by
    rw [String.empty_append, String.intercalate_cons_cons, String.intercalate_singleton]
    rfl
  have hmnemonic : Line.labelOfToken? "ORG" = none := by decide +kernel
  rw [sourceLines, hline, Text.lines_append_feed (Text.isLine_append_intercalate (by simp) htokens),
    List.map_cons, Line.parse, String.empty_append, Text.tokens_intercalate htokens,
    Line.ofTokens_of_labelOfToken? hmnemonic]
  rfl

/-- An `ORG` line in front belongs to the program. -/
theorem program_orgLine (token : String) (body : List Line) :
    program (orgLine token :: body) = orgLine token :: program body :=
  rfl

section Origin

variable {policy : BlankLines} {token : String} {start : Word} {body : List Line}

/-- The lines behind an `ORG` get their addresses from there. -/
theorem definitions_orgLine (h : Numeral.word? token = some start) :
    definitions policy (orgLine token :: body) = definitionsFrom policy start body := by
  have hnext : policy.next (orgLine token) (orgLine token).literalTarget? 0 = start := by
    show ((some token).bind Numeral.word?).getD 0 = start
    rw [Option.bind_some, h]
    rfl
  rw [definitions, definitionsFrom, hnext]
  rfl

/-- An `ORG` with a number that is no symbol has nothing to report. -/
theorem issuesAt_orgLine_zero {symbols : SymbolTable} (h : Numeral.word? token = some start)
    (hname : symbols.resolve token = none) : issuesAt symbols (orgLine token :: body) 0 = [] := by
  have hissue : (orgLine token).issue? symbols = none :=
    Line.issue?_of_outcome (outcome_orgLine h hname)
  show (none : Option Issue).toList ++ ((orgLine token).issue? symbols).toList = []
  rw [hissue]
  rfl

/-- A name that the lines do not define stands for nothing behind an `ORG` either. -/
theorem resolve_orgLine_eq_none (policy : BlankLines) (token : String) {name : String}
    (h : ∀ line ∈ body, line.symbolName? ≠ some name) :
    (symbolsOf policy (orgLine token :: body)).resolve name = none := by
  apply resolve_symbolsOf_eq_none
  intro line hline
  rcases List.mem_cons.mp hline with rfl | hbody
  · exact nofun
  · exact h line hbody

end Origin

/-! ## One program at two places -/

/-- The distance between two addresses leads from one to the other. -/
theorem Word.add_sub_self (start target : Word) : start + (target - start) = target := by
  rw [BitVec.add_comm, BitVec.sub_add_cancel]

/-- The lines of a program without an `ORG`, and two numbers to put it behind. -/
structure Relocation (a b : String) (start target : Word) (body : List Line) : Prop where
  start_eq : Numeral.word? a = some start
  target_eq : Numeral.word? b = some target
  isOrg_eq : ∀ line ∈ body, line.isOrg = false
  ne_start : ∀ line ∈ body, line.symbolName? ≠ some a
  ne_target : ∀ line ∈ body, line.symbolName? ≠ some b
  /-- No operand in decimal names a label. -/
  ne_decimal : ∀ label token, .statement label (.data .decimal (some token)) ∈ program body →
    ∀ line ∈ body, line.symbolName? ≠ some token

/-- Whether a diagnostic is about an address that does not fit, on a line that refers to a
symbol. -/
def Diagnostic.isAddressOverflow (symbols : SymbolTable) (lines : List Line) (d : Diagnostic) :
    Bool :=
  d.issue.isOperandOverflow && lines[d.line - 1]?.any (Line.referencesSymbol symbols)

namespace Relocation

variable {a b : String} {start target : Word} {body : List Line}
  (r : Relocation a b start target body) (policy : BlankLines)

include r

/-- All definitions are moved. -/
theorem definitions_eq :
    definitions policy (orgLine b :: body) =
      (definitions policy (orgLine a :: body)).map (Symbol.move (target - start)) := by
  rw [definitions_orgLine r.start_eq, definitions_orgLine r.target_eq,
    ← definitionsFrom_add policy r.isOrg_eq, Word.add_sub_self]

/-- The symbol table is moved. -/
theorem movedBy :
    (symbolsOf policy (orgLine a :: body)).MovedBy (target - start)
      (symbolsOf policy (orgLine b :: body)) := by
  rw [symbolsOf, symbolsOf, r.definitions_eq]
  exact SymbolTable.movedBy_ofList _ _

/-- The operand of the first `ORG` is no symbol. -/
theorem resolve_start : (symbolsOf policy (orgLine a :: body)).resolve a = none :=
  resolve_orgLine_eq_none policy a r.ne_start

/-- Neither is the operand that replaces it. -/
theorem resolve_target : (symbolsOf policy (orgLine b :: body)).resolve b = none :=
  resolve_orgLine_eq_none policy b r.ne_target

/-- Every line of the program is moved. -/
theorem movesTo {line : Line} (h : line ∈ program body) :
    line.MovesTo (target - start) (symbolsOf policy (orgLine a :: body))
      (line.outcome (symbolsOf policy (orgLine a :: body)))
      (line.outcome (symbolsOf policy (orgLine b :: body))) := by
  apply Line.movesTo_of_movedBy (r.movedBy policy) (r.isOrg_eq line (mem_of_mem_program h))
  rintro label token rfl
  exact resolve_orgLine_eq_none policy a (r.ne_decimal label token h)

/-- Both programs have an assembly, or neither has one. -/
theorem ok_iff :
    (∀ line ∈ program (orgLine b :: body),
        ∃ outcome, line.outcome (symbolsOf policy (orgLine b :: body)) = .ok outcome) ↔
      ∀ line ∈ program (orgLine a :: body),
        ∃ outcome, line.outcome (symbolsOf policy (orgLine a :: body)) = .ok outcome := by
  have hstart := outcome_orgLine r.start_eq (r.resolve_start policy)
  have htarget := outcome_orgLine r.target_eq (r.resolve_target policy)
  simp only [program_orgLine, List.forall_mem_cons, hstart, htarget]
  apply and_congr
  · simp
  · exact forall₂_congr fun line hline => Line.ok_iff_of_movesTo (r.movesTo policy hline)

/-- The listing moves entry by entry. -/
theorem entries_eq :
    entriesFrom policy (symbolsOf policy (orgLine b :: body)) 0 (program (orgLine b :: body)) =
      (linedEntriesFrom policy (symbolsOf policy (orgLine a :: body)) 0
        (program (orgLine a :: body))).map fun p =>
          p.1.moveEntry (target - start) (symbolsOf policy (orgLine a :: body)) p.2 := by
  have hmoves : ∀ line ∈ program body, line.isOrg = false ∧
      line.MovesTo (target - start) (symbolsOf policy (orgLine a :: body))
        (line.outcome (symbolsOf policy (orgLine a :: body)))
        (line.outcome (symbolsOf policy (orgLine b :: body))) := by
    intro line hline
    exact ⟨r.isOrg_eq line (mem_of_mem_program hline), r.movesTo policy hline⟩
  have hfirst : linedEntriesFrom policy (symbolsOf policy (orgLine a :: body)) 0
      (program (orgLine a :: body)) =
        linedEntriesFrom policy (symbolsOf policy (orgLine a :: body)) start (program body) := by
    apply collect_orgLine_cons r.start_eq (r.resolve_start policy)
    rw [Line.word?_of_outcome (outcome_orgLine r.start_eq (r.resolve_start policy))]
    rfl
  have hsecond : entriesFrom policy (symbolsOf policy (orgLine b :: body)) 0
      (program (orgLine b :: body)) =
        entriesFrom policy (symbolsOf policy (orgLine b :: body)) target (program body) := by
    apply collect_orgLine_cons r.target_eq (r.resolve_target policy)
    rw [Line.word?_of_outcome (outcome_orgLine r.target_eq (r.resolve_target policy))]
    rfl
  rw [hfirst, hsecond, ← entriesFrom_add policy hmoves, Word.add_sub_self]

/-- The issues of a line are the same, unless they are about an address that does not fit. -/
theorem filter_issuesAt_eq (i : Nat) :
    ((issuesAt (symbolsOf policy (orgLine b :: body)) body i).filter fun issue =>
        !(issue.isOperandOverflow &&
          body[i]?.any (Line.referencesSymbol (symbolsOf policy (orgLine a :: body))))) =
      (issuesAt (symbolsOf policy (orgLine a :: body)) body i).filter fun issue =>
        !(issue.isOperandOverflow &&
          body[i]?.any (Line.referencesSymbol (symbolsOf policy (orgLine a :: body)))) := by
  unfold issuesAt
  rw [List.filter_append, List.filter_append]
  congr 1
  cases hline : (program body)[i]? with
  | none => rfl
  | some line =>
      have hbody : body[i]? = some line := (getElem?_program_eq_some_iff.mp hline).1
      have hmoves := r.movesTo policy (List.mem_of_getElem? hline)
      simp only [hbody, Option.bind_some, Option.any_some, ← Option.toList_filter]
      rw [Line.issue?_of_movesTo hmoves]

/-- The reports are the same, unless they are about an address that does not fit. -/
theorem filter_lineReports_eq :
    ((lineReports (symbolsOf policy (orgLine b :: body)) (orgLine b :: body)).filter fun d =>
        !d.isAddressOverflow (symbolsOf policy (orgLine a :: body)) (orgLine a :: body)) =
      (lineReports (symbolsOf policy (orgLine a :: body)) (orgLine a :: body)).filter fun d =>
        !d.isAddressOverflow (symbolsOf policy (orgLine a :: body)) (orgLine a :: body) := by
  rw [filter_lineReports, filter_lineReports, List.length_cons, List.length_cons]
  refine List.flatMap_congr fun i _ => congrArg (Diagnostic.ofIssues (i + 1)) ?_
  cases i with
  | zero =>
      rw [issuesAt_orgLine_zero r.start_eq (r.resolve_start policy),
        issuesAt_orgLine_zero r.target_eq (r.resolve_target policy)]
  | succ i => exact r.filter_issuesAt_eq policy i

end Relocation

/-- The lines of a listing: the lines in front of the end that come to a word, each with its
entry. -/
def linedEntries (policy : BlankLines) (lines : List Line) : List (Line × Entry) :=
  linedEntriesFrom policy (symbolsOf policy lines) 0 (program lines)

/-- **A program at another place.** The same lines without an `ORG` are put behind `ORG a` and
behind `ORG b`, where `a` and `b` are numbers and no labels of these lines, and no line in front of
the end stores a label in decimal. Either both texts are without an assembly, or both have one.
Then the symbols and the entries of the second are those of the first, one by one, at the distance
from `a` to `b`; so is the word of an entry if its line is a memory reference or a `HEX` whose
operand names a symbol, and any other word is the same; and the diagnostics are the same, except
for those of operands that do not fit, on lines that refer to a symbol. -/
theorem relocated_programs_correspond (policy : BlankLines) (a b body : String)
    {start target : Word} (ha : Numeral.word? a = some start) (hb : Numeral.word? b = some target)
    (horg : ∀ line ∈ sourceLines body, line.isOrg = false)
    (hnames : ∀ line ∈ sourceLines body, line.symbolName? ≠ some a ∧ line.symbolName? ≠ some b)
    (hdecimal : ∀ label token,
      .statement label (.data .decimal (some token)) ∈ program (sourceLines body) →
        ∀ line ∈ sourceLines body, line.symbolName? ≠ some token) :
    (∃ fault, assemble policy ("ORG " ++ a ++ "\n" ++ body) = .error fault ∧
        assemble policy ("ORG " ++ b ++ "\n" ++ body) = .error fault) ∨
      ∃ x y, assemble policy ("ORG " ++ a ++ "\n" ++ body) = .ok x ∧
        assemble policy ("ORG " ++ b ++ "\n" ++ body) = .ok y ∧
        y.symbols.toList = x.symbols.toList.map (fun s => ⟨s.name, s.address + (target - start)⟩) ∧
        x.listing.entries =
          (linedEntries policy (sourceLines ("ORG " ++ a ++ "\n" ++ body))).map Prod.snd ∧
        y.listing.entries =
          (linedEntries policy (sourceLines ("ORG " ++ a ++ "\n" ++ body))).map (fun p =>
            ⟨p.2.address + (target - start),
              if p.1.referencesSymbol x.symbols || p.1.storesSymbol x.symbols then
                p.2.value + (target - start) else p.2.value⟩) ∧
        (y.diagnostics.filter fun d =>
            !d.isAddressOverflow x.symbols (sourceLines ("ORG " ++ a ++ "\n" ++ body))) =
          x.diagnostics.filter fun d =>
            !d.isAddressOverflow x.symbols (sourceLines ("ORG " ++ a ++ "\n" ++ body)) := by
  have r : Relocation a b start target (sourceLines body) :=
    { start_eq := ha
      target_eq := hb
      isOrg_eq := horg
      ne_start := fun line hline => (hnames line hline).1
      ne_target := fun line hline => (hnames line hline).2
      ne_decimal := hdecimal }
  unfold assemble
  rw [sourceLines_org (Numeral.isToken_of_word? ha), sourceLines_org (Numeral.isToken_of_word? hb)]
  by_cases hall : ∀ line ∈ program (orgLine a :: sourceLines body),
      ∃ outcome, line.outcome (symbolsOf policy (orgLine a :: sourceLines body)) = .ok outcome
  · have hx := assembleLines_eq_ok_iff.mpr ⟨hall, rfl⟩
    have hy := assembleLines_eq_ok_iff.mpr ⟨(r.ok_iff policy).mpr hall, rfl⟩
    refine .inr ⟨_, _, hx, hy, ?_, ?_, ?_, ?_⟩
    · show (symbolsOf policy _).toList = (symbolsOf policy _).toList.map _
      rw [symbolsOf, symbolsOf, SymbolTable.toList_ofList, SymbolTable.toList_ofList]
      exact r.definitions_eq policy
    · rw [linedEntries, map_snd_linedEntriesFrom, entriesFrom_program]
    · rw [← entriesFrom_program]
      exact r.entries_eq policy
    · rw [diagnostics_eq_lineReports hx, diagnostics_eq_lineReports hy]
      exact r.filter_lineReports_eq policy
  · have hall' := mt (r.ok_iff policy).mp hall
    exact .inl ⟨.additionOverflow, assembleLines_eq_error_of_not_forall hall,
      assembleLines_eq_error_of_not_forall hall'⟩

/-- The second place lies behind the greatest address for the label that counts, so another line has
the warning there. The number that `BUN` goes to stays. -/
theorem relocated_programs_correspond_across_wrapping :
    let body := " LDA NUM I\nSUM, STA SUM\n HEX NUM\n BUN 3\nNUM, DEC 12\n END\nNUM, CLA\n"
    assemble .advance ("ORG FFB" ++ "\n" ++ body) = .ok {
        listing := ⟨[⟨0x0FFB, 0xB001⟩, ⟨0x0FFC, 0x3FFC⟩, ⟨0x0FFD, 0x1001⟩, ⟨0x0FFE, 0x4003⟩,
          ⟨0x0FFF, 0x000C⟩]⟩
        symbols := .ofList [⟨"SUM", 0x0FFC⟩, ⟨"NUM", 0x0FFF⟩, ⟨"NUM", 0x1001⟩]
        diagnostics := [⟨2, .operandOverflow "LDA" 0x1001⟩] } ∧
      ∃ y, assemble .advance ("ORG FFFB" ++ "\n" ++ body) = .ok y ∧
        y.symbols.toList = [⟨"SUM", 0xFFFC⟩, ⟨"NUM", 0xFFFF⟩, ⟨"NUM", 0x0001⟩] ∧
        y.listing.entries = [⟨0xFFFB, 0xA001⟩, ⟨0xFFFC, 0x2FFC⟩, ⟨0xFFFD, 0x0001⟩,
          ⟨0xFFFE, 0x4003⟩, ⟨0xFFFF, 0x000C⟩] ∧
        y.diagnostics = [⟨3, .operandOverflow "STA" 0xFFFC⟩] := by
  intro body
  have hlines : sourceLines body =
      [.statement none (.instruction .lda (some "NUM") true),
        .statement (some "SUM") (.instruction .sta (some "SUM") false),
        .statement none (.data .hex (some "NUM")),
        .statement none (.instruction .bun (some "3") false),
        .statement (some "NUM") (.data .decimal (some "12")),
        .statement none .stop,
        .statement (some "NUM") (.instruction .cla none false)] := by
    decide +kernel
  have hstart : Numeral.word? "FFB" = some 0x0FFB := by decide +kernel
  have htarget : Numeral.word? "FFFB" = some 0xFFFB := by decide +kernel
  have hfirst := sourceLines_org (Numeral.isToken_of_word? hstart) body
  have hsecond := sourceLines_org (Numeral.isToken_of_word? htarget) body
  have hx : assemble .advance ("ORG " ++ "FFB" ++ "\n" ++ body) = .ok {
      listing := ⟨[⟨0x0FFB, 0xB001⟩, ⟨0x0FFC, 0x3FFC⟩, ⟨0x0FFD, 0x1001⟩, ⟨0x0FFE, 0x4003⟩,
        ⟨0x0FFF, 0x000C⟩]⟩
      symbols := .ofList [⟨"SUM", 0x0FFC⟩, ⟨"NUM", 0x0FFF⟩, ⟨"NUM", 0x1001⟩]
      diagnostics := [⟨2, .operandOverflow "LDA" 0x1001⟩] } := by
    rw [assemble, hfirst, hlines]
    decide +kernel
  have hreports : (assemble .advance ("ORG " ++ "FFFB" ++ "\n" ++ body)).map (·.diagnostics) =
      .ok [⟨3, .operandOverflow "STA" 0xFFFC⟩] := by
    rw [assemble, hsecond, hlines]
    decide +kernel
  have hdecimal : ∀ label token,
      .statement label (.data .decimal (some token)) ∈ program (sourceLines body) →
        ∀ line ∈ sourceLines body, line.symbolName? ≠ some token := by
    rw [hlines]
    intro label token hmem
    have htoken : label = some "NUM" ∧ token = "12" := by
      simpa [program, Line.isStop] using hmem
    rw [htoken.2]
    decide
  refine ⟨hx, ?_⟩
  rcases relocated_programs_correspond .advance "FFB" "FFFB" body hstart htarget
    (by rw [hlines]; decide) (by rw [hlines]; decide) hdecimal with
      ⟨fault, hfault, -⟩ | ⟨x, y, hx', hy, hsymbols, -, hentries, -⟩
  · rw [hx] at hfault
    exact absurd hfault (by simp)
  · cases hx.symm.trans hx'
    refine ⟨y, hy, ?_, ?_, ?_⟩
    · rw [hsymbols]
      decide +kernel
    · rw [hentries, hfirst, hlines]
      decide +kernel
    · rw [hy] at hreports
      exact Except.ok.inj hreports

end BasicComputer
