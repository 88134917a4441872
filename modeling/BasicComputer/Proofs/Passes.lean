import Mathlib.Data.List.Basic
import BasicComputer.Assembly.Basic
import BasicComputer.Proofs.Outcomes

/-!
# The two passes, line by line

Both passes thread a location counter through the lines, and both put what a line gives at the
value of the counter in front of that line. This module says so once, for a walk with any rule
for `ORG` lines (`BlankLines.collect`), and then reads an assembly off its lines:

* **The counter** (`BlankLines.behind`): its value behind some lines. `definitionsFrom_append` and
  `emitFrom_append` say that a pass over more lines goes on with exactly this value.
* **The symbols** (`toList_symbolsOf`): the definitions in order, one for each line that has one,
  where `definitionAt?` is the definition of the line with a given index.
* **The listing** (`assembleLines_eq_ok_iff`): the entries in order, one for each line in front of
  the end that emits a word, where `entryAt?` is the entry of the line with a given index.
* **Changed lines** (`emitFrom_map`): a second pass over lines that are changed one by one, with
  their numbers and the words of their issues, is the same pass with changed reports.
* **The reports** (`mem_diagnostics_iff`): a diagnostic of an assembly is the label issue of its
  line or the issue that the second pass found there.

An index counts from 0, so line `i` has number `i + 1`, and `lines.take i` are the lines in front
of it.
-/

namespace BasicComputer

variable {β : Type}

/-! ## The location counter -/

namespace BlankLines

/-- The location counter behind some lines, where `target` says where an `ORG` line moves it. -/
def behind (policy : BlankLines) (target : Line → Option Word) (counter : Word)
    (lines : List Line) : Word :=
  lines.foldl (fun counter line => policy.next line (target line) counter) counter

variable (policy : BlankLines) (target : Line → Option Word)

/-- Behind no lines the counter is where it was. -/
@[simp] theorem behind_nil (counter : Word) : policy.behind target counter [] = counter := rfl

/-- The counter is moved by the first line and then by the others. -/
@[simp] theorem behind_cons (counter : Word) (line : Line) (rest : List Line) :
    policy.behind target counter (line :: rest) =
      policy.behind target (policy.next line (target line) counter) rest := rfl

/-- The counter is moved by the front and then by the rest. -/
theorem behind_append (counter : Word) (front rest : List Line) :
    policy.behind target counter (front ++ rest) =
      policy.behind target (policy.behind target counter front) rest :=
  List.foldl_append

/-- The counter behind one more line. -/
theorem behind_concat (counter : Word) (front : List Line) (line : Line) :
    policy.behind target counter (front ++ [line]) =
      policy.next line (target line) (policy.behind target counter front) := by
  rw [behind_append]
  rfl

/-! ## A walk over the lines -/

/-- What the lines give in a walk that starts at `counter`, each at its own address. -/
def collect (give : Line → Word → Option β) : Word → List Line → List β
  | _, [] => []
  | counter, line :: rest =>
    (give line counter).toList ++ collect give (policy.next line (target line) counter) rest

/-- What lines give is what the front gives and, from the counter behind it, the rest. -/
theorem collect_append (give : Line → Word → Option β) (counter : Word) (front rest : List Line) :
    policy.collect target give counter (front ++ rest) =
      policy.collect target give counter front ++
        policy.collect target give (policy.behind target counter front) rest := by
  induction front generalizing counter with
  | nil => rfl
  | cons line front ih =>
      rw [List.cons_append, collect, collect, ih, behind_cons, List.append_assoc]

/-- A function of what lines give can be taken line by line. -/
theorem map_collect {γ : Type} (f : β → γ) (give : Line → Word → Option β) (counter : Word)
    (lines : List Line) :
    (policy.collect target give counter lines).map f =
      policy.collect target (fun line address => (give line address).map f) counter lines := by
  induction lines generalizing counter with
  | nil => rfl
  | cons line rest ih =>
      rw [collect, collect, List.map_append, ih, Option.toList_map]

/-- **A walk by index**: line `i` gives what it has at the counter behind the lines in front. -/
theorem collect_eq_filterMap (give : Line → Word → Option β) (counter : Word)
    (lines : List Line) :
    policy.collect target give counter lines =
      (List.range lines.length).filterMap fun i =>
        lines[i]?.bind fun line => give line (policy.behind target counter (lines.take i)) := by
  induction lines generalizing counter with
  | nil => rfl
  | cons line rest ih =>
      rw [collect, ih, List.length_cons, List.range_succ_eq_map, List.filterMap_cons,
        List.filterMap_map]
      show _ = match give line counter with
        | none => _
        | some b => b :: _
      cases give line counter <;> rfl

end BlankLines

/-! ## The first pass -/

/-- A line defines its label when it is no `ORG` and the label has three characters. -/
theorem Line.symbolName?_eq_bind (line : Line) :
    line.symbolName? =
      line.label?.bind fun label =>
        if line.isOrg = false ∧ label.length = 3 then some label else none := by
  unfold symbolName? placedLabel?
  cases line.isOrg with
  | true => cases line.label? <;> simp
  | false =>
      cases line.label? with
      | none => rfl
      | some label =>
          by_cases hlength : label.length = 3 <;>
            simp [Option.filter_some, isSymbolName, labelLength, hlength]

/-- A line that defines a symbol has its name of three characters as a label. -/
theorem Line.symbolName?_eq_some {line : Line} {name : String} (h : line.symbolName? = some name) :
    line.label? = some name ∧ name.length = 3 := by
  rw [symbolName?_eq_bind] at h
  obtain ⟨label, hlabel, hname⟩ := Option.bind_eq_some_iff.mp h
  split at hname
  · next hif =>
    cases hname
    exact ⟨hlabel, hif.2⟩
  · exact absurd hname (by simp)

/-- The location counter of the first pass at line `i`. -/
def firstCounter (policy : BlankLines) (lines : List Line) (i : Nat) : Word :=
  policy.behind Line.literalTarget? 0 (lines.take i)

/-- The definition that line `i` makes, if it makes one. -/
def definitionAt? (policy : BlankLines) (lines : List Line) (i : Nat) : Option Symbol :=
  lines[i]?.bind fun line => line.symbolName?.map (⟨·, firstCounter policy lines i⟩)

/-- Definitions are what lines give in the first pass. -/
theorem definitionsFrom_eq_collect (policy : BlankLines) (counter : Word) (lines : List Line) :
    definitionsFrom policy counter lines =
      policy.collect Line.literalTarget? (fun line address => line.symbolName?.map (⟨·, address⟩))
        counter lines := by
  induction lines generalizing counter with
  | nil => rfl
  | cons line rest ih => rw [definitionsFrom, BlankLines.collect, ih]

/-- The first pass goes on behind some lines with the counter behind them. -/
theorem definitionsFrom_append (policy : BlankLines) (counter : Word) (front rest : List Line) :
    definitionsFrom policy counter (front ++ rest) =
      definitionsFrom policy counter front ++
        definitionsFrom policy (policy.behind Line.literalTarget? counter front) rest := by
  simp only [definitionsFrom_eq_collect, BlankLines.collect_append]

/-- The names that are defined do not depend on addresses. -/
theorem map_name_definitionsFrom (policy : BlankLines) (counter : Word) (lines : List Line) :
    (definitionsFrom policy counter lines).map (·.name) = lines.filterMap Line.symbolName? := by
  induction lines generalizing counter with
  | nil => rfl
  | cons line rest ih =>
      rw [definitionsFrom, List.map_append, ih, List.filterMap_cons]
      cases line.symbolName? <;> rfl

/-- The definitions of a source, each from the line at its place. -/
theorem definitions_eq_filterMap (policy : BlankLines) (lines : List Line) :
    definitions policy lines =
      (List.range lines.length).filterMap (definitionAt? policy lines) := by
  rw [definitions, definitionsFrom_eq_collect, BlankLines.collect_eq_filterMap]
  rfl

/-- A table with one more definition at the end. -/
theorem SymbolTable.ofList_concat (front : List Symbol) (last : Symbol) :
    SymbolTable.ofList (front ++ [last]) =
      (SymbolTable.ofList front).define last.name last.address := by
  unfold SymbolTable.ofList
  rw [List.foldl_concat]

/-- A table of definitions reports them as they were made. -/
theorem SymbolTable.toList_ofList (definitions : List Symbol) :
    (SymbolTable.ofList definitions).toList = definitions := by
  suffices hfold : ∀ (t : SymbolTable),
      (definitions.foldl (fun t s => t.define s.name s.address) t).toList =
        t.toList ++ definitions by
    exact hfold .empty
  induction definitions with
  | nil => intro t; simp
  | cons s rest ih =>
      intro t
      rw [List.foldl_cons, ih, SymbolTable.toList_define, List.append_assoc]
      rfl

/-- **The symbols of a program**: one definition for each line that makes one, in order. -/
theorem toList_symbolsOf (policy : BlankLines) (lines : List Line) :
    (symbolsOf policy lines).toList =
      (List.range lines.length).filterMap (definitionAt? policy lines) := by
  rw [symbolsOf, SymbolTable.toList_ofList, definitions_eq_filterMap]

/-! ## The second pass -/

/-- The lines that belong to the program: those in front of its end. -/
def program (lines : List Line) : List Line :=
  lines.takeWhile fun line => !line.isStop

/-- The lines of the program are lines of the source. -/
theorem mem_of_mem_program {lines : List Line} {line : Line} (h : line ∈ program lines) :
    line ∈ lines :=
  (List.takeWhile_sublist _).subset h

/-- The second pass reaches the lines of the program under their numbers. -/
theorem reached_numbered (lines : List Line) :
    reached (numbered lines) = numbered (program lines) := by
  suffices hshift : ∀ k, (lines.zipIdx k).takeWhile (fun p => !p.1.isStop) =
      (lines.takeWhile fun line => !line.isStop).zipIdx k by
    exact hshift 1
  induction lines with
  | nil => intro k; rfl
  | cons line rest ih =>
      intro k
      rw [List.zipIdx_cons, List.takeWhile_cons, List.takeWhile_cons, ih]
      show (if !line.isStop then _ else _) = _
      cases line.isStop <;> rfl

/-- Numbering keeps the lines. -/
theorem map_fst_numbered (lines : List Line) : (numbered lines).map Prod.fst = lines :=
  List.zipIdx_map_fst 1 lines

/-- A line has the number of its place, counted from 1. -/
theorem mem_numbered_iff {lines : List Line} {line : Line} {i : Nat} :
    (line, i + 1) ∈ numbered lines ↔ lines[i]? = some line := by
  rw [numbered, Nat.add_comm]
  exact List.mk_add_mem_zipIdx_iff_getElem?

/-- A line belongs to the program when no line up to it ends the program. -/
theorem getElem?_program_eq_some_iff {lines : List Line} {i : Nat} {line : Line} :
    (program lines)[i]? = some line ↔
      lines[i]? = some line ∧ line.isStop = false ∧ ∀ l ∈ lines.take i, l.isStop = false := by
  induction lines generalizing i with
  | nil => simp [program]
  | cons first rest ih =>
      have hcons : program (first :: rest) =
          if first.isStop then [] else first :: program rest := by
        rw [program, List.takeWhile_cons]
        cases first.isStop <;> rfl
      rw [hcons]
      cases hfirst : first.isStop with
      | true =>
          cases i with
          | zero =>
              simp only [if_true, List.getElem?_nil, List.getElem?_cons_zero, Option.some.injEq,
                reduceCtorEq, false_iff]
              rintro ⟨rfl, hstop, -⟩
              rw [hfirst] at hstop
              exact Bool.noConfusion hstop
          | succ i => simp [hfirst]
      | false =>
          cases i with
          | zero =>
              simp only [Bool.false_eq_true, if_false, List.getElem?_cons_zero, Option.some.injEq]
              constructor
              · rintro rfl
                exact ⟨rfl, hfirst, by simp⟩
              · exact fun h => h.1
          | succ i => simp [ih, hfirst]

/-- The line that ends the program emits nothing. -/
theorem Line.not_isStop_of_word? {symbols : SymbolTable} {line : Line} {word : Word}
    (h : line.word? symbols = some word) : line.isStop = false := by
  unfold isStop
  split
  · exact nomatch h
  · rfl

/-- The words of lines that start at `counter`, each at its address. -/
def entriesFrom (policy : BlankLines) (symbols : SymbolTable) (counter : Word)
    (lines : List Line) : List Entry :=
  policy.collect (Line.resolvedTarget? symbols)
    (fun line address => (line.word? symbols).map (⟨address, ·⟩)) counter lines

/-- A walk with the symbols goes on behind an `ORG` where the `ORG` says. -/
theorem collect_orgLine_cons {policy : BlankLines} {symbols : SymbolTable} {token : String}
    {start : Word} {body : List Line} (h : Numeral.word? token = some start)
    (hname : symbols.resolve token = none) {give : Line → Word → Option β} {counter : Word}
    (hgive : give (orgLine token) counter = none) :
    policy.collect (Line.resolvedTarget? symbols) give counter (orgLine token :: body) =
      policy.collect (Line.resolvedTarget? symbols) give start body := by
  have hnext : policy.next (orgLine token) ((orgLine token).resolvedTarget? symbols) counter =
      start := by
    rw [← Line.target?_of_outcome (outcome_orgLine h hname)]
    rfl
  rw [BlankLines.collect, hgive, hnext]
  rfl

/-- What the second pass makes of numbered lines when no line is at fault. -/
def emissionFrom (policy : BlankLines) (symbols : SymbolTable) (counter : Word)
    (lines : List (Line × Nat)) : Emission where
  entries := entriesFrom policy symbols counter (lines.map Prod.fst)
  diagnostics :=
    lines.filterMap fun (line, number) => (line.issue? symbols).map (⟨number, ·⟩)

/-- One line of the second pass adds what its outcome says. -/
theorem emissionFrom_cons {policy : BlankLines} {symbols : SymbolTable} {line : Line}
    {outcome : Outcome} (h : line.outcome symbols = .ok outcome) (counter : Word) (number : Nat)
    (rest : List (Line × Nat)) :
    emissionFrom policy symbols counter ((line, number) :: rest) =
      outcome.prepend counter number
        (emissionFrom policy symbols (policy.next line outcome.target? counter) rest) := by
  rw [Line.target?_of_outcome h]
  unfold emissionFrom entriesFrom Outcome.prepend
  rw [List.map_cons, BlankLines.collect, List.filterMap_cons, Line.word?_of_outcome h]
  dsimp only
  rw [Line.issue?_of_outcome h]
  cases outcome.issue? <;> rfl

/-- A line with an outcome puts it in front of what the rest emits. -/
theorem emitFrom_cons_of_ok {policy : BlankLines} {symbols : SymbolTable} {line : Line}
    {outcome : Outcome} (h : line.outcome symbols = .ok outcome) (counter : Word) (number : Nat)
    (rest : List (Line × Nat)) :
    emitFrom policy symbols counter ((line, number) :: rest) =
      (emitFrom policy symbols (policy.next line outcome.target? counter) rest).map
        (outcome.prepend counter number) := by
  rw [emitFrom, h]
  show Except.bind (emitFrom policy symbols (policy.next line outcome.target? counter) rest) _ = _
  cases emitFrom policy symbols (policy.next line outcome.target? counter) rest <;> rfl

/-- A line with a fault ends the second pass. -/
theorem emitFrom_cons_of_error {policy : BlankLines} {symbols : SymbolTable} {line : Line}
    {fault : Fault} (h : line.outcome symbols = .error fault) (counter : Word) (number : Nat)
    (rest : List (Line × Nat)) :
    emitFrom policy symbols counter ((line, number) :: rest) = .error fault := by
  rw [emitFrom, h]
  rfl

/-- **The second pass over some lines** succeeds exactly when no line is at fault, and then gives
what the lines give one by one. -/
theorem emitFrom_eq_ok_iff {policy : BlankLines} {symbols : SymbolTable} {counter : Word}
    {lines : List (Line × Nat)} {emission : Emission} :
    emitFrom policy symbols counter lines = .ok emission ↔
      (∀ p ∈ lines, ∃ outcome, p.1.outcome symbols = .ok outcome) ∧
        emission = emissionFrom policy symbols counter lines := by
  induction lines generalizing counter emission with
  | nil =>
      constructor
      · intro h
        cases h
        exact ⟨fun p hp => absurd hp List.not_mem_nil, rfl⟩
      · rintro ⟨-, rfl⟩
        rfl
  | cons first rest ih =>
      obtain ⟨line, number⟩ := first
      cases houtcome : line.outcome symbols with
      | error fault =>
          rw [emitFrom_cons_of_error houtcome]
          constructor
          · exact nofun
          · rintro ⟨hall, -⟩
            obtain ⟨outcome, hok⟩ := hall _ List.mem_cons_self
            exact nomatch houtcome.symm.trans hok
      | ok outcome =>
          rw [emitFrom_cons_of_ok houtcome, emissionFrom_cons houtcome]
          constructor
          · intro h
            cases htail :
                emitFrom policy symbols (policy.next line outcome.target? counter) rest with
            | error fault =>
                rw [htail] at h
                exact nomatch h
            | ok tail =>
                rw [htail] at h
                cases h
                obtain ⟨hrest, rfl⟩ := ih.mp htail
                exact ⟨List.forall_mem_cons.mpr ⟨⟨outcome, houtcome⟩, hrest⟩, rfl⟩
          · rintro ⟨hall, rfl⟩
            rw [ih.mpr ⟨(List.forall_mem_cons.mp hall).2, rfl⟩]
            rfl

/-- Two stretches of a second pass, one behind the other. -/
def Emission.append (first second : Emission) : Emission where
  entries := first.entries ++ second.entries
  diagnostics := first.diagnostics ++ second.diagnostics

/-- The second pass goes on behind some lines with the counter behind them. -/
theorem emitFrom_append (policy : BlankLines) (symbols : SymbolTable) (counter : Word)
    (front rest : List (Line × Nat)) :
    emitFrom policy symbols counter (front ++ rest) =
      (emitFrom policy symbols counter front).bind fun first =>
        (emitFrom policy symbols
          (policy.behind (Line.resolvedTarget? symbols) counter (front.map Prod.fst)) rest).map
          first.append := by
  induction front generalizing counter with
  | nil =>
      show emitFrom policy symbols counter rest =
        Except.map _ (emitFrom policy symbols counter rest)
      cases emitFrom policy symbols counter rest <;> rfl
  | cons first front ih =>
      obtain ⟨line, number⟩ := first
      rw [List.cons_append, List.map_cons, BlankLines.behind_cons]
      cases houtcome : line.outcome symbols with
      | error fault =>
          rw [emitFrom_cons_of_error houtcome, emitFrom_cons_of_error houtcome]
          rfl
      | ok outcome =>
          rw [emitFrom_cons_of_ok houtcome, emitFrom_cons_of_ok houtcome, ih,
            ← Line.target?_of_outcome houtcome]
          cases emitFrom policy symbols (policy.next line outcome.target? counter) front with
          | error fault => rfl
          | ok first =>
              show Except.map _ (Except.map _ _) = Except.map _ _
              cases emitFrom policy symbols (policy.behind (Line.resolvedTarget? symbols)
                (policy.next line outcome.target? counter) (front.map Prod.fst)) rest with
              | error fault => rfl
              | ok second => simp [Except.map, Emission.append, Outcome.prepend]

/-! ## The second pass over lines that are changed one by one -/

/-- The same outcome with another issue. -/
def Outcome.mapIssue (f : Issue → Issue) : Outcome → Outcome
  | emitted word warning => .emitted word (warning.map f)
  | moved target warning => .moved target (warning.map f)
  | failed error => .failed (f error)
  | idle warning => .idle (warning.map f)

/-- A changed issue is the change of the issue. -/
@[simp] theorem Outcome.issue?_mapIssue (f : Issue → Issue) (outcome : Outcome) :
    (outcome.mapIssue f).issue? = outcome.issue?.map f := by
  cases outcome <;> rfl

/-- Changing issues changes no word. -/
@[simp] theorem Outcome.word?_mapIssue (f : Issue → Issue) (outcome : Outcome) :
    (outcome.mapIssue f).word? = outcome.word? := by
  cases outcome <;> rfl

/-- Changing issues moves no counter. -/
@[simp] theorem Outcome.target?_mapIssue (f : Issue → Issue) (outcome : Outcome) :
    (outcome.mapIssue f).target? = outcome.target? := by
  cases outcome <;> rfl

/-- Issues that are not changed leave the outcome. -/
theorem Outcome.mapIssue_id (outcome : Outcome) : outcome.mapIssue id = outcome := by
  cases outcome <;> simp [mapIssue]

/-- What a second pass produces, with other reports. -/
def Emission.mapReports (f : Diagnostic → Diagnostic) (emission : Emission) : Emission :=
  { emission with diagnostics := emission.diagnostics.map f }

/-- Numbers and issues can be changed before or behind the second pass. -/
theorem Outcome.prepend_mapIssue (outcome : Outcome) (number : Nat → Nat) (issue : Issue → Issue)
    (address : Word) (n : Nat) (rest : Emission) :
    (outcome.mapIssue issue).prepend address (number n)
        (rest.mapReports fun d => ⟨number d.line, issue d.issue⟩) =
      (outcome.prepend address n rest).mapReports fun d => ⟨number d.line, issue d.issue⟩ := by
  unfold prepend Emission.mapReports
  rw [word?_mapIssue, issue?_mapIssue]
  cases outcome.issue? <;> simp

/-- **A second pass over changed lines.** Lines that take their addresses as before and come to the
same, apart from their numbers and the words of their issues, give the same entries and the
reports with these numbers and words. -/
theorem emitFrom_map (policy : BlankLines) {first second : SymbolTable} (change : Line → Line)
    (number : Nat → Nat) (issue : Issue → Issue) (counter : Word) {lines : List (Line × Nat)}
    (hnext : ∀ p ∈ lines, ∀ target counter,
      policy.next (change p.1) target counter = policy.next p.1 target counter)
    (houtcome : ∀ p ∈ lines,
      (change p.1).outcome second = (p.1.outcome first).map (Outcome.mapIssue issue)) :
    emitFrom policy second counter (lines.map fun p => (change p.1, number p.2)) =
      (emitFrom policy first counter lines).map
        (Emission.mapReports fun d => ⟨number d.line, issue d.issue⟩) := by
  induction lines generalizing counter with
  | nil => rfl
  | cons p rest ih =>
      obtain ⟨hp, hrest⟩ := List.forall_mem_cons.mp houtcome
      obtain ⟨hpnext, hrestnext⟩ := List.forall_mem_cons.mp hnext
      obtain ⟨line, n⟩ := p
      rw [List.map_cons]
      cases hline : line.outcome first with
      | error fault =>
          rw [hline] at hp
          rw [emitFrom_cons_of_error hline, emitFrom_cons_of_error hp]
          rfl
      | ok outcome =>
          rw [hline] at hp
          rw [emitFrom_cons_of_ok hline, emitFrom_cons_of_ok hp, hpnext, Outcome.target?_mapIssue,
            ih _ hrestnext hrest]
          cases emitFrom policy first (policy.next line outcome.target? counter) rest with
          | error fault => rfl
          | ok tail =>
              exact congrArg Except.ok (outcome.prepend_mapIssue number issue counter n tail)

/-! ## An assembly, read off its lines -/

/-- The location counter of the second pass at line `i`. -/
def secondCounter (policy : BlankLines) (lines : List Line) (i : Nat) : Word :=
  policy.behind (Line.resolvedTarget? (symbolsOf policy lines)) 0 (lines.take i)

/-- The entry that line `i` puts into the listing, if it emits a word. -/
def entryAt? (policy : BlankLines) (lines : List Line) (i : Nat) : Option Entry :=
  (program lines)[i]?.bind fun line =>
    (line.word? (symbolsOf policy lines)).map (⟨secondCounter policy lines i, ·⟩)

/-- What the second pass reports, in order. -/
def reports (symbols : SymbolTable) (lines : List Line) : List Diagnostic :=
  (numbered (program lines)).filterMap fun (line, number) =>
    (line.issue? symbols).map (⟨number, ·⟩)

/-- Within the program its lines are those of the source. -/
theorem take_program {lines : List Line} {i : Nat} (h : i ≤ (program lines).length) :
    (program lines).take i = lines.take i := by
  obtain ⟨rest, hrest⟩ := List.takeWhile_prefix (l := lines) fun line => !line.isStop
  conv => rhs; rw [← hrest]
  exact (List.take_append_of_le_length h).symm

/-- The entries of a program, each from the line at its place. -/
theorem entriesFrom_program (policy : BlankLines) (lines : List Line) :
    entriesFrom policy (symbolsOf policy lines) 0 (program lines) =
      (List.range (program lines).length).filterMap (entryAt? policy lines) := by
  unfold entriesFrom
  rw [BlankLines.collect_eq_filterMap]
  refine List.filterMap_congr fun i hi => ?_
  rw [take_program (Nat.le_of_lt (List.mem_range.mp hi))]
  rfl

/-- The entries of a program, and its reports. -/
theorem emissionFrom_program (policy : BlankLines) (lines : List Line) :
    emissionFrom policy (symbolsOf policy lines) 0 (numbered (program lines)) =
      ⟨(List.range (program lines).length).filterMap (entryAt? policy lines),
        reports (symbolsOf policy lines) lines⟩ := by
  rw [← entriesFrom_program, emissionFrom, map_fst_numbered]
  rfl

/-- **The assembly of a program**: it exists exactly when no line in front of the end is at fault,
and it consists of what the lines give, in order. -/
theorem assembleLines_eq_ok_iff {policy : BlankLines} {lines : List Line} {a : Assembly} :
    assembleLines policy lines = .ok a ↔
      (∀ line ∈ program lines, ∃ outcome, line.outcome (symbolsOf policy lines) = .ok outcome) ∧
        a = {
          listing := ⟨(List.range (program lines).length).filterMap (entryAt? policy lines)⟩
          symbols := symbolsOf policy lines
          diagnostics := Diagnostic.sortByLine
            (labelDiagnostics (numbered lines) ++ reports (symbolsOf policy lines) lines) } := by
  have hmem : (∀ p ∈ numbered (program lines),
        ∃ outcome, p.1.outcome (symbolsOf policy lines) = .ok outcome) ↔
      ∀ line ∈ program lines, ∃ outcome, line.outcome (symbolsOf policy lines) = .ok outcome := by
    conv => rhs; rw [← map_fst_numbered (program lines)]
    simp only [List.forall_mem_map]
  rw [assembleLines, emit, reached_numbered, ← hmem]
  constructor
  · intro h
    cases hrun : emitFrom policy (symbolsOf policy lines) 0 (numbered (program lines)) with
    | error fault =>
        rw [hrun] at h
        exact nomatch h
    | ok emission =>
        rw [hrun] at h
        obtain ⟨hall, rfl⟩ := emitFrom_eq_ok_iff.mp hrun
        cases h
        rw [emissionFrom_program]
        exact ⟨hall, rfl⟩
  · rintro ⟨hall, rfl⟩
    rw [emitFrom_eq_ok_iff.mpr ⟨hall, rfl⟩, emissionFrom_program]
    rfl

/-- The symbols of an assembly are those of the first pass. -/
theorem symbols_of_assembleLines {policy : BlankLines} {lines : List Line} {a : Assembly}
    (h : assembleLines policy lines = .ok a) : a.symbols = symbolsOf policy lines := by
  obtain ⟨-, rfl⟩ := assembleLines_eq_ok_iff.mp h
  rfl

/-- What the second pass makes of a program that has an assembly. -/
theorem emit_of_assembleLines {policy : BlankLines} {lines : List Line} {a : Assembly}
    (h : assembleLines policy lines = .ok a) :
    emit policy (symbolsOf policy lines) lines =
      .ok ⟨a.listing.entries, reports (symbolsOf policy lines) lines⟩ := by
  obtain ⟨hall, rfl⟩ := assembleLines_eq_ok_iff.mp h
  rw [emit, reached_numbered, emitFrom_eq_ok_iff, emissionFrom_program]
  refine ⟨?_, rfl⟩
  intro p hp
  exact hall p.1 (List.fst_mem_of_mem_zipIdx hp)

/-- An assembly is what the second pass emits, with the symbols and the sorted diagnostics. -/
theorem assembleLines_eq_map (policy : BlankLines) (lines : List Line) :
    assembleLines policy lines =
      (emit policy (symbolsOf policy lines) lines).map fun emission => {
        listing := ⟨emission.entries⟩
        symbols := symbolsOf policy lines
        diagnostics :=
          Diagnostic.sortByLine (labelDiagnostics (numbered lines) ++ emission.diagnostics) } := by
  show Except.bind (emit policy (symbolsOf policy lines) lines) _ = _
  cases emit policy (symbolsOf policy lines) lines <;> rfl

/-- The second pass runs over the lines of the program. -/
theorem emit_eq_emitFrom_program (policy : BlankLines) (symbols : SymbolTable)
    (lines : List Line) :
    emit policy symbols lines = emitFrom policy symbols 0 (numbered (program lines)) := by
  rw [emit, reached_numbered]

/-! ## A pass at a line -/

/-- The first pass goes on at line `i` with its counter there. -/
theorem definitions_resume (policy : BlankLines) (lines : List Line) (i : Nat) :
    definitions policy lines =
      definitions policy (lines.take i) ++
        definitionsFrom policy (firstCounter policy lines i) (lines.drop i) := by
  conv => lhs; rw [← List.take_append_drop i lines]
  exact definitionsFrom_append policy 0 (lines.take i) (lines.drop i)

/-- The first numbered lines are the first lines, numbered. -/
theorem take_numbered (lines : List Line) (i : Nat) :
    (numbered lines).take i = numbered (lines.take i) := by
  apply List.ext_getElem?
  intro j
  unfold numbered
  rw [List.getElem?_take, List.getElem?_zipIdx, List.getElem?_zipIdx, List.getElem?_take]
  split <;> rfl

/-- The second pass goes on at a line `i` that it reaches with its counter there. -/
theorem emit_resume (policy : BlankLines) {lines : List Line} {i : Nat}
    (h : ∀ line ∈ lines.take i, line.isStop = false) :
    emit policy (symbolsOf policy lines) lines =
      (emitFrom policy (symbolsOf policy lines) 0 (numbered (lines.take i))).bind fun first =>
        (emitFrom policy (symbolsOf policy lines) (secondCounter policy lines i)
          (reached ((numbered lines).drop i))).map first.append := by
  have hfront : ∀ p ∈ numbered (lines.take i), (!p.1.isStop) = true := by
    intro p hp
    rw [h p.1 (List.fst_mem_of_mem_zipIdx hp)]
    rfl
  have hreached : reached (numbered lines) =
      numbered (lines.take i) ++ reached ((numbered lines).drop i) := by
    conv => lhs; rw [← List.take_append_drop i (numbered lines), take_numbered]
    exact List.takeWhile_append_of_pos hfront
  rw [emit, hreached, emitFrom_append, map_fst_numbered]
  rfl

/-- The definition of a line stands behind those of the lines in front of it. -/
theorem definitions_at {policy : BlankLines} {lines : List Line} {i : Nat} {line : Line}
    {name : String} (hline : lines[i]? = some line) (hname : line.symbolName? = some name) :
    ∃ later, definitions policy lines =
      definitions policy (lines.take i) ++ ⟨name, firstCounter policy lines i⟩ :: later := by
  obtain ⟨hi, rfl⟩ := List.getElem?_eq_some_iff.mp hline
  rw [definitions_resume policy lines i, List.drop_eq_getElem_cons hi, definitionsFrom, hname]
  exact ⟨_, rfl⟩

/-- The entry of a line stands behind those of the lines in front of it. -/
theorem entries_at {policy : BlankLines} {lines : List Line} {a : Assembly}
    (h : assembleLines policy lines = .ok a) {i : Nat} {line : Line} {word : Word}
    (hline : (program lines)[i]? = some line) (hword : line.word? a.symbols = some word) :
    ∃ earlier later, emitFrom policy a.symbols 0 (numbered (lines.take i)) = .ok earlier ∧
      a.listing.entries = earlier.entries ++ ⟨secondCounter policy lines i, word⟩ :: later := by
  obtain ⟨hall, rfl⟩ := assembleLines_eq_ok_iff.mp h
  obtain ⟨hi, rfl⟩ := List.getElem?_eq_some_iff.mp hline
  have htake : (program lines).take i = lines.take i := take_program (Nat.le_of_lt hi)
  have hfront : emitFrom policy (symbolsOf policy lines) 0 (numbered (lines.take i)) =
      .ok (emissionFrom policy (symbolsOf policy lines) 0 (numbered (lines.take i))) := by
    refine emitFrom_eq_ok_iff.mpr ⟨fun p hp => ?_, rfl⟩
    have hmem := List.fst_mem_of_mem_zipIdx hp
    rw [← htake] at hmem
    exact hall p.1 (List.mem_of_mem_take hmem)
  have hsplit : ∃ later, entriesFrom policy (symbolsOf policy lines) 0 (program lines) =
      entriesFrom policy (symbolsOf policy lines) 0 (lines.take i) ++
        ⟨secondCounter policy lines i, word⟩ :: later := by
    rw [← List.take_append_drop i (program lines), List.drop_eq_getElem_cons hi, entriesFrom,
      BlankLines.collect_append, BlankLines.collect, hword, htake]
    exact ⟨_, rfl⟩
  obtain ⟨later, hlater⟩ := hsplit
  refine ⟨_, later, hfront, ?_⟩
  rw [emissionFrom, map_fst_numbered, ← hlater, entriesFrom_program]

/-! ## The reports of an assembly -/

namespace Diagnostic

/-- Inserting a diagnostic adds it and loses none. -/
theorem insertByLine_perm (d : Diagnostic) (ds : List Diagnostic) :
    (insertByLine d ds).Perm (d :: ds) := by
  induction ds with
  | nil => exact .refl _
  | cons e rest ih =>
      rw [insertByLine]
      split
      · exact .refl _
      · exact (ih.cons e).trans (.swap d e rest)

/-- The final order of the diagnostics loses none and adds none. -/
theorem sortByLine_perm (ds : List Diagnostic) : (sortByLine ds).Perm ds := by
  induction ds with
  | nil => exact .refl _
  | cons d rest ih => exact (insertByLine_perm d (sortByLine rest)).trans (ih.cons d)

end Diagnostic

/-- The first pass reports nothing but labels. -/
theorem Line.labelIssue?_eq_some {line : Line} {issue : Issue} (h : line.labelIssue? = some issue) :
    ∃ label, issue = .invalidLabel label := by
  obtain ⟨label, -, rfl⟩ := Option.map_eq_some_iff.mp h
  exact ⟨label, rfl⟩

/-- **The diagnostics of an assembly**: on each line the issue of its label, if there is one, and
on each line of the program the issue of the second pass, if there is one. -/
theorem mem_diagnostics_iff {policy : BlankLines} {lines : List Line} {a : Assembly}
    (h : assembleLines policy lines = .ok a) {i : Nat} {issue : Issue} :
    ⟨i + 1, issue⟩ ∈ a.diagnostics ↔
      (∃ line, lines[i]? = some line ∧ line.labelIssue? = some issue) ∨
        ∃ line, (program lines)[i]? = some line ∧ line.issue? a.symbols = some issue := by
  obtain ⟨-, rfl⟩ := assembleLines_eq_ok_iff.mp h
  have hfilter : ∀ (lines : List Line) (view : Line → Option Issue),
      (⟨i + 1, issue⟩ : Diagnostic) ∈
          (numbered lines).filterMap (fun p => (view p.1).map (⟨p.2, ·⟩)) ↔
        ∃ line, lines[i]? = some line ∧ view line = some issue := by
    intro lines view
    simp only [List.mem_filterMap, Option.map_eq_some_iff, Prod.exists, Diagnostic.mk.injEq]
    constructor
    · rintro ⟨line, number, hmem, issue', hview, rfl, rfl⟩
      exact ⟨line, mem_numbered_iff.mp hmem, hview⟩
    · rintro ⟨line, hline, hview⟩
      exact ⟨line, i + 1, mem_numbered_iff.mpr hline, issue, hview, rfl, rfl⟩
  rw [(Diagnostic.sortByLine_perm _).mem_iff, List.mem_append]
  exact or_congr (hfilter lines Line.labelIssue?) (hfilter (program lines) (Line.issue? _))

/-- The line that ends the program gives the second pass nothing to report. -/
theorem Line.issue?_of_isStop {symbols : SymbolTable} {line : Line} (h : line.isStop = true) :
    line.issue? symbols = none := by
  unfold isStop at h
  split at h
  · rfl
  · exact nomatch h

/-- On a line that the second pass reaches, the diagnostics other than those of labels are the
issues of the second pass. -/
theorem mem_diagnostics_iff_issue? {policy : BlankLines} {lines : List Line} {a : Assembly}
    (h : assembleLines policy lines = .ok a) {i : Nat} {line : Line}
    (hline : lines[i]? = some line) (hreached : ∀ l ∈ lines.take i, l.isStop = false)
    {issue : Issue} (hlabel : ∀ label, issue ≠ .invalidLabel label) :
    ⟨i + 1, issue⟩ ∈ a.diagnostics ↔ line.issue? a.symbols = some issue := by
  rw [mem_diagnostics_iff h]
  constructor
  · rintro (⟨line', -, hissue⟩ | ⟨line', hline', hissue⟩)
    · obtain ⟨label, hinvalid⟩ := Line.labelIssue?_eq_some hissue
      exact absurd hinvalid (hlabel label)
    · rw [getElem?_program_eq_some_iff, hline] at hline'
      cases hline'.1
      exact hissue
  · intro hissue
    have hstop : line.isStop = false := by
      by_contra hstop
      rw [Line.issue?_of_isStop (by simpa using hstop)] at hissue
      exact nomatch hissue
    exact .inr ⟨line, getElem?_program_eq_some_iff.mpr ⟨hline, hstop, hreached⟩, hissue⟩

end BasicComputer
