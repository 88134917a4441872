import Mathlib.Data.List.TakeWhile
import BasicComputer.Proofs.Reports
import BasicComputer.Proofs.Texts

/-!
# To skip blank lines is to take them out

There are two ways not to count blank lines: to assemble a text under the policy that skips them, or
to take them out of the text first and assemble what is left under the other policy. Both come to
the same, apart from the numbers of lines in the diagnostics, which count blank lines in the first
case.

* **Text** (`Text.removeBlankLines`): a text without its blank lines, each taken out with its
  ending. Its lines are the other lines of the text (`Text.lines_removeBlankLines`), and a line is
  blank as a text when it is blank as a line of source (`Line.isBlank_parse`).
* **Passes** (`definitionsFrom_skip`, `emitFrom_skip`): under the policy that skips them, blank
  lines leave no trace in a pass, so each pass is the pass over the other lines.
* **Numbers** (`formerNumber`): the number that a line had before lines were taken out. Numbers go
  through the second pass untouched (`emitFrom_renumber`), and since they keep their order, the
  sort of the diagnostics does not notice the change (`Diagnostic.sortByLine_map`).
-/

namespace BasicComputer

/-! ## Texts without blank lines -/

namespace Text

/-- Whether a line holds nothing but blank characters. -/
def isBlankLine (line : String) : Bool :=
  line.toList.all isBlank

/-- The pieces that line feeds leave, put together again without the blank ones: every piece but the
last comes with its line feed. -/
def joinPieces : List (List Char) → List Char
  | [] => []
  | [last] => if last.all isBlank then [] else last
  | closed :: rest => (if closed.all isBlank then [] else closed ++ ['\n']) ++ joinPieces rest

/-- A text without its blank lines. All other characters stay, line endings included. -/
def removeBlankLines (text : String) : String :=
  String.ofList (joinPieces (text.toList.splitOnP (· == '\n')))

/-- The carriage return of a line ending does not make a line blank or not blank. -/
theorem all_isBlank_dropReturn (line : List Char) :
    (dropReturn line).all isBlank = line.all isBlank :=
  apply_dropReturn (f := fun cs => cs.all isBlank) (by simp [isBlank_return]) line

/-- **Lines of the pieces that are kept**: the lines of all pieces, without the blank ones. -/
theorem closeLines_joinPieces {pieces : List (List Char)}
    (h : ∀ piece ∈ pieces, ∀ c ∈ piece, (c == '\n') = false) :
    closeLines ((joinPieces pieces).splitOnP (· == '\n')) =
      (closeLines pieces).filter fun line => !line.all isBlank := by
  fun_induction joinPieces pieces with
  | case1 => rfl
  | case2 last hblank =>
      have hnone : (closeLines [last]).filter (fun line => !line.all isBlank) = [] := by
        unfold closeLines
        split <;> simp [hblank]
      rw [hnone]
      rfl
  | case3 last hblank =>
      have hne : last ≠ [] := by
        rintro rfl
        exact hblank rfl
      rw [List.splitOnP_eq_singleton (h last List.mem_cons_self), closeLines, if_neg hne]
      simp [hblank]
  | case4 closed rest hrest ih =>
      obtain ⟨hclosed, hothers⟩ := List.forall_mem_cons.mp h
      have hclose : closeLines (closed :: rest) = dropReturn closed :: closeLines rest := by
        rw [closeLines]
        exact hrest
      rw [hclose, List.filter_cons, all_isBlank_dropReturn]
      cases hblank : closed.all isBlank with
      | true => simpa using ih hothers
      | false =>
          obtain ⟨piece, pieces, hpieces⟩ :=
            List.exists_cons_of_ne_nil (List.splitOnP_ne_nil (· == '\n') (joinPieces rest))
          simp only [Bool.false_eq_true, if_false, Bool.not_false, if_true, List.append_assoc,
            List.singleton_append]
          rw [List.splitOnP_append_cons_of_forall_mem hclosed '\n' rfl, ← ih hothers, hpieces,
            closeLines]
          exact List.cons_ne_nil piece pieces

/-- **The lines of a text without blank lines** are the other lines of the text. -/
theorem lines_removeBlankLines (text : String) :
    Text.lines (removeBlankLines text) =
      (Text.lines text).filter fun line => !isBlankLine line := by
  unfold Text.lines removeBlankLines
  rw [String.toList_ofList, closeLines_joinPieces fun _ => not_separates_of_mem_splitOnP,
    List.filter_map]
  refine congrArg _ (List.filter_congr fun line _ => ?_)
  simp [isBlankLine]

/-- A text has no tokens exactly when it holds nothing but blank characters. -/
theorem isEmpty_tokens (text : String) : (tokens text).isEmpty = isBlankLine text := by
  suffices hlist : ∀ cs : List Char,
      ((cs.splitOnP isBlank).filter (· ≠ [])).isEmpty = cs.all isBlank by
    unfold tokens isBlankLine
    rw [List.isEmpty_map]
    exact hlist text.toList
  intro cs
  induction cs with
  | nil => rfl
  | cons c cs ih =>
      obtain ⟨first, others, hpieces⟩ :=
        List.exists_cons_of_ne_nil (List.splitOnP_ne_nil isBlank cs)
      rw [List.splitOnP_cons_eq_if_modifyHead, List.all_cons]
      cases hc : isBlank c with
      | true => simpa using ih
      | false => simp [hpieces]

end Text

/-- **A line of source is blank** exactly when its text is. -/
theorem Line.isBlank_parse (text : String) : (Line.parse text).isBlank = Text.isBlankLine text := by
  rw [← Text.isEmpty_tokens, parse]
  cases Text.tokens text with
  | nil => rfl
  | cons first rest =>
      dsimp only [ofTokens]
      cases labelOfToken? first with
      | none => rfl
      | some label => cases rest <;> rfl

/-- Removing the blank lines of a text leaves the other lines. -/
theorem sourceLines_removeBlankLines (source : String) :
    sourceLines (Text.removeBlankLines source) =
      (sourceLines source).filter fun line => !line.isBlank := by
  unfold sourceLines
  rw [Text.lines_removeBlankLines, List.filter_map]
  refine congrArg _ (List.filter_congr fun line _ => ?_)
  simp [Line.isBlank_parse]

/-! ## Passes that skip -/

/-- There is only one blank line. -/
theorem Line.eq_blank_of_isBlank {line : Line} (h : line.isBlank = true) : line = .blank := by
  cases line with
  | blank => rfl
  | labelOnly label => exact nomatch h
  | statement label body => exact nomatch h

/-- The policy matters for blank lines only. -/
theorem BlankLines.next_skip {line : Line} (h : line.isBlank = false) (target : Option Word)
    (counter : Word) : skip.next line target counter = advance.next line target counter := by
  unfold next takesAddress
  rw [h]
  rfl

/-- **Definitions without blank lines.** The first pass that skips blank lines is the first pass
over the other lines. -/
theorem definitionsFrom_skip (counter : Word) (lines : List Line) :
    definitionsFrom .skip counter lines =
      definitionsFrom .advance counter (lines.filter fun line => !line.isBlank) := by
  induction lines generalizing counter with
  | nil => rfl
  | cons line rest ih =>
      cases hblank : line.isBlank with
      | true =>
          rw [List.filter_cons_of_neg (by simp [hblank])]
          cases Line.eq_blank_of_isBlank hblank
          exact ih counter
      | false =>
          rw [List.filter_cons_of_pos (by simp [hblank]), definitionsFrom, definitionsFrom,
            BlankLines.next_skip hblank, ih]

/-- Skipping blank lines gives the symbols of the other lines. -/
theorem symbolsOf_skip (lines : List Line) :
    symbolsOf .skip lines = symbolsOf .advance (lines.filter fun line => !line.isBlank) := by
  rw [symbolsOf, symbolsOf, definitions, definitions, definitionsFrom_skip]

/-- **Emission without blank lines.** The second pass that skips blank lines is the second pass over
the other lines, each with the number it has. -/
theorem emitFrom_skip (symbols : SymbolTable) (counter : Word) (lines : List (Line × Nat)) :
    emitFrom .skip symbols counter lines =
      emitFrom .advance symbols counter (lines.filter fun p => !p.1.isBlank) := by
  induction lines generalizing counter with
  | nil => rfl
  | cons p rest ih =>
      obtain ⟨line, number⟩ := p
      cases hblank : line.isBlank with
      | true =>
          rw [List.filter_cons_of_neg (by simp [hblank]), ← ih]
          cases Line.eq_blank_of_isBlank hblank
          rw [emitFrom_cons_of_ok rfl]
          show Except.map id (emitFrom .skip symbols counter rest) = _
          cases emitFrom .skip symbols counter rest <;> rfl
      | false =>
          rw [List.filter_cons_of_pos (by simp [hblank])]
          cases houtcome : line.outcome symbols with
          | error fault => rw [emitFrom_cons_of_error houtcome, emitFrom_cons_of_error houtcome]
          | ok outcome =>
              rw [emitFrom_cons_of_ok houtcome, emitFrom_cons_of_ok houtcome,
                BlankLines.next_skip hblank, ih]

/-- No blank line ends the program. -/
theorem reached_filter (lines : List (Line × Nat)) :
    reached (lines.filter fun p => !p.1.isBlank) =
      (reached lines).filter fun p => !p.1.isBlank := by
  unfold reached
  rw [List.takeWhile_filter]
  congr 2
  funext ⟨line, number⟩
  cases line <;> rfl

/-- No blank line has a label. -/
theorem labelDiagnostics_filter (lines : List (Line × Nat)) :
    labelDiagnostics (lines.filter fun p => !p.1.isBlank) = labelDiagnostics lines := by
  unfold labelDiagnostics
  rw [List.filterMap_filter]
  refine List.filterMap_congr fun p _ => ?_
  obtain ⟨line, number⟩ := p
  cases line <;> rfl

/-! ## Lines with other numbers -/

section renumber

variable (number : Nat → Nat)

/-- The same report on the line with another number. -/
def Diagnostic.renumber (d : Diagnostic) : Diagnostic :=
  { d with line := number d.line }

/-- The same assembly with other numbers of lines in its diagnostics. -/
def Assembly.renumber (a : Assembly) : Assembly :=
  { a with diagnostics := a.diagnostics.map (Diagnostic.renumber number) }

/-- **A second pass over lines with other numbers** differs in the numbers of its reports. -/
theorem emitFrom_renumber (policy : BlankLines) (symbols : SymbolTable) (counter : Word)
    (lines : List (Line × Nat)) :
    emitFrom policy symbols counter (lines.map fun p => (p.1, number p.2)) =
      (emitFrom policy symbols counter lines).map
        (Emission.mapReports (Diagnostic.renumber number)) := by
  apply emitFrom_map policy id number id
  · intros
    rfl
  · intro p hp
    simp only [id]
    cases p.1.outcome symbols with
    | error fault => rfl
    | ok outcome => exact congrArg Except.ok outcome.mapIssue_id.symm

/-- Other numbers do not change how far the second pass comes. -/
theorem reached_renumber (lines : List (Line × Nat)) :
    reached (lines.map fun p => (p.1, number p.2)) =
      (reached lines).map fun p => (p.1, number p.2) :=
  List.takeWhile_map

/-- Labels are reported under the other numbers. -/
theorem labelDiagnostics_renumber (lines : List (Line × Nat)) :
    labelDiagnostics (lines.map fun p => (p.1, number p.2)) =
      (labelDiagnostics lines).map (Diagnostic.renumber number) := by
  unfold labelDiagnostics
  rw [List.filterMap_map, List.map_filterMap]
  refine List.filterMap_congr fun p _ => ?_
  show Option.map _ p.1.labelIssue? = Option.map _ (Option.map _ p.1.labelIssue?)
  rw [Option.map_map]
  rfl

end renumber

/-! ## The number that a line had -/

section formerNumber

variable {α β : Type} (keep : α → Bool) (items : List α)

/-- The numbers of the items that are kept, where all items are numbered from 1. -/
def keptNumbers : List Nat :=
  ((items.zipIdx 1).filter fun p => keep p.1).map Prod.snd

/-- The number that the `n`-th of the kept items has among all items. -/
def formerNumber (n : Nat) : Nat :=
  (keptNumbers keep items)[n - 1]?.getD 0

/-- The numbers that are kept depend on what is kept alone. -/
theorem keptNumbers_map (f : β → α) (items : List β) :
    keptNumbers keep (items.map f) = keptNumbers (fun item => keep (f item)) items := by
  unfold keptNumbers
  rw [List.zipIdx_map, List.filter_map, List.map_map]
  rfl

/-- **The kept items with the numbers they have among all items.** -/
theorem filter_zipIdx : (items.zipIdx 1).filter (fun p => keep p.1) =
    ((items.filter keep).zipIdx 1).map fun p => (p.1, formerNumber keep items p.2) := by
  have hitems : ((items.zipIdx 1).filter fun p => keep p.1).map Prod.fst = items.filter keep := by
    conv => rhs; rw [← List.zipIdx_map_fst 1 items, List.filter_map]
    rfl
  rw [← hitems]
  refine List.ext_getElem? fun i => ?_
  rw [List.getElem?_map, List.getElem?_zipIdx, List.getElem?_map]
  cases hi : ((items.zipIdx 1).filter fun p => keep p.1)[i]? with
  | none => rfl
  | some p => simp [formerNumber, keptNumbers, hi]

/-- There are as many numbers as items that are kept. -/
theorem length_keptNumbers : (keptNumbers keep items).length = (items.filter keep).length := by
  rw [keptNumbers, filter_zipIdx, List.length_map, List.length_map, List.length_zipIdx]

/-- The numbers that are kept are in order. -/
theorem pairwise_keptNumbers : (keptNumbers keep items).Pairwise (· < ·) := by
  have hall : ((items.zipIdx 1).map Prod.snd).Pairwise (· < ·) := by
    rw [List.zipIdx_map_snd]
    exact List.pairwise_lt_range'
  exact hall.sublist (List.filter_sublist.map _)

variable {keep items}

/-- Kept items stay in order. -/
theorem formerNumber_lt {m n : Nat} (hm : 1 ≤ m) (hmn : m < n)
    (hn : n ≤ (items.filter keep).length) :
    formerNumber keep items m < formerNumber keep items n := by
  rw [← length_keptNumbers] at hn
  have hm' : m - 1 < (keptNumbers keep items).length := by omega
  have hn' : n - 1 < (keptNumbers keep items).length := by omega
  rw [formerNumber, formerNumber, List.getElem?_eq_getElem hm', List.getElem?_eq_getElem hn']
  exact List.pairwise_iff_getElem.mp (pairwise_keptNumbers keep items) _ _ hm' hn' (by omega)

/-- Former numbers are in the order of the new ones. -/
theorem formerNumber_le_iff {m n : Nat} (hm : 1 ≤ m ∧ m ≤ (items.filter keep).length)
    (hn : 1 ≤ n ∧ n ≤ (items.filter keep).length) :
    formerNumber keep items m ≤ formerNumber keep items n ↔ m ≤ n := by
  rcases Nat.lt_trichotomy m n with hlt | rfl | hgt
  · have := formerNumber_lt hm.1 hlt hn.2
    omega
  · simp
  · have := formerNumber_lt hn.1 hgt hm.2
    omega

end formerNumber

/-! ## Assemblies that skip -/

section skip

variable (lines : List Line)

/-- The lines that are not blank, with the numbers they have in the text. -/
theorem filter_numbered : (numbered lines).filter (fun p => !p.1.isBlank) =
    (numbered (lines.filter fun line => !line.isBlank)).map fun p =>
      (p.1, formerNumber (fun line => !line.isBlank) lines p.2) :=
  filter_zipIdx (fun line : Line => !line.isBlank) lines

/-- The second pass that skips blank lines, apart from the numbers of the lines. -/
theorem emit_skip (symbols : SymbolTable) :
    emit .skip symbols lines =
      (emit .advance symbols (lines.filter fun line => !line.isBlank)).map
        (Emission.mapReports
          (Diagnostic.renumber (formerNumber (fun line => !line.isBlank) lines))) := by
  rw [emit, emitFrom_skip, ← reached_filter, filter_numbered, reached_renumber, emitFrom_renumber,
    emit]

/-- Labels are reported under the numbers of the whole text. -/
theorem labelDiagnostics_numbered :
    labelDiagnostics (numbered lines) =
      (labelDiagnostics (numbered (lines.filter fun line => !line.isBlank))).map
        (Diagnostic.renumber (formerNumber (fun line => !line.isBlank) lines)) := by
  rw [← labelDiagnostics_filter, filter_numbered, labelDiagnostics_renumber]

/-- **To skip blank lines is to take them out**, apart from the numbers of the lines. -/
theorem assembleLines_skip :
    assembleLines .skip lines =
      (assembleLines .advance (lines.filter fun line => !line.isBlank)).map
        (Assembly.renumber (formerNumber (fun line => !line.isBlank) lines)) := by
  rw [assembleLines_eq_map, assembleLines_eq_map, symbolsOf_skip, emit_skip,
    labelDiagnostics_numbered]
  cases hemit : emit .advance (symbolsOf .advance (lines.filter fun line => !line.isBlank))
      (lines.filter fun line => !line.isBlank) with
  | error fault => rfl
  | ok emission =>
      simp only [Except.map, Assembly.renumber, Emission.mapReports, ← List.map_append]
      rw [Diagnostic.sortByLine_map]
      intro d hd e he
      exact formerNumber_le_iff (line_le_of_emit hemit hd) (line_le_of_emit hemit he)

end skip

/-- The number that the `n`-th line of a text without its blank lines has in the text. -/
def Text.formerNumber (text : String) (n : Nat) : Nat :=
  BasicComputer.formerNumber (fun line => !Text.isBlankLine line) (Text.lines text) n

/-- The former number of a line can be told from the text. -/
theorem formerNumber_sourceLines (source : String) :
    formerNumber (fun line => !line.isBlank) (sourceLines source) = Text.formerNumber source := by
  funext n
  unfold Text.formerNumber formerNumber sourceLines
  rw [keptNumbers_map]
  simp only [Line.isBlank_parse]

/-- **Blank lines can be skipped or taken out.** A text without its blank lines has the other lines
of the text, and their numbers in the text are the former numbers of its lines. To assemble a text
under the policy that skips blank lines is to assemble the text without them under the other
policy, with former numbers in the diagnostics: either both texts are without an assembly, or both
have one, with the same listing, the same symbols and the same reports in the same order. -/
theorem skipping_is_removing_blank_lines (source : String) :
    ((Text.lines source).zipIdx 1).filter (fun p => !Text.isBlankLine p.1) =
      ((Text.lines (Text.removeBlankLines source)).zipIdx 1).map
        (fun p => (p.1, Text.formerNumber source p.2)) ∧
    assemble .skip source =
      (assemble .advance (Text.removeBlankLines source)).map fun a =>
        { listing := a.listing
          symbols := a.symbols
          diagnostics := a.diagnostics.map fun d =>
            { line := Text.formerNumber source d.line, issue := d.issue } } := by
  constructor
  · rw [Text.lines_removeBlankLines]
    exact filter_zipIdx (fun line => !Text.isBlankLine line) (Text.lines source)
  · unfold assemble
    rw [assembleLines_skip, sourceLines_removeBlankLines, formerNumber_sourceLines]
    rfl

/-- The reports have the numbers of the text with its blank lines, which the addresses pass over. -/
theorem skipping_is_removing_blank_lines_in_reports :
    assemble .skip "\nAB, HLT\r\n \t\r\nLDA XYZ\nCMA\n " = .ok {
        listing := ⟨[⟨0x0000, 0x7001⟩, ⟨0x0002, 0x7200⟩]⟩
        symbols := .ofList []
        diagnostics := [⟨2, .invalidLabel "AB"⟩, ⟨4, .undefinedSymbol "XYZ"⟩] } ∧
      Text.removeBlankLines "\nAB, HLT\r\n \t\r\nLDA XYZ\nCMA\n " =
        "AB, HLT\r\nLDA XYZ\nCMA\n" := by
  rw [(skipping_is_removing_blank_lines _).2]
  decide +kernel

end BasicComputer
