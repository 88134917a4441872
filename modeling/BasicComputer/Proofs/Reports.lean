import Mathlib.Data.List.Nodup
import BasicComputer.Proofs.Passes

/-!
# The diagnostics of an assembly, line by line

Each pass reports in the order of the lines, the second not until the first is done, and at the
end all reports are sorted by line. This module takes the sort away.

* **The order** (`Diagnostic.sortByLine_flatMap`): when two lists of reports are in the order of the
  lines, their sort goes through the lines once and puts, on each line, the first list in front.
  Changes that keep the order of the lines pass through a sort (`Diagnostic.sortByLine_map`).
* **The issues of a line** (`issuesAt`): the issue of its label, and behind it the issue of the
  second pass if the line is in front of the end.
* **The diagnostics** (`diagnostics_eq_lineReports`): the issues of the lines, one line after the
  other. `filter_line_le` and `filter_line_eq` cut out those of the first lines and of one line.

An index counts from 0, so line `i` has number `i + 1`.
-/

namespace BasicComputer

/-! ## Order by line -/

namespace Diagnostic

/-- A diagnostic is inserted behind those of earlier lines. -/
theorem insertByLine_append {d : Diagnostic} {front : List Diagnostic}
    (h : ∀ e ∈ front, e.line < d.line) (rest : List Diagnostic) :
    insertByLine d (front ++ rest) = front ++ insertByLine d rest := by
  induction front with
  | nil => rfl
  | cons e front ih =>
      obtain ⟨he, hfront⟩ := List.forall_mem_cons.mp h
      rw [List.cons_append, insertByLine, if_neg (by omega), ih hfront, List.cons_append]

/-- Diagnostics of later lines are inserted behind those of earlier ones. -/
theorem foldr_insertByLine_append {later front : List Diagnostic}
    (h : ∀ d ∈ later, ∀ e ∈ front, e.line < d.line) (rest : List Diagnostic) :
    later.foldr insertByLine (front ++ rest) = front ++ later.foldr insertByLine rest := by
  induction later with
  | nil => rfl
  | cons d later ih =>
      obtain ⟨hd, hlater⟩ := List.forall_mem_cons.mp h
      rw [List.foldr_cons, List.foldr_cons, ih hlater, insertByLine_append hd]

/-- A diagnostic that is not behind any other is inserted in front. -/
theorem insertByLine_of_le {d : Diagnostic} {ds : List Diagnostic}
    (h : ∀ e ∈ ds, d.line ≤ e.line) : insertByLine d ds = d :: ds := by
  cases ds with
  | nil => rfl
  | cons e rest => rw [insertByLine, if_pos (h e List.mem_cons_self)]

/-- Diagnostics in the order of their lines, none of them behind the rest, stay in front. -/
theorem foldr_insertByLine_of_le {front rest : List Diagnostic}
    (hsorted : front.Pairwise fun d e => d.line ≤ e.line)
    (h : ∀ d ∈ front, ∀ e ∈ rest, d.line ≤ e.line) :
    front.foldr insertByLine rest = front ++ rest := by
  induction front with
  | nil => rfl
  | cons d front ih =>
      obtain ⟨hd, hfront⟩ := List.forall_mem_cons.mp h
      obtain ⟨hle, hsorted⟩ := List.pairwise_cons.mp hsorted
      rw [List.foldr_cons, ih hsorted hfront, List.cons_append]
      apply insertByLine_of_le
      intro e he
      exact (List.mem_append.mp he).elim (hle e) (hd e)

/-- A change that keeps the order of lines can be made before or behind inserting. -/
theorem insertByLine_map {change : Diagnostic → Diagnostic} {d : Diagnostic} {ds : List Diagnostic}
    (h : ∀ e ∈ ds, (change d).line ≤ (change e).line ↔ d.line ≤ e.line) :
    insertByLine (change d) (ds.map change) = (insertByLine d ds).map change := by
  induction ds with
  | nil => rfl
  | cons e rest ih =>
      obtain ⟨he, hrest⟩ := List.forall_mem_cons.mp h
      rw [List.map_cons, insertByLine, insertByLine, ih hrest]
      by_cases hle : d.line ≤ e.line
      · rw [if_pos hle, if_pos (he.mpr hle)]
        rfl
      · rw [if_neg hle, if_neg fun h => hle (he.mp h)]
        rfl

/-- **Lines in the same order sort alike.** -/
theorem sortByLine_map {change : Diagnostic → Diagnostic} {ds : List Diagnostic}
    (h : ∀ d ∈ ds, ∀ e ∈ ds, (change d).line ≤ (change e).line ↔ d.line ≤ e.line) :
    sortByLine (ds.map change) = (sortByLine ds).map change := by
  induction ds with
  | nil => rfl
  | cons d rest ih =>
      have hrest : ∀ e ∈ rest, ∀ e' ∈ rest, (change e).line ≤ (change e').line ↔ e.line ≤ e'.line :=
        fun e he e' he' => h e (List.mem_cons_of_mem d he) e' (List.mem_cons_of_mem d he')
      show insertByLine (change d) (sortByLine (rest.map change)) = _
      rw [ih hrest]
      refine insertByLine_map fun e he => ?_
      have hmem : e ∈ rest := (sortByLine_perm rest).mem_iff.mp he
      exact h d List.mem_cons_self e (List.mem_cons_of_mem d hmem)

/-- The reports of one line. -/
def ofIssues (number : Nat) (issues : List Issue) : List Diagnostic :=
  issues.map (⟨number, ·⟩)

/-- The issues of a line are reported one after the other. -/
theorem ofIssues_append (number : Nat) (first second : List Issue) :
    ofIssues number (first ++ second) = ofIssues number first ++ ofIssues number second :=
  List.map_append

/-- The issues of a line are reported under its number. -/
theorem line_of_mem_ofIssues {number : Nat} {issues : List Issue} {d : Diagnostic}
    (h : d ∈ ofIssues number issues) : d.line = number := by
  obtain ⟨issue, -, rfl⟩ := List.mem_map.mp h
  rfl

/-- Reports of the lines behind line `i` have greater numbers. -/
theorem lt_line_of_mem_flatMap {issues : Nat → List Issue} {i : Nat} {indices : List Nat}
    (hi : ∀ j ∈ indices, i < j) {d : Diagnostic}
    (h : d ∈ indices.flatMap fun j => ofIssues (j + 1) (issues j)) : i + 1 < d.line := by
  obtain ⟨j, hj, hd⟩ := List.mem_flatMap.mp h
  rw [line_of_mem_ofIssues hd]
  exact Nat.succ_lt_succ (hi j hj)

/-- The reports on one line are in the order of lines. -/
theorem pairwise_ofIssues (number : Nat) (issues : List Issue) :
    (ofIssues number issues).Pairwise fun d e => d.line ≤ e.line := by
  refine List.pairwise_map.mpr (List.pairwise_of_forall fun _ _ => ?_)
  exact Nat.le_refl number

/-- Reports that go from line to line are in the order of the lines. -/
theorem pairwise_flatMap_ofIssues (issues : Nat → List Issue) {indices : List Nat}
    (h : indices.Pairwise (· < ·)) :
    (indices.flatMap fun i => ofIssues (i + 1) (issues i)).Pairwise
      fun d e => d.line ≤ e.line := by
  induction indices with
  | nil => exact .nil
  | cons i indices ih =>
      obtain ⟨hi, hindices⟩ := List.pairwise_cons.mp h
      rw [List.flatMap_cons, List.pairwise_append]
      refine ⟨pairwise_ofIssues (i + 1) (issues i), ih hindices, ?_⟩
      intro d hd e he
      rw [line_of_mem_ofIssues hd]
      exact Nat.le_of_lt (lt_line_of_mem_flatMap hi he)

/-- **Two lists of reports in one order.** Both go from line to line, and so does their sort; on one
line it puts the reports of the first list in front. -/
theorem sortByLine_flatMap (first second : Nat → List Issue) {indices : List Nat}
    (h : indices.Pairwise (· < ·)) :
    sortByLine ((indices.flatMap fun i => ofIssues (i + 1) (first i)) ++
        indices.flatMap fun i => ofIssues (i + 1) (second i)) =
      indices.flatMap fun i => ofIssues (i + 1) (first i ++ second i) := by
  have hsecond : sortByLine (indices.flatMap fun i => ofIssues (i + 1) (second i)) =
      indices.flatMap fun i => ofIssues (i + 1) (second i) := by
    rw [sortByLine, foldr_insertByLine_of_le (pairwise_flatMap_ofIssues second h) (by simp),
      List.append_nil]
  rw [sortByLine, List.foldr_append]
  change (indices.flatMap fun i => ofIssues (i + 1) (first i)).foldr insertByLine (sortByLine _) = _
  rw [hsecond]
  clear hsecond
  induction indices with
  | nil => rfl
  | cons i indices ih =>
      obtain ⟨hi, hindices⟩ := List.pairwise_cons.mp h
      -- the reports of later lines pass over those that the second list has on this line
      have hlater : ∀ d ∈ indices.flatMap fun j => ofIssues (j + 1) (first j),
          ∀ e ∈ ofIssues (i + 1) (second i), e.line < d.line := by
        intro d hd e he
        rw [line_of_mem_ofIssues he]
        exact lt_line_of_mem_flatMap hi hd
      rw [List.flatMap_cons, List.flatMap_cons, List.foldr_append, foldr_insertByLine_append hlater,
        ih hindices, List.flatMap_cons, ofIssues_append, List.append_assoc]
      -- what is left to insert goes in front of all the rest
      apply foldr_insertByLine_of_le (pairwise_ofIssues (i + 1) (first i))
      intro d hd e he
      rw [line_of_mem_ofIssues hd]
      rcases List.mem_append.mp he with hthis | hrest
      · exact Nat.le_of_eq (line_of_mem_ofIssues hthis).symm
      · exact Nat.le_of_lt (lt_line_of_mem_flatMap hi hrest)

/-- To choose among reports by their lines is to choose among the lines. -/
theorem filter_flatMap_ofIssues (choose : Nat → Bool) (issues : Nat → List Issue)
    (indices : List Nat) :
    (indices.flatMap fun i => ofIssues (i + 1) (issues i)).filter (fun d => choose d.line) =
      (indices.filter fun i => choose (i + 1)).flatMap fun i => ofIssues (i + 1) (issues i) := by
  induction indices with
  | nil => rfl
  | cons i indices ih =>
      rw [List.flatMap_cons, List.filter_append, ih, List.filter_cons]
      split
      · next hchosen =>
        have hall : ∀ d ∈ ofIssues (i + 1) (issues i), choose d.line = true := by
          intro d hd
          rw [line_of_mem_ofIssues hd, hchosen]
        rw [List.filter_eq_self.mpr hall, List.flatMap_cons]
      · next hnot =>
        have hnone : ∀ d ∈ ofIssues (i + 1) (issues i), ¬ choose d.line = true := by
          intro d hd
          rwa [line_of_mem_ofIssues hd]
        rw [List.filter_eq_nil_iff.mpr hnone, List.nil_append]

end Diagnostic

/-! ## The issues of a line -/

/-- What is reported on line `i`: the issue of its label, and the issue of the second pass if the
line is in front of the end. -/
def issuesAt (symbols : SymbolTable) (lines : List Line) (i : Nat) : List Issue :=
  (lines[i]?.bind Line.labelIssue?).toList ++
    ((program lines)[i]?.bind (Line.issue? symbols)).toList

/-- The reports of all lines, one line after the other. -/
def lineReports (symbols : SymbolTable) (lines : List Line) : List Diagnostic :=
  (List.range lines.length).flatMap fun i => Diagnostic.ofIssues (i + 1) (issuesAt symbols lines i)

/-- What one pass reports on numbered lines, by index. -/
theorem filterMap_numbered (view : Line → Option Issue) {lines : List Line} {n : Nat}
    (h : lines.length ≤ n) :
    (numbered lines).filterMap (fun p => (view p.1).map (⟨p.2, ·⟩)) =
      (List.range n).flatMap fun i => Diagnostic.ofIssues (i + 1) (lines[i]?.bind view).toList := by
  suffices hshift : ∀ k, (lines.zipIdx k).filterMap (fun p => (view p.1).map (⟨p.2, ·⟩)) =
      (List.range n).flatMap fun i => Diagnostic.ofIssues (i + k) (lines[i]?.bind view).toList by
    exact hshift 1
  induction lines generalizing n with
  | nil => intro k; simp [Diagnostic.ofIssues]
  | cons line rest ih =>
      intro k
      obtain ⟨m, rfl⟩ : ∃ m, n = m + 1 := ⟨n - 1, by rw [List.length_cons] at h; omega⟩
      rw [List.zipIdx_cons, List.filterMap_cons, ih (by simpa using h), List.range_succ_eq_map,
        List.flatMap_cons, List.flatMap_map]
      simp only [List.getElem?_cons_zero, List.getElem?_cons_succ, Option.bind_some, Nat.zero_add,
        Nat.succ_eq_add_one, Nat.add_assoc, Nat.add_comm 1 k]
      cases view line <;> rfl

/-- A program has no more lines than its source. -/
theorem length_program_le (lines : List Line) : (program lines).length ≤ lines.length :=
  (List.takeWhile_sublist _).length_le

/-- **The diagnostics of an assembly** are the issues of its lines, one line after the other. -/
theorem diagnostics_eq_lineReports {policy : BlankLines} {lines : List Line} {a : Assembly}
    (h : assembleLines policy lines = .ok a) : a.diagnostics = lineReports a.symbols lines := by
  obtain ⟨-, rfl⟩ := assembleLines_eq_ok_iff.mp h
  have hlabels := filterMap_numbered Line.labelIssue? (Nat.le_refl lines.length)
  have hreports := filterMap_numbered (Line.issue? (symbolsOf policy lines))
    (length_program_le lines)
  show Diagnostic.sortByLine ((numbered lines).filterMap _ ++
    (numbered (program lines)).filterMap _) = _
  rw [hlabels, hreports]
  exact Diagnostic.sortByLine_flatMap _ _ List.pairwise_lt_range

/-- To choose among the reports of all lines is to choose among the issues of each line. -/
theorem filter_lineReports (keep : Diagnostic → Bool) (symbols : SymbolTable) (lines : List Line) :
    (lineReports symbols lines).filter keep =
      (List.range lines.length).flatMap fun i => Diagnostic.ofIssues (i + 1)
        ((issuesAt symbols lines i).filter fun issue => keep ⟨i + 1, issue⟩) := by
  unfold lineReports Diagnostic.ofIssues
  simp only [List.filter_flatMap, List.filter_map]
  rfl

/-! ## The diagnostics of the first lines and of one line -/

/-- The program of the first lines is the first lines of the program. -/
theorem program_take (lines : List Line) (k : Nat) :
    program (lines.take k) = (program lines).take k :=
  List.take_takeWhile.symm

/-- What is reported of a line does not depend on the lines behind it. -/
theorem issuesAt_take (symbols : SymbolTable) (lines : List Line) {i k : Nat} (h : i < k) :
    issuesAt symbols (lines.take k) i = issuesAt symbols lines i := by
  unfold issuesAt
  rw [program_take, List.getElem?_take_of_lt h, List.getElem?_take_of_lt h]

/-- The reports of the lines go on behind those of the first `k` lines with greater numbers. -/
theorem lineReports_split (symbols : SymbolTable) (lines : List Line) (k : Nat) :
    ∃ later, lineReports symbols lines = lineReports symbols (lines.take k) ++ later ∧
      ∀ d ∈ later, k < d.line := by
  have hrange : List.range lines.length = List.range (lines.take k).length ++
      (List.range (lines.length - k)).map ((lines.take k).length + ·) := by
    rw [← List.range_add, List.length_take]
    congr 1
    omega
  refine ⟨((List.range (lines.length - k)).map ((lines.take k).length + ·)).flatMap fun i =>
    Diagnostic.ofIssues (i + 1) (issuesAt symbols lines i), ?_, ?_⟩
  · unfold lineReports
    rw [hrange, List.flatMap_append]
    congr 1
    refine List.flatMap_congr fun i hi => ?_
    have hlt : i < k := by
      have := List.mem_range.mp hi
      rw [List.length_take] at this
      omega
    rw [issuesAt_take symbols lines hlt]
  · intro d hd
    obtain ⟨i, hi, hd⟩ := List.mem_flatMap.mp hd
    obtain ⟨j, hj, rfl⟩ := List.mem_map.mp hi
    have hj := List.mem_range.mp hj
    rw [Diagnostic.line_of_mem_ofIssues hd, List.length_take]
    omega

/-- Reports of some lines have the numbers of these lines. -/
theorem line_le_of_mem_lineReports {symbols : SymbolTable} {lines : List Line} {d : Diagnostic}
    (h : d ∈ lineReports symbols lines) : 1 ≤ d.line ∧ d.line ≤ lines.length := by
  obtain ⟨i, hi, hd⟩ := List.mem_flatMap.mp h
  have hi := List.mem_range.mp hi
  rw [Diagnostic.line_of_mem_ofIssues hd]
  omega

/-- Both passes report on lines of the text only. -/
theorem line_le_of_emit {policy : BlankLines} {lines : List Line} {emission : Emission}
    (h : emit policy (symbolsOf policy lines) lines = .ok emission) {d : Diagnostic}
    (hd : d ∈ labelDiagnostics (numbered lines) ++ emission.diagnostics) :
    1 ≤ d.line ∧ d.line ≤ lines.length := by
  have hrun := assembleLines_eq_map policy lines
  rw [h] at hrun
  have hreports := diagnostics_eq_lineReports hrun
  apply line_le_of_mem_lineReports
  rw [← hreports]
  exact (Diagnostic.sortByLine_perm _).mem_iff.mpr hd

/-- A diagnostic of an assembly is about a label, or the second pass found it on a line in front of
the end. -/
theorem origin_of_mem_diagnostics {policy : BlankLines} {lines : List Line} {a : Assembly}
    (h : assembleLines policy lines = .ok a) {d : Diagnostic} (hd : d ∈ a.diagnostics) :
    (∃ label, d.issue = .invalidLabel label) ∨
      ∃ i line, d.line = i + 1 ∧ (program lines)[i]? = some line ∧
        line.issue? a.symbols = some d.issue := by
  have hreport := hd
  rw [diagnostics_eq_lineReports h] at hreport
  obtain ⟨i, -, hi⟩ := List.mem_flatMap.mp hreport
  obtain ⟨issue, -, rfl⟩ := List.mem_map.mp hi
  rcases (mem_diagnostics_iff h).mp hd with ⟨line, -, hissue⟩ | ⟨line, hline, hissue⟩
  · exact .inl (Line.labelIssue?_eq_some hissue)
  · exact .inr ⟨i, line, rfl, hline, hissue⟩

/-- The reports up to line `k` are the reports of the first `k` lines. -/
theorem filter_line_le (symbols : SymbolTable) (lines : List Line) (k : Nat) :
    (lineReports symbols lines).filter (fun d => decide (d.line ≤ k)) =
      lineReports symbols (lines.take k) := by
  obtain ⟨later, hsplit, hlater⟩ := lineReports_split symbols lines k
  have hfirst : ∀ d ∈ lineReports symbols (lines.take k), decide (d.line ≤ k) = true := by
    intro d hd
    have := (line_le_of_mem_lineReports hd).2
    rw [List.length_take] at this
    exact decide_eq_true (by omega)
  have hnone : ∀ d ∈ later, ¬ decide (d.line ≤ k) = true := by
    intro d hd
    have := hlater d hd
    simpa using this
  rw [hsplit, List.filter_append, List.filter_eq_self.mpr hfirst, List.filter_eq_nil_iff.mpr hnone,
    List.append_nil]

/-- The reports with the number of a line are the issues of that line. -/
theorem filter_line_eq (symbols : SymbolTable) {lines : List Line} {i : Nat}
    (h : i < lines.length) :
    (lineReports symbols lines).filter (fun d => decide (d.line = i + 1)) =
      Diagnostic.ofIssues (i + 1) (issuesAt symbols lines i) := by
  have hindex : (List.range lines.length).filter (fun j => decide (j + 1 = i + 1)) = [i] := by
    simp only [Nat.add_right_cancel_iff]
    rw [List.filter_eq, List.count_eq_one_of_mem List.nodup_range (List.mem_range.mpr h)]
    rfl
  unfold lineReports
  rw [Diagnostic.filter_flatMap_ofIssues (fun number => decide (number = i + 1)), hindex]
  simp

end BasicComputer
