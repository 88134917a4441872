import BasicComputer.Proofs.InstructionWords
import BasicComputer.Proofs.Reports

/-!
# What later lines can change

Text that is added behind a line acts on that line through forward references, through labels that
are defined again, and through labels behind the end. All of these are symbols, and symbols are the
only way: two texts that begin with the same lines, and whose symbols explain the operands of these
lines alike, come to the same on these lines.

* **One line** (`Line.outcome_congr`): an outcome depends on the symbols only through the operand.
* **A run** (`emitFrom_congr`, `lineReports_congr`): so does what the second pass makes of some
  lines, and so do the reports of these lines.
* **The first lines of a run** (`emit_take`): the second pass over a program is the second pass over
  its first lines, and then over the others. When the first lines hold the end, there are no others
  (`emit_take_of_stop`).
* **Appended lines** (`BeginAlike.append`): symbols that are not mentioned earlier leave the
  earlier operands as they were.
-/

namespace BasicComputer

/-! ## Symbols that explain a line alike -/

/-- **The outcome of a line** depends on the symbols only through the address of its operand. -/
theorem Line.outcome_congr {first second : SymbolTable} {line : Line}
    (h : ∀ token, line.operand? = some token → first.resolve token = second.resolve token) :
    line.outcome first = line.outcome second := by
  cases line with
  | blank => rfl
  | labelOnly label => rfl
  | statement label body =>
      have hoperand : body.operand?.map first.operand = body.operand?.map second.operand := by
        refine Option.map_congr fun token htoken => ?_
        rw [SymbolTable.operand, SymbolTable.operand, h token htoken]
      unfold outcome
      simp only [hoperand]

/-- The second pass depends on the symbols only through the outcomes of its lines. -/
theorem emitFrom_congr (policy : BlankLines) {first second : SymbolTable} (counter : Word)
    {lines : List (Line × Nat)} (h : ∀ p ∈ lines, p.1.outcome first = p.1.outcome second) :
    emitFrom policy first counter lines = emitFrom policy second counter lines := by
  induction lines generalizing counter with
  | nil => rfl
  | cons p rest ih =>
      obtain ⟨hp, hrest⟩ := List.forall_mem_cons.mp h
      obtain ⟨line, number⟩ := p
      cases houtcome : line.outcome second with
      | error fault =>
          rw [emitFrom_cons_of_error houtcome, emitFrom_cons_of_error (hp.trans houtcome)]
      | ok outcome =>
          rw [emitFrom_cons_of_ok houtcome, emitFrom_cons_of_ok (hp.trans houtcome), ih _ hrest]

/-- Lines with the same outcomes under two tables have the same reports. -/
theorem lineReports_congr {first second : SymbolTable} {lines : List Line}
    (h : ∀ line ∈ lines, line.outcome first = line.outcome second) :
    lineReports first lines = lineReports second lines := by
  refine List.flatMap_congr fun i _ => ?_
  unfold issuesAt
  cases hline : (program lines)[i]? with
  | none => rfl
  | some line =>
      have hmem : line ∈ lines :=
        List.mem_of_getElem? (getElem?_program_eq_some_iff.mp hline).1
      rw [Option.bind_some, Option.bind_some, Line.issue?, Line.issue?, h line hmem]

/-! ## The first lines of a run -/

/-- **The second pass over a program** is the second pass over its first `k` lines, and then over
what it reaches of the others. -/
theorem emit_take (policy : BlankLines) (symbols : SymbolTable) (lines : List Line) (k : Nat) :
    ∃ counter rest, emit policy symbols lines =
      (emit policy symbols (lines.take k)).bind fun first =>
        (emitFrom policy symbols counter rest).map first.append := by
  have hsplit : numbered (program lines) = numbered (program (lines.take k)) ++
      ((program lines).drop k).zipIdx (1 + (program (lines.take k)).length) := by
    conv => lhs; rw [← List.take_append_drop k (program lines)]
    rw [numbered, List.zipIdx_append, program_take]
    rfl
  rw [emit_eq_emitFrom_program, emit_eq_emitFrom_program, hsplit, emitFrom_append]
  exact ⟨_, _, rfl⟩

/-- The lines up to the end are all that the second pass reaches. -/
theorem program_take_of_stop {lines : List Line} {e k : Nat} {line : Line}
    (hline : lines[e]? = some line) (hstop : line.isStop = true) (he : e < k) :
    (program lines).length ≤ e ∧ program (lines.take k) = program lines := by
  have hlength : (program lines).length ≤ e := by
    rw [← List.getElem?_eq_none_iff]
    cases hprogram : (program lines)[e]? with
    | none => rfl
    | some line' =>
        obtain ⟨hline', hnot, -⟩ := getElem?_program_eq_some_iff.mp hprogram
        rw [hline] at hline'
        cases hline'
        rw [hstop] at hnot
        exact nomatch hnot
  refine ⟨hlength, ?_⟩
  rw [program_take, List.take_of_length_le (by omega)]

/-- The second pass does not see what stands behind an `END`. -/
theorem emit_take_of_stop (policy : BlankLines) (symbols : SymbolTable) {lines : List Line}
    {e k : Nat} {line : Line} (hline : lines[e]? = some line) (hstop : line.isStop = true)
    (he : e < k) : emit policy symbols (lines.take k) = emit policy symbols lines := by
  rw [emit_eq_emitFrom_program, emit_eq_emitFrom_program, (program_take_of_stop hline hstop he).2]

/-- There is no assembly exactly when the second pass stops. -/
theorem assembleLines_eq_error_iff_emit {policy : BlankLines} {lines : List Line} {fault : Fault} :
    assembleLines policy lines = .error fault ↔
      emit policy (symbolsOf policy lines) lines = .error fault := by
  rw [assembleLines_eq_map]
  cases emit policy (symbolsOf policy lines) lines <;> simp [Except.map]

/-- The listing of an assembly is what the second pass emits. -/
theorem exists_emit_of_ok {policy : BlankLines} {lines : List Line} {a : Assembly}
    (h : assembleLines policy lines = .ok a) :
    ∃ emission, emit policy (symbolsOf policy lines) lines = .ok emission ∧
      a.listing = ⟨emission.entries⟩ :=
  ⟨_, emit_of_assembleLines h, rfl⟩

/-- A fault in the first lines leaves no assembly. -/
theorem assembleLines_of_emit_take_error {policy : BlankLines} {lines : List Line} {k : Nat}
    {fault : Fault} (h : emit policy (symbolsOf policy lines) (lines.take k) = .error fault) :
    assembleLines policy lines = .error fault := by
  obtain ⟨counter, rest, hemit⟩ := emit_take policy (symbolsOf policy lines) lines k
  rw [assembleLines_eq_error_iff_emit, hemit, h]
  rfl

/-- The entries of the first lines stand at the beginning of the listing. -/
theorem exists_emit_take {policy : BlankLines} {lines : List Line} {a : Assembly}
    (h : assembleLines policy lines = .ok a) (k : Nat) :
    ∃ first later, emit policy (symbolsOf policy lines) (lines.take k) = .ok first ∧
      a.listing.entries = first.entries ++ later := by
  obtain ⟨counter, rest, htake⟩ := emit_take policy (symbolsOf policy lines) lines k
  obtain ⟨emission, hemit, hlisting⟩ := exists_emit_of_ok h
  rw [hemit] at htake
  cases hfirst : emit policy (symbolsOf policy lines) (lines.take k) with
  | error fault =>
      rw [hfirst] at htake
      exact nomatch htake
  | ok first =>
      rw [hfirst, Except.bind] at htake
      cases hrest : emitFrom policy (symbolsOf policy lines) counter rest with
      | error fault =>
          rw [hrest] at htake
          exact nomatch htake
      | ok second =>
          rw [hrest] at htake
          cases htake
          exact ⟨first, second.entries, rfl, congrArg Listing.entries hlisting⟩

/-! ## Programs that begin alike -/

/-- Two programs share their first `k` lines, and their symbols explain the operands of these lines
alike. -/
structure BeginAlike (policy : BlankLines) (k : Nat) (left right : List Line) : Prop where
  shared : left.take k = right.take k
  resolved : ∀ line ∈ left.take k, ∀ token, line.operand? = some token →
    (symbolsOf policy left).resolve token = (symbolsOf policy right).resolve token

namespace BeginAlike

variable {policy : BlankLines} {k : Nat} {left right : List Line}

/-- A line of the common beginning has the same outcome in both programs. -/
theorem outcome_eq (h : BeginAlike policy k left right) {line : Line} (hline : line ∈ left.take k) :
    line.outcome (symbolsOf policy left) = line.outcome (symbolsOf policy right) :=
  Line.outcome_congr (h.resolved line hline)

/-- The second pass comes to the same on the shared lines: the same fault, or the same words and
reports. -/
theorem emit_eq (h : BeginAlike policy k left right) :
    emit policy (symbolsOf policy left) (left.take k) =
      emit policy (symbolsOf policy right) (right.take k) := by
  rw [← h.shared, emit_eq_emitFrom_program, emit_eq_emitFrom_program]
  refine emitFrom_congr policy 0 fun p hp => h.outcome_eq ?_
  exact mem_of_mem_program (List.fst_mem_of_mem_zipIdx hp)

/-- The shared lines have the same reports, sorted as they are. -/
theorem diagnostics_eq (h : BeginAlike policy k left right) {a b : Assembly}
    (ha : assembleLines policy left = .ok a) (hb : assembleLines policy right = .ok b) :
    a.diagnostics.filter (fun d => decide (d.line ≤ k)) =
      b.diagnostics.filter (fun d => decide (d.line ≤ k)) := by
  rw [diagnostics_eq_lineReports ha, diagnostics_eq_lineReports hb, filter_line_le, filter_line_le,
    ← h.shared]
  obtain ⟨-, rfl⟩ := assembleLines_eq_ok_iff.mp ha
  obtain ⟨-, rfl⟩ := assembleLines_eq_ok_iff.mp hb
  exact lineReports_congr fun line hline => h.outcome_eq hline

/-- Shared lines that hold the end are all that the second pass reaches. -/
theorem emit_eq_of_stop (h : BeginAlike policy k left right) {e : Nat} {line : Line}
    (hline : left[e]? = some line) (hstop : line.isStop = true) (he : e < k) :
    right[e]? = some line ∧
      emit policy (symbolsOf policy left) left = emit policy (symbolsOf policy right) right := by
  have hright : right[e]? = some line := by
    rw [← List.getElem?_take_of_lt he, ← h.shared, List.getElem?_take_of_lt he, hline]
  refine ⟨hright, ?_⟩
  rw [← emit_take_of_stop policy _ hline hstop he, ← emit_take_of_stop policy _ hright hstop he]
  exact h.emit_eq

end BeginAlike

/-- Behind the end nothing but labels is reported. -/
theorem invalidLabel_of_stop {policy : BlankLines} {lines : List Line} {a : Assembly}
    (h : assembleLines policy lines = .ok a) {e : Nat} {line : Line}
    (hline : lines[e]? = some line) (hstop : line.isStop = true) {d : Diagnostic}
    (hd : d ∈ a.diagnostics) (he : e < d.line) : ∃ label, d.issue = .invalidLabel label := by
  rcases origin_of_mem_diagnostics h hd with hlabel | ⟨i, line', hi, hline', -⟩
  · exact hlabel
  · -- the second pass does not get past an end
    have hlength := (program_take_of_stop hline hstop (Nat.lt_succ_self e)).1
    have hlt := (List.getElem?_eq_some_iff.mp hline').1
    omega

/-! ## Appended lines -/

/-- Every definition of some lines is the definition of one of them. -/
theorem mem_definitionsFrom {policy : BlankLines} {counter : Word} {lines : List Line} {s : Symbol}
    (h : s ∈ definitionsFrom policy counter lines) :
    ∃ line ∈ lines, line.symbolName? = some s.name := by
  have hname : s.name ∈ (definitionsFrom policy counter lines).map (·.name) :=
    List.mem_map_of_mem h
  rw [map_name_definitionsFrom] at hname
  exact List.mem_filterMap.mp hname

/-- Definitions of other names leave the address of a name as it is. -/
theorem SymbolTable.resolve_ofList_append (definitions : List Symbol) {later : List Symbol}
    {name : String} (h : ∀ s ∈ later, s.name ≠ name) :
    (SymbolTable.ofList (definitions ++ later)).resolve name =
      (SymbolTable.ofList definitions).resolve name := by
  have hnone : later.filter (·.name = name) = [] := by
    refine List.filter_eq_nil_iff.mpr fun s hs => ?_
    simpa using h s hs
  rw [resolve_ofList, resolve_ofList, List.filter_append, hnone, List.append_nil]

/-- Later lines add their definitions behind the others. -/
theorem symbolsOf_append (policy : BlankLines) (lines later : List Line) :
    symbolsOf policy (lines ++ later) = .ofList (definitions policy lines ++
      definitionsFrom policy (policy.behind Line.literalTarget? 0 lines) later) := by
  rw [symbolsOf, definitions, definitionsFrom_append]
  rfl

/-- **Appended lines** whose labels are not operands of the lines in front leave these as they
were. -/
theorem BeginAlike.append (policy : BlankLines) {lines later : List Line}
    (h : ∀ line ∈ later, ∀ name, line.symbolName? = some name →
      ∀ earlier ∈ lines, earlier.operand? ≠ some name) :
    BeginAlike policy lines.length lines (lines ++ later) where
  shared := by simp
  resolved := by
    intro line hline token htoken
    rw [List.take_length] at hline
    rw [symbolsOf_append, SymbolTable.resolve_ofList_append]
    · rfl
    · rintro s hs rfl
      obtain ⟨line', hline', hname⟩ := mem_definitionsFrom hs
      exact h line' hline' s.name hname line hline htoken

/-- Appended lines only add to what an assembly holds, at its ends. -/
theorem assembleLines_append {policy : BlankLines} {lines later : List Line} {b : Assembly}
    (h : ∀ line ∈ later, ∀ name, line.symbolName? = some name →
      ∀ earlier ∈ lines, earlier.operand? ≠ some name)
    (hb : assembleLines policy (lines ++ later) = .ok b) :
    ∃ a, assembleLines policy lines = .ok a ∧ a.listing.entries <+: b.listing.entries ∧
      a.symbols.toList <+: b.symbols.toList ∧ a.diagnostics <+: b.diagnostics := by
  have hbegin := BeginAlike.append policy h
  obtain ⟨first, rest, hfirst, hentries⟩ := exists_emit_take hb lines.length
  have hsymbols : b.symbols = symbolsOf policy (lines ++ later) := by
    obtain ⟨-, rfl⟩ := assembleLines_eq_ok_iff.mp hb
    rfl
  rw [← hbegin.emit_eq, List.take_length] at hfirst
  have ha := assembleLines_eq_map policy lines
  rw [hfirst] at ha
  refine ⟨_, ha, ⟨rest, hentries.symm⟩, ?_, ?_⟩
  · rw [hsymbols, symbolsOf_append, SymbolTable.toList_ofList]
    refine ⟨definitionsFrom policy (policy.behind Line.literalTarget? 0 lines) later, ?_⟩
    exact congrArg (· ++ _) (SymbolTable.toList_ofList (definitions policy lines))
  · -- the reports of the lines in front are those up to their last line, and so a beginning
    obtain ⟨reports, hreports, -⟩ := lineReports_split b.symbols (lines ++ later) lines.length
    rw [diagnostics_eq_lineReports ha, diagnostics_eq_lineReports hb, hreports, List.take_left']
    · refine ⟨reports, congrArg (· ++ reports) ?_⟩
      rw [hsymbols]
      exact lineReports_congr fun line hline => hbegin.outcome_eq (by simpa using hline)
    · rfl

/-! ## Two assemblies -/

/-- **Later lines act through symbols only.** Let two texts begin alike. The second pass comes to
the same on the shared lines, and a fault there leaves both texts without an assembly. If both have
one, the words of the shared lines are the beginning of both listings, and the diagnostics up to the
last shared line are the same. If the shared lines hold the end, then both texts have an assembly or
neither has one, the listings are equal, and from the end on nothing but labels is reported.

In particular, appended lines whose labels are no earlier operands only add entries, definitions
and diagnostics behind those that were there. -/
theorem later_lines_act_through_symbols (policy : BlankLines) (left right : String) :
    let lines := sourceLines left
    let lines' := sourceLines right
    let first := fun k => emit policy (symbolsOf policy lines) (lines.take k)
    (∀ k, BeginAlike policy k lines lines' →
      first k = emit policy (symbolsOf policy lines') (lines'.take k) ∧
      (∀ fault, first k = .error fault →
        assemble policy left = .error fault ∧ assemble policy right = .error fault) ∧
      (∀ a b, assemble policy left = .ok a → assemble policy right = .ok b →
        (∃ emission later later', first k = .ok emission ∧
          a.listing.entries = emission.entries ++ later ∧
          b.listing.entries = emission.entries ++ later') ∧
        a.diagnostics.filter (fun d => decide (d.line ≤ k)) =
          b.diagnostics.filter (fun d => decide (d.line ≤ k))) ∧
      ∀ e line, lines[e]? = some line → line.isStop = true → e < k →
        (∀ fault, assemble policy left = .error fault ↔ assemble policy right = .error fault) ∧
        ∀ a b, assemble policy left = .ok a → assemble policy right = .ok b →
          a.listing = b.listing ∧
          ∀ d, d ∈ a.diagnostics ∨ d ∈ b.diagnostics → e < d.line →
            ∃ label, d.issue = .invalidLabel label) ∧
    ∀ later, lines' = lines ++ later →
      (∀ line ∈ later, ∀ name, line.symbolName? = some name →
        ∀ earlier ∈ lines, earlier.operand? ≠ some name) →
      ∀ b, assemble policy right = .ok b →
        ∃ a, assemble policy left = .ok a ∧ a.listing.entries <+: b.listing.entries ∧
          a.symbols.toList <+: b.symbols.toList ∧ a.diagnostics <+: b.diagnostics := by
  intro lines lines' first
  refine ⟨fun k h => ⟨h.emit_eq, fun fault hfault => ?_, fun a b ha hb => ?_, ?_⟩, ?_⟩
  · have hfault' := h.emit_eq.symm.trans hfault
    exact ⟨assembleLines_of_emit_take_error hfault, assembleLines_of_emit_take_error hfault'⟩
  · obtain ⟨emission, later, hfirst, hentries⟩ := exists_emit_take ha k
    obtain ⟨emission', later', hfirst', hentries'⟩ := exists_emit_take hb k
    cases (hfirst.symm.trans h.emit_eq).trans hfirst'
    exact ⟨⟨emission, later, later', hfirst, hentries, hentries'⟩, h.diagnostics_eq ha hb⟩
  · intro e line hline hstop he
    obtain ⟨hline', hemit⟩ := h.emit_eq_of_stop hline hstop he
    refine ⟨fun fault => ?_, fun a b ha hb => ⟨?_, ?_⟩⟩
    · rw [assemble, assemble, assembleLines_eq_error_iff_emit, assembleLines_eq_error_iff_emit,
        hemit]
    · obtain ⟨emission, hleft, hlisting⟩ := exists_emit_of_ok ha
      obtain ⟨emission', hright, hlisting'⟩ := exists_emit_of_ok hb
      cases (hleft.symm.trans hemit).trans hright
      rw [hlisting, hlisting']
    · rintro d (hd | hd) hlater
      · exact invalidLabel_of_stop ha hline hstop hd hlater
      · exact invalidLabel_of_stop hb hline' hstop hd hlater
  · intro later hlater hnames b hb
    rw [assemble, show sourceLines right = lines ++ later from hlater] at hb
    exact assembleLines_append hnames hb

/-- A forward reference to a symbol behind the end, in two texts that differ from there on, and a
text with one more line, whose label is new. -/
theorem later_lines_act_through_symbols_behind_end :
    let left := "LDA TOP I\nEND\nTOP, HLT\n"
    let right := "LDA TOP I\nEND\nTOP, HEX 7\nTO, CMA\n"
    let longer := "LDA TOP I\nEND\nTOP, HLT\nNEW, FOO\n"
    BeginAlike .advance 2 (sourceLines left) (sourceLines right) ∧
    (∃ a b, assemble .advance left = .ok a ∧ assemble .advance right = .ok b ∧
      a.listing = b.listing ∧ a.listing.size = 1 ∧
      ∀ d ∈ b.diagnostics, 1 < d.line → ∃ label, d.issue = .invalidLabel label) ∧
    ∃ a b, assemble .advance left = .ok a ∧ assemble .advance longer = .ok b ∧
      a.symbols.toList <+: b.symbols.toList := by
  intro left right longer
  have hfront : (sourceLines left).take 2 =
      [.statement none (.instruction .lda (some "TOP") true), .statement none .stop] := by
    decide +kernel
  have hbegin : BeginAlike .advance 2 (sourceLines left) (sourceLines right) := by
    refine ⟨by decide +kernel, ?_⟩
    rw [hfront]
    intro line hline token htoken
    rcases List.mem_pair.mp hline with rfl | rfl
    · cases htoken
      decide +kernel
    · exact nomatch htoken
  have hleft : assemble .advance left =
      .ok { listing := ⟨[⟨0, 0xA002⟩]⟩, symbols := .ofList [⟨"TOP", 2⟩], diagnostics := [] } := by
    decide +kernel
  have hright : assemble .advance right =
      .ok {
        listing := ⟨[⟨0, 0xA002⟩]⟩
        symbols := .ofList [⟨"TOP", 2⟩]
        diagnostics := [⟨4, .invalidLabel "TO"⟩] } := by
    decide +kernel
  have hlonger : assemble .advance longer =
      .ok {
        listing := ⟨[⟨0, 0xA002⟩]⟩
        symbols := .ofList [⟨"TOP", 2⟩, ⟨"NEW", 3⟩]
        diagnostics := [] } := by
    decide +kernel
  refine ⟨hbegin, ⟨_, _, hleft, hright, ?_⟩, ?_⟩
  · have hstop := ((later_lines_act_through_symbols .advance left right).1 2 hbegin).2.2.2 1
      (.statement none .stop) (by decide +kernel) rfl (by decide)
    obtain ⟨hlisting, hlabels⟩ := hstop.2 _ _ hleft hright
    exact ⟨hlisting, rfl, fun d hd => hlabels d (.inr hd)⟩
  · obtain ⟨a, ha, -, hsymbols, -⟩ := (later_lines_act_through_symbols .advance left longer).2
      [.statement (some "NEW") (.unknown "FOO" none)] (by decide +kernel)
      (by
        intro line hline name hname
        cases List.mem_singleton.mp hline
        have hnew : name = "NEW" := (Option.some.inj hname).symm
        subst hnew
        decide +kernel) _ hlonger
    exact ⟨a, _, ha, hlonger, hsymbols⟩

end BasicComputer
