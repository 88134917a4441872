import Mathlib.Data.List.DropRight
import BasicComputer.Proofs.Passes

/-!
# All addresses in closed form

The location counter is threaded through the lines, but its value at a line can be told without
running a pass: it is the place where the last `ORG` in front of the line put it, plus the number
of lines since then that took an address, modulo `2 ^ 16`.

* **The base** (`BlankLines.base`) and **the distance** (`BlankLines.distance`): the two summands.
  A pass enters only through the function `target` that says where an `ORG` line moves its counter.
* **One more line** (`base_concat_*`, `distance_concat_*`): either it moves the counter, and then
  it is the new base at distance 0, or the base stays and the distance grows by one if the line
  takes an address.
* **The closed form** (`BlankLines.behind_eq_closedForm`), by induction from the last line.

`addresses_in_closed_form` puts both passes together: every definition and every entry of an
assembly, in order, with its address.
-/

namespace BasicComputer

namespace BlankLines

/-- Whether a line moves the counter on by one: any line but an `ORG` does, or where blank lines
are skipped, any line but an `ORG` and a blank one. -/
def advances (policy : BlankLines) (line : Line) : Bool :=
  match policy with
  | advance => !line.isOrg
  | skip => !line.isOrg && !line.isBlank

/-- Where the last of some lines that moves the counter puts it; 0 if none of them does. -/
def base (target : Line → Option Word) (lines : List Line) : Word :=
  (lines.filterMap target).getLast?.getD 0

/-- How many lines behind the last one that moves the counter take an address. -/
def distance (policy : BlankLines) (target : Line → Option Word) (lines : List Line) : Nat :=
  (lines.rtakeWhile fun line => (target line).isNone).countP policy.advances

/-- The address behind some lines: base plus distance, in 16 bits. -/
def closedForm (policy : BlankLines) (target : Line → Option Word) (lines : List Line) : Word :=
  BitVec.ofNat 16 ((base target lines).toNat + policy.distance target lines)

/-! ## One more line -/

section concat

variable (policy : BlankLines) {target : Line → Option Word} {line : Line}

/-- A line that moves the counter is the new base. -/
theorem base_concat_of_some {address : Word} (h : target line = some address)
    (front : List Line) : base target (front ++ [line]) = address := by
  unfold base
  rw [List.filterMap_append, List.filterMap_cons_some h, List.filterMap_nil,
    List.getLast?_concat]
  rfl

/-- Any other line leaves the base. -/
theorem base_concat_of_none (h : target line = none) (front : List Line) :
    base target (front ++ [line]) = base target front := by
  unfold base
  rw [List.filterMap_append, List.filterMap_cons_none h, List.filterMap_nil, List.append_nil]

/-- Behind a line that moves the counter the distance is 0. -/
theorem distance_concat_of_some {address : Word} (h : target line = some address)
    (front : List Line) : policy.distance target (front ++ [line]) = 0 := by
  unfold distance
  rw [List.rtakeWhile_concat_neg _ _ _ (by simp [h])]
  rfl

/-- Any other line adds to the distance if it advances. -/
theorem distance_concat_of_none (h : target line = none) (front : List Line) :
    policy.distance target (front ++ [line]) =
      policy.distance target front + if policy.advances line then 1 else 0 := by
  unfold distance
  rw [List.rtakeWhile_concat_pos _ _ _ (by simp [h]), List.countP_append, List.countP_singleton]

/-- A line that is no `ORG`, and an `ORG` that says nothing, move the counter only by advancing. -/
theorem next_of_none (h : target line = none) (counter : Word) :
    policy.next line (target line) counter =
      counter + BitVec.ofNat 16 (if policy.advances line then 1 else 0) := by
  rw [h, next, takesAddress]
  cases policy with
  | advance => cases horg : line.isOrg <;> simp [advances, horg]
  | skip =>
      cases horg : line.isOrg with
      | true => simp [advances, horg]
      | false => cases hblank : line.isBlank <;> simp [advances, horg, hblank]

/-- An `ORG` that says where to go moves the counter there. -/
theorem next_of_some {address : Word} (h : target line = some address) (horg : line.isOrg = true)
    (counter : Word) : policy.next line (target line) counter = address := by
  rw [h, next, if_pos horg]
  rfl

end concat

/-- **The counter in closed form.** Where only `ORG` lines move the counter, it is the base plus
the distance. -/
theorem behind_eq_closedForm (policy : BlankLines) {target : Line → Option Word}
    (htarget : ∀ line, line.isOrg = false → target line = none) (lines : List Line) :
    policy.behind target 0 lines = policy.closedForm target lines := by
  unfold closedForm
  induction lines using List.reverseRecOn with
  | nil => rfl
  | append_singleton front line ih =>
      rw [behind_concat]
      rcases hline : target line with _ | address
      · rw [← hline, next_of_none policy hline, ih, base_concat_of_none hline,
          distance_concat_of_none policy hline, ← BitVec.ofNat_add, Nat.add_assoc]
      · have horg : line.isOrg = true := by
          by_contra hnot
          rw [htarget line (by simpa using hnot)] at hline
          exact nomatch hline
        rw [← hline, next_of_some policy hline horg, base_concat_of_some hline,
          distance_concat_of_some policy hline, Nat.add_zero, BitVec.ofNat_toNat,
          BitVec.setWidth_eq]

/-- An `ORG` that says nothing leaves the address as it is. -/
theorem closedForm_concat_of_none (policy : BlankLines) {target : Line → Option Word} {line : Line}
    (horg : line.isOrg = true) (h : target line = none) (front : List Line) :
    policy.closedForm target (front ++ [line]) = policy.closedForm target front := by
  have hstays : policy.advances line = false := by cases policy <;> simp [advances, horg]
  unfold closedForm
  rw [base_concat_of_none h, distance_concat_of_none policy h, hstays]
  rfl

end BlankLines

/-- The counter of the first pass in closed form. -/
theorem firstCounter_eq_closedForm (policy : BlankLines) (lines : List Line) (i : Nat) :
    firstCounter policy lines i = policy.closedForm Line.literalTarget? (lines.take i) :=
  policy.behind_eq_closedForm (fun _ => Line.literalTarget?_of_not_isOrg) _

/-- The counter of the second pass in closed form. -/
theorem secondCounter_eq_closedForm (policy : BlankLines) (lines : List Line) (i : Nat) :
    secondCounter policy lines i =
      policy.closedForm (Line.resolvedTarget? (symbolsOf policy lines)) (lines.take i) :=
  policy.behind_eq_closedForm (fun _ => Line.resolvedTarget?_of_not_isOrg _) _

/-! ## Every address of an assembly -/

/-- The lines of the program are the first lines of the source. -/
theorem getElem?_program_of_lt {lines : List Line} {i : Nat} (h : i < (program lines).length) :
    (program lines)[i]? = lines[i]? := by
  have hsome : (program lines)[i]? = some (program lines)[i] := List.getElem?_eq_getElem h
  rw [hsome, (getElem?_program_eq_some_iff.mp hsome).1]

/-- **All addresses of an assembly.** The definitions are, in order, those of the lines of the
whole text that are no `ORG` and have a label of three characters; the entries are, in order,
those of the lines in front of the end that emit a word. Each has its address in closed form,
over the lines in front of its own: a definition with the `ORG` lines as they read without
symbols, an entry with the `ORG` lines as they read with them. An `ORG` line that says nothing to
a pass does not move the counter of that pass. -/
theorem addresses_in_closed_form {policy : BlankLines} {source : String} {a : Assembly}
    (h : assemble policy source = .ok a) :
    let lines := sourceLines source
    (a.symbols.toList =
      (List.range lines.length).filterMap fun i => do
        let line ← lines[i]?
        let label ← line.label?
        if line.isOrg = false ∧ label.length = 3 then
          some ⟨label, policy.closedForm Line.literalTarget? (lines.take i)⟩
        else none) ∧
    (a.listing.entries =
      (List.range (program lines).length).filterMap fun i => do
        let line ← lines[i]?
        let word ← line.word? a.symbols
        some ⟨policy.closedForm (Line.resolvedTarget? a.symbols) (lines.take i), word⟩) ∧
    ∀ i label operand, lines[i]? = some (.statement label (.org operand)) →
      ((∀ token, operand = some token → Numeral.word? token = none) →
        policy.closedForm Line.literalTarget? (lines.take (i + 1)) =
          policy.closedForm Line.literalTarget? (lines.take i)) ∧
      ((∀ token, operand = some token → a.symbols.target? token = none) →
        policy.closedForm (Line.resolvedTarget? a.symbols) (lines.take (i + 1)) =
          policy.closedForm (Line.resolvedTarget? a.symbols) (lines.take i)) := by
  intro lines
  obtain ⟨-, rfl⟩ := assembleLines_eq_ok_iff.mp h
  refine ⟨?_, ?_, ?_⟩
  · show (symbolsOf policy lines).toList = _
    rw [toList_symbolsOf]
    refine List.filterMap_congr fun i _ => ?_
    rw [definitionAt?, firstCounter_eq_closedForm]
    cases lines[i]? with
    | none => rfl
    | some line =>
        show line.symbolName?.map _ = line.label?.bind _
        rw [Line.symbolName?_eq_bind]
        cases line.label? with
        | none => rfl
        | some label =>
            by_cases hdefines : line.isOrg = false ∧ label.length = 3
            · simp [hdefines]
            · simp [hdefines]
  · refine List.filterMap_congr fun i hi => ?_
    rw [entryAt?, secondCounter_eq_closedForm, getElem?_program_of_lt (List.mem_range.mp hi)]
    cases lines[i]? with
    | none => rfl
    | some line =>
        show Option.map _ (line.word? (symbolsOf policy lines)) =
          (line.word? (symbolsOf policy lines)).bind _
        cases line.word? (symbolsOf policy lines) <;> rfl
  · intro i label operand hline
    have htake : lines.take (i + 1) = lines.take i ++ [.statement label (.org operand)] := by
      rw [List.take_add_one, hline]
      rfl
    rw [htake]
    refine ⟨fun hnone => ?_, fun hnone => ?_⟩
    · refine policy.closedForm_concat_of_none rfl ?_ _
      exact Option.bind_eq_none_iff.mpr hnone
    · refine policy.closedForm_concat_of_none rfl ?_ _
      exact Option.bind_eq_none_iff.mpr hnone

/-- A text with a counter that wraps, a skipped blank line, an `ORG` that fails, an `ORG` through
a symbol that also reads as a number, and a label behind the end. -/
theorem addresses_in_closed_form_of_wrapping :
    ∃ a, assemble .skip
        "ORG FFFF\nAAA, HLT\n\nBBB, LDA AAA\nXXX, ORG ZZ\nORG BBB\nCMA\nEND\nCCC, HLT" = .ok a ∧
      a.symbols.toList = [⟨"AAA", 0xFFFF⟩, ⟨"BBB", 0x0000⟩, ⟨"CCC", 0x0BBD⟩] ∧
      a.listing.entries = [⟨0xFFFF, 0x7001⟩, ⟨0x0000, 0x1FFF⟩, ⟨0x0000, 0x7200⟩] := by
  have hrun : assemble .skip
      "ORG FFFF\nAAA, HLT\n\nBBB, LDA AAA\nXXX, ORG ZZ\nORG BBB\nCMA\nEND\nCCC, HLT" =
        .ok {
          listing := ⟨[⟨0xFFFF, 0x7001⟩, ⟨0x0000, 0x1FFF⟩, ⟨0x0000, 0x7200⟩]⟩
          symbols := .ofList [⟨"AAA", 0xFFFF⟩, ⟨"BBB", 0x0000⟩, ⟨"CCC", 0x0BBD⟩]
          diagnostics := [⟨4, .operandOverflow "LDA" 0xFFFF⟩, ⟨5, .undefinedSymbol "ZZ"⟩,
            ⟨6, .orgThroughSymbol "BBB" 0x0000⟩] } := by
    decide +kernel
  obtain ⟨hsymbols, hentries, -⟩ := addresses_in_closed_form hrun
  refine ⟨_, hrun, ?_, ?_⟩
  · rw [hsymbols]
    decide +kernel
  · rw [hentries]
    decide +kernel

end BasicComputer
