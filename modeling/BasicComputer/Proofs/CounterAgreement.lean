import Mathlib.Data.List.DropRight
import BasicComputer.Proofs.Passes

/-!
# When the two passes agree on addresses

The first pass knows no symbols, so it moves its counter only by an `ORG` whose operand is a
number as it stands. The second pass looks for a symbol first. A token such as `ABC` or `100` can
be both, and a token such as `TOP` only one: at such a line the counters may part, and from there
on labels and words of one line have different addresses.

* **A detour** (`Line.isDetour`) is a line on which the second pass reports this.
  `Line.isDetour_org_iff` says when it does.
* **One line** (`Line.literalTarget?_eq_resolvedTarget?`): a line that is no detour says the same to
  both passes.
* **A run** (`behind_eq_of_no_detour`): counters that parted meet again at the next `ORG` with a
  number that is no detour (`Line.resynchronises`), so the counters agree wherever no detour came
  since the last such line. The induction goes from the last line backwards, as `sinceSync` does.

`location_counters_agree` states this for the passes of an assembly.
-/

namespace BasicComputer

/-! ## Detours -/

namespace Line

/-- Whether the second pass reports that a line moves the counter through a symbol. -/
def isDetour (symbols : SymbolTable) (line : Line) : Bool :=
  match line.issue? symbols with
  | some (.orgThroughSymbol _ _) => true
  | _ => false

/-- Whether a line puts both counters at one place: an `ORG` with a number that is no detour. -/
def resynchronises (symbols : SymbolTable) (line : Line) : Bool :=
  line.literalTarget?.isSome && !line.isDetour symbols

/-- A detour is a line that is reported for an `ORG` through a symbol. -/
theorem isDetour_iff {symbols : SymbolTable} {line : Line} :
    line.isDetour symbols = true ↔
      ∃ symbol address, line.issue? symbols = some (.orgThroughSymbol symbol address) := by
  unfold isDetour
  split
  · next symbol address h => exact ⟨fun _ => ⟨symbol, address, h⟩, fun _ => rfl⟩
  · next hother =>
    refine ⟨nofun, ?_⟩
    rintro ⟨symbol, address, h⟩
    exact absurd h (hother symbol address)

/-- **An `ORG` is a detour** exactly when its operand names a symbol whose address is not what the
name reads as a number, be it that the name reads as another number or as none. -/
theorem isDetour_org_iff {symbols : SymbolTable} {label operand : Option String} :
    (statement label (.org operand)).isDetour symbols = true ↔
      ∃ token address, operand = some token ∧ symbols.resolve token = some address ∧
        Numeral.word? token ≠ some address := by
  rw [isDetour_iff]
  exact exists_congr fun symbol => exists_congr fun address =>
    issue?_orgOutcome_eq_orgThroughSymbol_iff symbols operand symbol address

/-- **A line that is no detour says the same to both passes.** -/
theorem literalTarget?_eq_resolvedTarget? {symbols : SymbolTable} {line : Line}
    (h : line.isDetour symbols = false) :
    line.literalTarget? = line.resolvedTarget? symbols := by
  by_cases horg : line.isOrg = true
  · unfold isOrg at horg
    split at horg
    · next label operand =>
      cases operand with
      | none => rfl
      | some token =>
          show Numeral.word? token = (symbols.resolve token).or (Numeral.word? token)
          rcases hresolve : symbols.resolve token with _ | address
          · rfl
          · by_contra hne
            have hdetour : (statement label (.org (some token))).isDetour symbols = true :=
              isDetour_org_iff.mpr ⟨token, address, rfl, hresolve, hne⟩
            rw [h] at hdetour
            exact nomatch hdetour
    · exact nomatch horg
  · have hnot : line.isOrg = false := by simpa using horg
    rw [literalTarget?_of_not_isOrg hnot, resolvedTarget?_of_not_isOrg symbols hnot]

end Line

/-! ## Agreement behind some lines -/

/-- The lines behind the last one that resynchronises the counters; all if none does. -/
def sinceSync (symbols : SymbolTable) (lines : List Line) : List Line :=
  lines.rtakeWhile fun line => !line.resynchronises symbols

/-- A line that does not resynchronise the passes joins the lines since they last agreed. -/
theorem sinceSync_concat_of_not {symbols : SymbolTable} {line : Line}
    (h : line.resynchronises symbols = false) (front : List Line) :
    sinceSync symbols (front ++ [line]) = sinceSync symbols front ++ [line] :=
  List.rtakeWhile_concat_pos _ _ _ (by simp [h])

/-- **The counters agree where no detour came since the last line that resynchronises them.** -/
theorem behind_eq_of_no_detour (policy : BlankLines) (symbols : SymbolTable) {lines : List Line}
    (h : ∀ line ∈ sinceSync symbols lines, line.isDetour symbols = false) :
    policy.behind Line.literalTarget? 0 lines =
      policy.behind (Line.resolvedTarget? symbols) 0 lines := by
  induction lines using List.reverseRecOn with
  | nil => rfl
  | append_singleton front line ih =>
      rw [BlankLines.behind_concat, BlankLines.behind_concat]
      by_cases hsync : line.resynchronises symbols = true
      · -- whatever the counters were, both are now where the line says
        obtain ⟨hsome, hdetour⟩ := Bool.and_eq_true_iff.mp hsync
        obtain ⟨address, haddress⟩ := Option.isSome_iff_exists.mp hsome
        have horg : line.isOrg = true := by
          by_contra hnot
          rw [Line.literalTarget?_of_not_isOrg (by simpa using hnot)] at haddress
          exact nomatch haddress
        have htarget : line.literalTarget? = line.resolvedTarget? symbols :=
          Line.literalTarget?_eq_resolvedTarget? (by simpa using hdetour)
        rw [← htarget, haddress, BlankLines.next, BlankLines.next, if_pos horg, if_pos horg]
        rfl
      · -- the line is among those that are no detours, so both counters move alike
        rw [sinceSync_concat_of_not (by simpa using hsync)] at h
        have hline : line.isDetour symbols = false := h line (by simp)
        have hfront := ih fun line' hline' => h line' (List.mem_append_left [line] hline')
        rw [Line.literalTarget?_eq_resolvedTarget? hline, hfront]

/-! ## The counters of an assembly -/

/-- **The two passes agree on addresses.** Take a line that the second pass reaches. The passes go
on there with the counters `firstCounter` and `secondCounter`, and these are equal if no detour
came since the last line that resynchronises them; a label of the line and its word then have one
address. An `ORG` is a detour exactly when its operand names a symbol that stands elsewhere than
the name reads as a number, and the diagnostics report exactly the detours. -/
theorem location_counters_agree (policy : BlankLines) (source : String) (i : Nat)
    (hreached : ∀ line ∈ (sourceLines source).take i, line.isStop = false) :
    let lines := sourceLines source
    let symbols := symbolsOf policy lines
    let noDetour := ∀ line ∈ sinceSync symbols (lines.take i), line.isDetour symbols = false
    (definitions policy lines =
      definitions policy (lines.take i) ++
        definitionsFrom policy (firstCounter policy lines i) (lines.drop i)) ∧
    (emit policy symbols lines =
      (emitFrom policy symbols 0 (numbered (lines.take i))).bind fun first =>
        (emitFrom policy symbols (secondCounter policy lines i)
          (reached ((numbered lines).drop i))).map first.append) ∧
    (noDetour → firstCounter policy lines i = secondCounter policy lines i) ∧
    (∀ label operand, lines[i]? = some (.statement label (.org operand)) →
      ((Line.statement label (.org operand)).isDetour symbols = true ↔
        ∃ token address, operand = some token ∧ symbols.resolve token = some address ∧
          Numeral.word? token ≠ some address)) ∧
    ∀ a, assemble policy source = .ok a → ∀ line, lines[i]? = some line →
      ((∃ symbol address, ⟨i + 1, .orgThroughSymbol symbol address⟩ ∈ a.diagnostics) ↔
        line.isDetour symbols = true) ∧
      (noDetour → line.isOrg = false →
        ∀ name word, line.label? = some name → name.length = 3 → line.word? symbols = some word →
          ∃ address laterDefinitions earlier laterEntries,
            a.symbols.toList =
              definitions policy (lines.take i) ++ ⟨name, address⟩ :: laterDefinitions ∧
            emitFrom policy symbols 0 (numbered (lines.take i)) = .ok earlier ∧
            a.listing.entries = earlier.entries ++ ⟨address, word⟩ :: laterEntries) := by
  intro lines symbols noDetour
  have hcounters : noDetour → firstCounter policy lines i = secondCounter policy lines i :=
    behind_eq_of_no_detour policy symbols
  refine ⟨definitions_resume policy lines i, emit_resume policy hreached, hcounters,
    fun label operand _ => Line.isDetour_org_iff, fun a ha line hline => ⟨?_, ?_⟩⟩
  · obtain ⟨-, rfl⟩ := assembleLines_eq_ok_iff.mp ha
    rw [Line.isDetour_iff]
    refine exists_congr fun symbol => exists_congr fun address => ?_
    exact mem_diagnostics_iff_issue? ha hline hreached nofun
  · intro hdetour horg name word hname hlength hword
    have hsymbol : line.symbolName? = some name := by
      rw [Line.symbolName?_eq_bind, hname, Option.bind_some, if_pos ⟨horg, hlength⟩]
    have hprogram : (program lines)[i]? = some line :=
      getElem?_program_eq_some_iff.mpr ⟨hline, Line.not_isStop_of_word? hword, hreached⟩
    obtain ⟨-, rfl⟩ := assembleLines_eq_ok_iff.mp ha
    obtain ⟨laterDefinitions, hdefinitions⟩ := definitions_at hline hsymbol
    obtain ⟨earlier, laterEntries, hearlier, hentries⟩ := entries_at ha hprogram hword
    refine ⟨secondCounter policy lines i, laterDefinitions, earlier, laterEntries, ?_, hearlier,
      hentries⟩
    rw [← hcounters hdetour, ← hdefinitions]
    exact SymbolTable.toList_ofList _

/-- A text with a detour to `TOP`, on whose next line the counters differ, and an `ORG` with a
number behind it that brings them together again. -/
theorem location_counters_agree_behind_detour :
    let source := "AAA, HLT\nORG TOP\nCMA\nORG 200\nTOP, LDA AAA\n"
    let lines := sourceLines source
    (lines[1]?.any fun line => line.isDetour (symbolsOf .advance lines)) = true ∧
    firstCounter .advance lines 2 ≠ secondCounter .advance lines 2 ∧
    firstCounter .advance lines 4 = secondCounter .advance lines 4 := by
  refine ⟨by decide +kernel, by decide +kernel, ?_⟩
  refine (location_counters_agree .advance _ 4 (by decide +kernel)).2.2.1 ?_
  decide +kernel

end BasicComputer
