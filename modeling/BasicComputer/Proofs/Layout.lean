import BasicComputer.Listing.Read
import BasicComputer.Proofs.Passes
import BasicComputer.Proofs.Texts

/-!
# Layout and line endings do not matter

Three changes of a text leave what is made of it alone: carriage returns in front of all line
feeds, a line feed behind a last line that has none, and other blank characters around the same
tokens.

The cut into lines absorbs little of this by itself. It takes one carriage return off a closed line
and none off a last line that is not closed, so it leaves stray carriage returns behind. The readers
of lines have to do the rest, and each does it in its own way: a source line is cut into tokens,
and a line of a listing is trimmed on both sides of its colon.

* **Line endings** (`Text.map_lines_withReturns`, `Text.map_lines_withLastFeed`): whatever reads
  lines without noticing a carriage return at the end of a line reads the changed text alike. The
  number of lines stays, and so do the numbers of lines in diagnostics.
* **Stretches** (`assemble_eq_assembleLines_stretches`): a source is assembled like the stretches
  between its line feeds. There is one stretch more than there are lines where a text ends with a
  line feed, but a blank line at the end leaves no trace (`assembleLines_concat_blank`). So even a
  last line that is blank may come and go.
-/

namespace BasicComputer

namespace Text

/-! ## Other line endings -/

/-- The text with a carriage return in front of every line feed. -/
def withReturns (text : String) : String :=
  String.ofList (text.toList.flatMap fun c => if c = '\n' then ['\r', '\n'] else [c])

/-- The text with a line feed behind its last line, if that has none. -/
def withLastFeed (text : String) : String :=
  if text = "" ∨ text.toList.getLast? = some '\n' then text else text ++ "\n"

/-- The pieces of a text: every piece but the last is closed by a line feed. Where carriage returns
come in, they come to the ends of these pieces. -/
theorem exists_pieces (cs : List Char) :
    ∃ front last, cs.splitOnP (· == '\n') = front ++ [last] ∧
      cs = front.flatMap (· ++ ['\n']) ++ last ∧
      (cs.flatMap fun c => if c = '\n' then ['\r', '\n'] else [c]).splitOnP (· == '\n') =
        front.map (· ++ ['\r']) ++ [last] := by
  induction cs with
  | nil => exact ⟨[], [], rfl, rfl, rfl⟩
  | cons c cs ih =>
      obtain ⟨front, last, hpieces, htext, hreturns⟩ := ih
      by_cases hc : c = '\n'
      · subst hc
        refine ⟨[] :: front, last, ?_, ?_, ?_⟩
        · simp [List.splitOnP_cons_eq_if_modifyHead, hpieces]
        · simp [htext]
        · simp [List.splitOnP_cons_eq_if_modifyHead, hreturns]
      · -- the character goes to the first piece, which may be the last one too
        cases front with
        | nil =>
            refine ⟨[], c :: last, ?_, ?_, ?_⟩
            · simp [List.splitOnP_cons_eq_if_modifyHead, hpieces, hc]
            · simp [htext]
            · simp [List.splitOnP_cons_eq_if_modifyHead, hreturns, hc]
        | cons first front =>
            refine ⟨(c :: first) :: front, last, ?_, ?_, ?_⟩
            · simp [List.splitOnP_cons_eq_if_modifyHead, hpieces, hc]
            · simp [htext]
            · simp [List.splitOnP_cons_eq_if_modifyHead, hreturns, hc]

/-- A text that is closed by a line feed, or empty, is one whose last piece is empty. -/
theorem getLast?_flatMap_close {front : List (List Char)} {cs : List Char}
    (h : cs = front.flatMap (· ++ ['\n'])) : cs = [] ∨ cs.getLast? = some '\n' := by
  rcases List.eq_nil_or_concat front with rfl | ⟨start, piece, rfl⟩
  · exact .inl h
  · right
    simp [h]

/-! ## Readers that do not notice a carriage return -/

section readers

variable {α : Type} {f : String → α}

variable (hf : ∀ cs : List Char, f (String.ofList (cs ++ ['\r'])) = f (String.ofList cs))

include hf

/-- What is read from the lines of a text, by its pieces. -/
theorem map_lines_eq {text : String} {front : List (List Char)} {last : List Char}
    (h : text.toList.splitOnP (· == '\n') = front ++ [last]) :
    (Text.lines text).map f =
      front.map (fun line => f (String.ofList line)) ++
        if last = [] then [] else [f (String.ofList last)] := by
  have hclosed : ∀ line ∈ front, f (String.ofList (dropReturn line)) = f (String.ofList line) :=
    fun line _ => apply_dropReturn (f := fun cs => f (String.ofList cs)) hf line
  rw [Text.lines, h, closeLines_concat, List.map_map, List.map_append, List.map_map]
  congr 1
  · exact List.map_congr_left hclosed
  · split <;> rfl

/-- **Carriage returns in front of line feeds** change nothing that is read from the lines. -/
theorem map_lines_withReturns (text : String) :
    (Text.lines (withReturns text)).map f = (Text.lines text).map f := by
  obtain ⟨front, last, hpieces, -, hreturns⟩ := exists_pieces text.toList
  have hwith : (withReturns text).toList.splitOnP (· == '\n') =
      front.map (· ++ ['\r']) ++ [last] := by
    rw [withReturns, String.toList_ofList, hreturns]
  rw [map_lines_eq hf hpieces, map_lines_eq hf hwith, List.map_map]
  congr 1
  exact List.map_congr_left fun line _ => hf line

/-- **A line feed behind the last line** changes nothing that is read from the lines. -/
theorem map_lines_withLastFeed (text : String) :
    (Text.lines (withLastFeed text)).map f = (Text.lines text).map f := by
  unfold withLastFeed
  split
  · rfl
  · next hopen =>
    obtain ⟨hne, hfeed⟩ := not_or.mp hopen
    obtain ⟨front, last, hpieces, htext, -⟩ := exists_pieces text.toList
    have hlast : last ≠ [] := by
      rintro rfl
      rw [List.append_nil] at htext
      rcases getLast?_flatMap_close htext with hnil | hclosed
      · exact hne (String.toList_eq_nil_iff.mp hnil)
      · exact hfeed hclosed
    have hwith : (text ++ "\n").toList.splitOnP (· == '\n') = (front ++ [last]) ++ [[]] := by
      rw [String.toList_append, ← hpieces]
      exact List.splitOnP_append_cons text.toList [] rfl
    rw [map_lines_eq hf hpieces, map_lines_eq hf hwith, if_neg hlast]
    simp

end readers

/-! ## The same tokens between the same line feeds -/

/-- The stretches of a text between its line feeds. -/
def stretches (text : String) : List String :=
  (text.toList.splitOnP (· == '\n')).map String.ofList

/-- Two texts with the same tokens between the same line feeds. The blank characters around the
tokens may be any, and a carriage return is one of them. -/
def SameTokens (text other : String) : Prop :=
  (stretches text).map tokens = (stretches other).map tokens

instance (text other : String) : Decidable (SameTokens text other) :=
  inferInstanceAs (Decidable ((stretches text).map tokens = (stretches other).map tokens))

end Text

/-! ## Source texts -/

/-- A source line is cut into tokens, and a carriage return is no part of a token. -/
theorem Line.parse_concat_return (cs : List Char) :
    Line.parse (String.ofList (cs ++ ['\r'])) = Line.parse (String.ofList cs) := by
  rw [parse, parse, Text.tokens_concat_blank cs Text.isBlank_return]

/-- Carriage returns in front of line feeds change no line. -/
theorem sourceLines_withReturns (source : String) :
    sourceLines (Text.withReturns source) = sourceLines source :=
  Text.map_lines_withReturns Line.parse_concat_return source

/-- A line feed at the end changes no line. -/
theorem sourceLines_withLastFeed (source : String) :
    sourceLines (Text.withLastFeed source) = sourceLines source :=
  Text.map_lines_withLastFeed Line.parse_concat_return source

/-- The second pass makes nothing of a blank line at the end. -/
theorem emit_concat_blank (policy : BlankLines) (symbols : SymbolTable) (lines : List Line) :
    emit policy symbols (lines ++ [.blank]) = emit policy symbols lines := by
  rw [emit_eq_emitFrom_program, emit_eq_emitFrom_program, program, List.takeWhile_append]
  split
  · next hall =>
    have hbegin := List.takeWhile_prefix (l := lines) fun line => !line.isStop
    have hprogram : program lines = lines := hbegin.eq_of_length hall
    show emitFrom policy symbols 0 (numbered (lines ++ [.blank])) =
      emitFrom policy symbols 0 (numbered (program lines))
    rw [hprogram, numbered, List.zipIdx_append, emitFrom_append]
    show (emitFrom policy symbols 0 (numbered lines)).bind
      (fun first => .ok (first.append ⟨[], []⟩)) = _
    cases emitFrom policy symbols 0 (numbered lines) with
    | error fault => rfl
    | ok emission =>
        show Except.ok (emission.append ⟨[], []⟩) = _
        simp [Emission.append]
  · rfl

/-- **A blank line at the end of a program leaves no trace.** -/
theorem assembleLines_concat_blank (policy : BlankLines) (lines : List Line) :
    assembleLines policy (lines ++ [.blank]) = assembleLines policy lines := by
  have hsymbols : symbolsOf policy (lines ++ [.blank]) = symbolsOf policy lines := by
    rw [symbolsOf, definitions, definitionsFrom_append]
    show SymbolTable.ofList (definitionsFrom policy 0 lines ++ []) = _
    rw [List.append_nil]
    rfl
  have hlabels : labelDiagnostics (numbered (lines ++ [.blank])) =
      labelDiagnostics (numbered lines) := by
    rw [numbered, List.zipIdx_append, labelDiagnostics, List.filterMap_append]
    exact List.append_nil _
  rw [assembleLines_eq_map, assembleLines_eq_map, hsymbols, hlabels, emit_concat_blank]

/-- **A source is assembled like the stretches between its line feeds.** -/
theorem assemble_eq_assembleLines_stretches (policy : BlankLines) (source : String) :
    assemble policy source = assembleLines policy ((Text.stretches source).map Line.parse) := by
  obtain ⟨front, last, hpieces, -⟩ := Text.exists_pieces source.toList
  have hlines := Text.map_lines_eq Line.parse_concat_return hpieces
  rw [assemble, sourceLines, hlines, Text.stretches, hpieces, List.map_map, List.map_append]
  split
  · next hlast =>
    rw [hlast, List.append_nil]
    exact (assembleLines_concat_blank policy _).symm
  · rfl

/-- Sources with the same tokens have the same assembly. -/
theorem assemble_of_sameTokens (policy : BlankLines) {source other : String}
    (h : Text.SameTokens source other) : assemble policy other = assemble policy source := by
  have hparse : ∀ text, (Text.stretches text).map Line.parse =
      ((Text.stretches text).map Text.tokens).map Line.ofTokens := by
    intro text
    rw [List.map_map]
    rfl
  rw [assemble_eq_assembleLines_stretches, assemble_eq_assembleLines_stretches, hparse, hparse, h]

/-! ## Listings -/

/-- A line of a listing is trimmed behind its colon, and a line without a colon is nothing. -/
theorem Entry.ofLine?_concat_return (cs : List Char) :
    Entry.ofLine? (String.ofList (cs ++ ['\r'])) = Entry.ofLine? (String.ofList cs) := by
  have hfield : ∀ field, readField (field ++ ['\r']) = readField field := by
    intro field
    rw [readField, readField, Text.trim_concat_blank field Text.isBlank_return]
  unfold ofLine?
  rw [String.toList_ofList, String.toList_ofList, List.dropWhile_append]
  cases hcolon : cs.dropWhile (· ≠ ':') with
  | nil => rfl
  | cons colon value =>
      -- the colon stands in front of the carriage return, so the address is the same
      have haddress : (cs ++ ['\r']).takeWhile (· ≠ ':') = cs.takeWhile (· ≠ ':') := by
        have hlength := congrArg List.length
          (List.takeWhile_append_dropWhile (p := fun c => decide (c ≠ ':')) (l := cs))
        rw [hcolon, List.length_append, List.length_cons] at hlength
        rw [List.takeWhile_append, if_neg (by omega)]
      rw [haddress]
      simp [hfield]

/-- Lines that are read alike make up the same listing. -/
theorem Listing.readLines_congr {lines others : List String}
    (h : lines.map Entry.ofLine? = others.map Entry.ofLine?) (number : Nat) :
    readLines (lines.zipIdx number) = readLines (others.zipIdx number) := by
  induction lines generalizing others number with
  | nil => rw [List.map_eq_nil_iff.mp h.symm]
  | cons line rest ih =>
      obtain ⟨other, others, rfl, hline, hrest⟩ := List.map_eq_cons_iff.mp h.symm
      rw [List.zipIdx_cons, List.zipIdx_cons, readLines, readLines, ih hrest.symm, hline]

/-! ## Layout -/

/-- **Layout and line endings do not matter.** A source comes to the same assembly, or to the same
fault, with carriage returns in front of its line feeds, with a line feed behind its last line and
with other blank characters around its tokens. A listing is read alike with other line endings, with
the same entries and the same diagnostics on the same lines. -/
theorem layout_does_not_matter (policy : BlankLines) (source text : String) :
    (assemble policy (Text.withReturns source) = assemble policy source ∧
      assemble policy (Text.withLastFeed source) = assemble policy source ∧
      ∀ other, Text.SameTokens source other → assemble policy other = assemble policy source) ∧
    Listing.read (Text.withReturns text) = Listing.read text ∧
      Listing.read (Text.withLastFeed text) = Listing.read text := by
  refine ⟨⟨?_, ?_, ?_⟩, ?_, ?_⟩
  · rw [assemble, sourceLines_withReturns, assemble]
  · rw [assemble, sourceLines_withLastFeed, assemble]
  · intro other h
    exact assemble_of_sameTokens policy h
  · have hlines := Text.map_lines_withReturns Entry.ofLine?_concat_return text
    rw [Listing.read, Listing.readLines_congr hlines, Listing.read]
  · have hlines := Text.map_lines_withLastFeed Entry.ofLine?_concat_return text
    rw [Listing.read, Listing.readLines_congr hlines, Listing.read]

/-- A text in which the blank characters are others: one more carriage return at the end of a line,
an ideographic space, no indent, and no last line where there was a blank one. -/
theorem layout_does_not_matter_around_tokens :
    let source := "  ABC,\tLDA ABC\r\n\n AB, FOO\n \t"
    let other := "ABC,\u3000LDA\u00A0 ABC \r\r\n \r\nAB,\tFOO\n"
    Text.SameTokens source other ∧ assemble .advance other = .ok {
      listing := ⟨[⟨0x0000, 0x2000⟩]⟩
      symbols := .ofList [⟨"ABC", 0⟩]
      diagnostics := [⟨3, .invalidLabel "AB"⟩, ⟨3, .unknownMnemonic "FOO"⟩] } := by
  intro source other
  have hsame : Text.SameTokens source other := by decide +kernel
  refine ⟨hsame, ?_⟩
  rw [(layout_does_not_matter .advance source "").1.2.2 other hsame]
  decide +kernel

end BasicComputer
