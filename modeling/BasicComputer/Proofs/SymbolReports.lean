import BasicComputer.Proofs.CanonicalLines
import BasicComputer.Proofs.Logs

/-!
# What a symbol table and its report say

A table keeps its definitions twice, as a list for the report and as an index for resolving, and
`SymbolTable.define` grows both. So a table is determined by the definitions that were made, and
everything that it answers is a function of them: the list itself, the last definition of a name
(`SymbolTable.resolve_ofList`), the number of names (`SymbolTable.size_ofList`).

The report has a line for each definition. In general it does not tell where a name ends, but the
names of a program are labels of three characters without blank characters
(`isName_of_mem_definitions`). So its lines can be read (`Symbol.ofLine?_text`), and the report of
a program has all there is to know of its symbols (`SymbolTable.readReport?_render`).
-/

namespace BasicComputer

/-! ## Names -/

/-- The label of a well-formed line is one that parsing can give. -/
theorem Line.isLabel_of_label? {line : Line} {label : String} (h : line.WellFormed)
    (hlabel : line.label? = some label) : IsLabel label := by
  cases line with
  | blank => cases hlabel
  | labelOnly own =>
      cases hlabel
      exact h
  | statement own body => exact h.1 label hlabel

/-- A name that can be told from what is behind it in a report. -/
def Symbol.IsName (name : String) : Prop :=
  name.length = 3 ∧ ∀ c ∈ name.toList, Text.isBlank c = false ∧ c ≠ ','

/-- **The names of a program** have three characters, none of which is blank or a comma. -/
theorem isName_of_mem_definitions {policy : BlankLines} {source : String} {s : Symbol}
    (h : s ∈ definitions policy (sourceLines source)) : Symbol.IsName s.name := by
  have hname : s.name ∈ (sourceLines source).filterMap Line.symbolName? := by
    rw [← map_name_definitionsFrom policy 0]
    exact List.mem_map_of_mem h
  obtain ⟨line, hline, hsymbol⟩ := List.mem_filterMap.mp hname
  obtain ⟨text, -, rfl⟩ := List.mem_map.mp hline
  obtain ⟨hlabel, hlength⟩ := Line.symbolName?_eq_some hsymbol
  exact ⟨hlength, (Line.isLabel_of_label? (Line.wellFormed_parse text) hlabel).2⟩

/-! ## Lines of a report -/

namespace Symbol

/-- The digits of hexadecimal numerals in upper case. -/
def upperDigits : List Char := "0123456789ABCDEF".toList

/-- Reads a line of a report: a name of three characters, a space and a hexadecimal address in upper
case. -/
def ofLine? (line : String) : Option Symbol :=
  match line.toList.drop 3 with
  | ' ' :: digits =>
    if digits.all upperDigits.contains then
      (Numeral.word? (String.ofList digits)).map (⟨String.ofList (line.toList.take 3), ·⟩)
    else none
  | _ => none

/-- The text of a symbol is its name, a space and its address in hexadecimal. -/
theorem toList_text (s : Symbol) :
    s.text.toList = s.name.toList ++ ' ' :: Numeral.digits .hex s.address.toNat := by
  rw [text, String.toList_append, String.toList_append, Numeral.toList_hex, List.append_assoc]
  rfl

/-- Hexadecimal digits are written in upper case. -/
theorem upperDigits_digits (n : Nat) :
    (Numeral.digits .hex n).all upperDigits.contains = true := by
  rw [List.all_eq_true]
  exact Numeral.digits_forall (by decide +kernel) .hex n

/-- **A line of a report reads as its definition**, if the name can be told. -/
theorem ofLine?_text {s : Symbol} (h : IsName s.name) : ofLine? s.text = some s := by
  have hlength : s.name.toList.length = 3 := by
    rw [String.length_toList]
    exact h.1
  have hdigits : String.ofList (Numeral.digits .hex s.address.toNat) = Numeral.hex s.address := rfl
  unfold ofLine?
  rw [toList_text, List.drop_left' hlength, List.take_left' hlength]
  show (if (Numeral.digits .hex s.address.toNat).all upperDigits.contains then _ else none) = _
  rw [if_pos (upperDigits_digits s.address.toNat), hdigits, Numeral.word?_hex,
    String.ofList_toList]
  rfl

/-- The text of a symbol is one line. -/
theorem isLine_text {s : Symbol} (h : IsName s.name) : Text.IsLine s.text := by
  apply Text.isLine_of_eq_space_or
  intro c hc
  rw [toList_text, List.mem_append, List.mem_cons] at hc
  rcases hc with hname | hspace | hdigit
  · exact .inr (h.2 c hname).1
  · exact .inl hspace
  · exact .inr (Numeral.not_isBlank_of_mem_digits .hex s.address.toNat c hdigit)

end Symbol

/-! ## Reports -/

namespace SymbolTable

/-- Reads a report, line by line. -/
def readReport? (report : String) : Option (List Symbol) :=
  (Text.lines report).mapM Symbol.ofLine?

/-- The texts of symbols are read back, all in order. -/
theorem mapM_ofLine?_text {symbols : List Symbol} (h : ∀ s ∈ symbols, Symbol.IsName s.name) :
    (symbols.map Symbol.text).mapM Symbol.ofLine? = some symbols := by
  induction symbols with
  | nil => rfl
  | cons s rest ih =>
      obtain ⟨hs, hrest⟩ := List.forall_mem_cons.mp h
      rw [List.map_cons, List.mapM_cons, Symbol.ofLine?_text hs, ih hrest]
      rfl

/-- **A report reads back**, if its names can be told. -/
theorem readReport?_render {t : SymbolTable} (h : ∀ s ∈ t.toList, Symbol.IsName s.name) :
    readReport? t.render = some t.toList := by
  have hlines : ∀ line ∈ t.toList.map Symbol.text, Text.IsLine line := by
    intro line hline
    obtain ⟨s, hs, rfl⟩ := List.mem_map.mp hline
    exact Symbol.isLine_text (h s hs)
  rw [readReport?, render, Text.lines_unlines hlines, mapM_ofLine?_text h]

/-- A table is empty exactly when nothing was defined. -/
theorem isEmpty_ofList (definitions : List Symbol) :
    (SymbolTable.ofList definitions).isEmpty = true ↔ definitions = [] := by
  have hsize : (SymbolTable.ofList definitions).isEmpty = true ↔
      (SymbolTable.ofList definitions).size = 0 := by
    rw [isEmpty, size, List.isEmpty_iff, List.length_eq_zero_iff]
  rw [hsize, size_ofList, Finset.card_eq_zero, List.toFinset_eq_empty_iff, List.map_eq_nil_iff]

end SymbolTable

/-- **A symbol table stands for the definitions that were made.** It lists them in order, a name has
the address of its last definition and none if it was never defined, the size is the number of
distinct names, and a table is empty when nothing was defined.

In the table of a program every name has three characters, none of which is blank or a comma. So the
report, read line by line, gives the definitions back, and no other program with another table has
the same report. -/
theorem symbol_tables_stand_for_definitions :
    (∀ definitions : List Symbol,
      let t := SymbolTable.ofList definitions
      t.toList = definitions ∧
      (∀ name, t.resolve name =
        ((definitions.filter (·.name = name)).getLast?).map (·.address)) ∧
      (∀ name, t.resolve name = none ↔ name ∉ definitions.map (·.name)) ∧
      t.size = (definitions.map (·.name)).toFinset.card ∧
      (t.isEmpty = true ↔ definitions = [])) ∧
    ∀ (policy : BlankLines) (source : String),
      let t := symbolsOf policy (sourceLines source)
      (∀ a, assemble policy source = .ok a → a.symbols = t) ∧
      (∀ s ∈ t.toList, s.name.length = 3 ∧
        ∀ c ∈ s.name.toList, Text.isBlank c = false ∧ c ≠ ',') ∧
      SymbolTable.readReport? t.render = some t.toList ∧
      ∀ policy' source', (symbolsOf policy' (sourceLines source')).render = t.render →
        symbolsOf policy' (sourceLines source') = t := by
  have hnames : ∀ policy source, ∀ s ∈ (symbolsOf policy (sourceLines source)).toList,
      Symbol.IsName s.name := by
    intro policy source s hs
    rw [symbolsOf, SymbolTable.toList_ofList] at hs
    exact isName_of_mem_definitions hs
  refine ⟨fun definitions => ⟨SymbolTable.toList_ofList definitions,
    SymbolTable.resolve_ofList definitions, fun name => ?_, SymbolTable.size_ofList definitions,
    SymbolTable.isEmpty_ofList definitions⟩, fun policy source => ?_⟩
  · rw [← SymbolTable.isSome_resolve_ofList, Bool.not_eq_true, Option.isSome_eq_false_iff,
      Option.isNone_iff_eq_none]
  · have hread := SymbolTable.readReport?_render (hnames policy source)
    refine ⟨fun a => symbols_of_assembleLines, hnames policy source, hread, ?_⟩
    intro policy' source' hreport
    have hread' := SymbolTable.readReport?_render (hnames policy' source')
    rw [hreport, hread, Option.some.injEq, symbolsOf, SymbolTable.toList_ofList, symbolsOf,
      SymbolTable.toList_ofList] at hread'
    rw [symbolsOf, symbolsOf, hread']

/-- Labels that are cut to three characters, one of them to a name that was there before, and another
program with the same report. -/
theorem symbol_tables_stand_for_definitions_of_long_labels :
    let source := "ABC, HLT\n ORG FFFF\nAé😀xy, HLT\nABCD, HLT"
    let other := "ABC,\nORG FFFF\n\nAé😀, END\nABC, DEC"
    let t := symbolsOf .advance (sourceLines source)
    (∃ a, assemble .advance source = .ok a ∧ a.symbols = t) ∧
      t.render = "ABC 0\nAé😀 FFFF\nABC 0\n" ∧
      SymbolTable.readReport? "ABC 0\nAé😀 FFFF\nABC 0\n" = some t.toList ∧
      (⟨"Aé😀", 0xFFFF⟩ ∈ t.toList ∧ "Aé😀".length = 3) ∧
      symbolsOf .skip (sourceLines other) = t := by
  intro source other t
  have hrender : t.render = "ABC 0\nAé😀 FFFF\nABC 0\n" := by decide +kernel
  have hother : (symbolsOf .skip (sourceLines other)).render = t.render := by decide +kernel
  have hmem : ⟨"Aé😀", 0xFFFF⟩ ∈ t.toList := by decide +kernel
  have hassembly : (assemble .advance source).toOption.isSome = true := by decide +kernel
  obtain ⟨hsymbols, hnames, hread, hsame⟩ := symbol_tables_stand_for_definitions.2 .advance source
  refine ⟨?_, hrender, ?_, ⟨hmem, (hnames _ hmem).1⟩, hsame .skip other hother⟩
  · cases hrun : assemble .advance source with
    | error fault =>
        rw [hrun] at hassembly
        cases hassembly
    | ok a => exact ⟨a, rfl, hsymbols a hrun⟩
  · rw [← hrender]
    exact hread

end BasicComputer
