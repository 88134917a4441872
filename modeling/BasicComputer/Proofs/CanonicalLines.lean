import Mathlib.Data.List.TakeWhile
import BasicComputer.Line.Parse
import BasicComputer.Proofs.Decoding
import BasicComputer.Proofs.Texts

/-!
# Lines and their canonical texts

Every text parses to a line, but not every line comes from a text: the tokens of a text hold no
blank character, a label stands in front of a comma, and what is spelled like an instruction is one.
Lines that respect this are **well formed**, and each of them has a **canonical text**, its tokens
with single spaces between them.

* **Parsing gives well-formed lines** (`Line.wellFormed_parse`), one lemma for the label in a first
  token (`Line.isLabel_of_labelOfToken?`) and one for the statement behind it
  (`Statement.wellFormed_ofTokens`).
* **A well-formed line is read back from its canonical text** (`Line.parse_canonicalText`), again
  with one lemma for the label (`Line.labelOfToken?_append_comma`) and one for the statement
  (`Statement.ofTokens_arguments`).

A comma makes the difference between the two places where a mnemonic may stand. Behind a label any
token is a mnemonic, but a first token with a comma is taken for a label.
-/

namespace BasicComputer

/-! ## Statements -/

namespace Statement

/-- The mnemonics that have a meaning. -/
def reserved : List String :=
  Opcode.all.map Opcode.mnemonic ++ ["ORG", "END", "DEC", "HEX"]

/-- The statements that parsing can give. An unknown mnemonic may hold a comma behind a label
only. -/
def WellFormed (labelled : Bool) : Statement → Prop
  | org operand => ∀ token ∈ operand, Text.IsToken token
  | stop => True
  | data _ operand => ∀ token ∈ operand, Text.IsToken token
  | instruction op operand indirect =>
    op ∈ Opcode.all ∧ (∀ token ∈ operand, Text.IsToken token) ∧
      (indirect = true → operand.isSome = true)
  | unknown mnemonic operand =>
    Text.IsToken mnemonic ∧ (∀ token ∈ operand, Text.IsToken token) ∧ mnemonic ∉ reserved ∧
      (labelled = false → ',' ∉ mnemonic.toList)

instance (labelled : Bool) (body : Statement) : Decidable (body.WellFormed labelled) :=
  match body with
  | org operand => inferInstanceAs (Decidable (∀ token ∈ operand, Text.IsToken token))
  | stop => inferInstanceAs (Decidable True)
  | data _ operand => inferInstanceAs (Decidable (∀ token ∈ operand, Text.IsToken token))
  | instruction op operand indirect =>
    inferInstanceAs (Decidable (op ∈ Opcode.all ∧ (∀ token ∈ operand, Text.IsToken token) ∧
      (indirect = true → operand.isSome = true)))
  | unknown mnemonic operand =>
    inferInstanceAs (Decidable (Text.IsToken mnemonic ∧ (∀ token ∈ operand, Text.IsToken token) ∧
      mnemonic ∉ reserved ∧ (labelled = false → ',' ∉ mnemonic.toList)))

/-- The mnemonic of a statement. -/
def mnemonic : Statement → String
  | org _ => "ORG"
  | stop => "END"
  | data radix _ => radix.mnemonic
  | instruction op _ _ => op.mnemonic
  | unknown mnemonic _ => mnemonic

/-- Whether a statement is marked for indirect addressing. -/
def isIndirect : Statement → Bool
  | instruction _ _ indirect => indirect
  | _ => false

/-- The tokens behind the mnemonic of a statement. -/
def arguments (body : Statement) : List String :=
  body.operand?.toList ++ if body.isIndirect then ["I"] else []

/-- No opcode is spelled like a directive, so its mnemonic gives its instruction. -/
theorem ofTokens_mnemonic (op : Opcode) (arguments : List String) :
    Statement.ofTokens op.mnemonic arguments =
      .instruction op arguments[0]? (arguments[1]?.any isIndirectMark) := by
  have hdirective : op.mnemonic ∉ ["ORG", "END", "DEC", "HEX"] := by
    cases op <;> decide
  unfold ofTokens
  split
  · next h => simp [h] at hdirective
  · next h => simp [h] at hdirective
  · next h => simp [h] at hdirective
  · next h => simp [h] at hdirective
  · rw [Opcode.ofMnemonic?_mnemonic]

/-- A word is no operation exactly when it is no mnemonic of one. -/
theorem ofMnemonic?_eq_none_iff {mnemonic : String} :
    Opcode.ofMnemonic? mnemonic = none ↔ mnemonic ∉ Opcode.all.map Opcode.mnemonic := by
  unfold Opcode.ofMnemonic?
  simp [List.find?_eq_none]

/-- A word that is not reserved makes an unknown statement. -/
theorem ofTokens_of_not_mem_reserved {mnemonic : String} (h : mnemonic ∉ reserved)
    (arguments : List String) :
    Statement.ofTokens mnemonic arguments = .unknown mnemonic arguments[0]? := by
  obtain ⟨hopcode, hdirective⟩ := not_or.mp (mt List.mem_append.mpr h)
  unfold ofTokens
  split
  · simp at hdirective
  · simp at hdirective
  · simp at hdirective
  · simp at hdirective
  · rw [ofMnemonic?_eq_none_iff.mpr hopcode]

/-- **A mnemonic and the tokens behind it form a well-formed statement.** -/
theorem wellFormed_ofTokens {labelled : Bool} {mnemonic : String} {arguments : List String}
    (hmnemonic : Text.IsToken mnemonic) (harguments : ∀ token ∈ arguments, Text.IsToken token)
    (hcomma : labelled = false → ',' ∉ mnemonic.toList) :
    (Statement.ofTokens mnemonic arguments).WellFormed labelled := by
  have hoperand : ∀ token ∈ arguments[0]?, Text.IsToken token := by
    intro token htoken
    exact harguments token (List.mem_of_getElem? htoken)
  unfold ofTokens
  split
  · exact hoperand
  · trivial
  · exact hoperand
  · exact hoperand
  · next horg hend hdec hhex =>
    split
    · next op hop =>
      refine ⟨op.mem_all, hoperand, fun hmark => ?_⟩
      -- a token behind the operand has the operand in front of it
      rcases arguments with _ | ⟨operand, others⟩
      · simp at hmark
      · rfl
    · next hop =>
      refine ⟨hmnemonic, hoperand, ?_, hcomma⟩
      rw [reserved, List.mem_append, not_or]
      exact ⟨ofMnemonic?_eq_none_iff.mp hop, by simpa using ⟨horg, hend, hdec, hhex⟩⟩

/-- **A well-formed statement is the statement of its mnemonic and the tokens behind it.** -/
theorem ofTokens_arguments {labelled : Bool} {body : Statement} (h : body.WellFormed labelled) :
    Statement.ofTokens body.mnemonic body.arguments = body := by
  cases body with
  | org operand => cases operand <;> rfl
  | stop => rfl
  | data radix operand => cases radix <;> cases operand <;> rfl
  | instruction op operand indirect =>
      obtain ⟨-, -, hindirect⟩ := h
      show Statement.ofTokens op.mnemonic _ = _
      rw [ofTokens_mnemonic]
      rcases operand with _ | operand
      · have hdirect : indirect = false := by simpa using hindirect
        rw [hdirect]
        rfl
      · cases indirect <;> rfl
  | unknown mnemonic operand =>
      obtain ⟨-, -, hreserved, -⟩ := h
      show Statement.ofTokens mnemonic _ = _
      rw [ofTokens_of_not_mem_reserved hreserved]
      cases operand <;> rfl

/-- A reserved mnemonic can stand as a first token, as it is not taken for a label. -/
theorem isToken_of_mem_reserved :
    ∀ mnemonic ∈ reserved, Text.IsToken mnemonic ∧ Line.labelOfToken? mnemonic = none := by
  decide +kernel

/-- A statement starts with a reserved word or is unknown. -/
theorem mnemonic_mem_reserved_or (body : Statement) :
    body.mnemonic ∈ reserved ∨ ∃ mnemonic operand, body = .unknown mnemonic operand := by
  cases body with
  | org operand => exact .inl (List.mem_append_right _ (by simp [mnemonic]))
  | stop => exact .inl (List.mem_append_right _ (by simp [mnemonic]))
  | data radix operand =>
      refine .inl (List.mem_append_right _ ?_)
      cases radix <;> simp [mnemonic, Radix.mnemonic]
  | instruction op operand indirect =>
      exact .inl (List.mem_append_left _ (List.mem_map_of_mem op.mem_all))
  | unknown mnemonic operand => exact .inr ⟨mnemonic, operand, rfl⟩

/-- The mnemonic of a well-formed statement is a token. -/
theorem isToken_mnemonic {labelled : Bool} {body : Statement} (h : body.WellFormed labelled) :
    Text.IsToken body.mnemonic := by
  rcases body.mnemonic_mem_reserved_or with hreserved | ⟨mnemonic, operand, rfl⟩
  · exact (isToken_of_mem_reserved _ hreserved).1
  · exact h.1

/-- Without a label in front, the mnemonic of a well-formed statement is not taken for one. -/
theorem labelOfToken?_mnemonic {body : Statement} (h : body.WellFormed false) :
    Line.labelOfToken? body.mnemonic = none := by
  rcases body.mnemonic_mem_reserved_or with hreserved | ⟨mnemonic, operand, rfl⟩
  · exact (isToken_of_mem_reserved _ hreserved).2
  · exact if_neg (h.2.2.2 rfl)

/-- The operand of a well-formed statement is a token. -/
theorem isToken_of_mem_operand? {labelled : Bool} {body : Statement}
    (h : body.WellFormed labelled) : ∀ token ∈ body.operand?, Text.IsToken token := by
  cases body with
  | org operand => exact h
  | stop => simp [operand?]
  | data radix operand => exact h
  | instruction op operand indirect => exact h.2.1
  | unknown mnemonic operand => exact h.2.1

/-- What stands behind the mnemonic of a well-formed statement are tokens. -/
theorem isToken_of_mem_arguments {labelled : Bool} {body : Statement}
    (h : body.WellFormed labelled) : ∀ token ∈ body.arguments, Text.IsToken token := by
  have hmark : Text.IsToken "I" := by decide +kernel
  intro token htoken
  rcases List.mem_append.mp htoken with hmem | hmem
  · exact isToken_of_mem_operand? h token (Option.mem_toList.mp hmem)
  · split at hmem
    · exact List.mem_singleton.mp hmem ▸ hmark
    · exact absurd hmem List.not_mem_nil

end Statement

/-! ## Lines -/

namespace Line

/-- The labels that parsing can give; one may have no characters. -/
def IsLabel (label : String) : Prop :=
  label.length ≤ 3 ∧ ∀ c ∈ label.toList, Text.isBlank c = false ∧ c ≠ ','

/-- The lines that parsing can give. -/
def WellFormed : Line → Prop
  | blank => True
  | labelOnly label => IsLabel label
  | statement label body => (∀ name ∈ label, IsLabel name) ∧ body.WellFormed label.isSome

/-- Being a label, as a test on every character. -/
theorem isLabel_iff_all {label : String} :
    (label.length ≤ 3 ∧ label.toList.all (fun c => !Text.isBlank c && c != ',') = true) ↔
      IsLabel label := by
  simp [IsLabel]

-- a run over the characters of the label, for the same reason as for tokens
instance (label : String) : Decidable (IsLabel label) :=
  decidable_of_iff _ isLabel_iff_all

instance (line : Line) : Decidable line.WellFormed :=
  match line with
  | blank => inferInstanceAs (Decidable True)
  | labelOnly label => inferInstanceAs (Decidable (IsLabel label))
  | statement label body =>
    inferInstanceAs (Decidable ((∀ name ∈ label, IsLabel name) ∧ body.WellFormed label.isSome))

/-- The tokens that a line is written with. -/
def tokens : Line → List String
  | blank => []
  | labelOnly label => [label ++ ","]
  | statement label body => (label.map (· ++ ",")).toList ++ body.mnemonic :: body.arguments

/-- The text that a line is written as, with single spaces between its tokens. -/
def canonicalText (line : Line) : String :=
  " ".intercalate line.tokens

/-! ### Labels -/

/-- The label that a token holds has the form of a label. -/
theorem isLabel_of_labelOfToken? {token label : String} (h : Text.IsToken token)
    (hlabel : labelOfToken? token = some label) : IsLabel label := by
  unfold labelOfToken? at hlabel
  split at hlabel
  · obtain rfl := Option.some.inj hlabel
    constructor
    · rw [← String.length_toList, String.toList_ofList]
      exact List.length_take_le _ _
    · intro c hc
      rw [String.toList_ofList] at hc
      have hbefore := List.mem_of_mem_take hc
      have hcomma : c ≠ ',' := by simpa using List.mem_takeWhile_imp hbefore
      exact ⟨h.2 c (List.takeWhile_subset _ hbefore), hcomma⟩
  · exact absurd hlabel (by simp)

/-- The characters of a label with its comma. -/
theorem toList_append_comma (label : String) : (label ++ ",").toList = label.toList ++ [','] := by
  rw [String.toList_append]
  rfl

/-- A name and a comma behind it give the name as a label. -/
theorem labelOfToken?_append_comma {label : String} (hlength : label.length ≤ 3)
    (hcomma : ∀ c ∈ label.toList, c ≠ ',') : labelOfToken? (label ++ ",") = some label := by
  have hbefore : (label.toList ++ [',']).takeWhile (· ≠ ',') = label.toList := by
    rw [List.takeWhile_append_of_pos]
    · simp
    · simpa using hcomma
  have htake : label.toList.take labelLength = label.toList := by
    apply List.take_of_length_le
    rwa [String.length_toList]
  rw [labelOfToken?, toList_append_comma, if_pos (by simp), hbefore, htake, String.ofList_toList]

/-- A label without blanks makes a token with its comma. -/
theorem isToken_append_comma {label : String}
    (h : ∀ c ∈ label.toList, Text.isBlank c = false) : Text.IsToken (label ++ ",") := by
  rw [Text.IsToken, toList_append_comma]
  refine ⟨by simp, ?_⟩
  intro c hc
  rcases List.mem_append.mp hc with hlabel | hcomma
  · exact h c hlabel
  · cases List.mem_singleton.mp hcomma
    decide

/-- A token holds no label exactly when it holds no comma. -/
theorem labelOfToken?_eq_none_iff {token : String} :
    labelOfToken? token = none ↔ ',' ∉ token.toList := by
  simp [labelOfToken?]

/-- The first token of a source line is its mnemonic. -/
theorem ofTokens_of_labelOfToken? {first : String} (h : labelOfToken? first = none)
    (rest : List String) : ofTokens (first :: rest) = .statement none (.ofTokens first rest) := by
  rw [ofTokens]
  exact h

/-! ### Parsing -/

/-- Tokens make a well-formed line. -/
theorem wellFormed_ofTokens {tokens : List String} (h : ∀ token ∈ tokens, Text.IsToken token) :
    (ofTokens tokens).WellFormed := by
  rcases tokens with _ | ⟨first, rest⟩
  · trivial
  · obtain ⟨hfirst, hrest⟩ := List.forall_mem_cons.mp h
    rcases hlabel : labelOfToken? first with _ | label
    · have hcomma := labelOfToken?_eq_none_iff.mp hlabel
      rw [ofTokens_of_labelOfToken? hlabel]
      exact ⟨by simp, Statement.wellFormed_ofTokens hfirst hrest fun _ => hcomma⟩
    · have hisLabel := isLabel_of_labelOfToken? hfirst hlabel
      rcases rest with _ | ⟨mnemonic, arguments⟩
      · simp only [ofTokens, hlabel]
        exact hisLabel
      · obtain ⟨hmnemonic, harguments⟩ := List.forall_mem_cons.mp hrest
        simp only [ofTokens, hlabel]
        exact ⟨by simpa using hisLabel,
          Statement.wellFormed_ofTokens hmnemonic harguments (by simp)⟩

/-- **Every text parses to a well-formed line.** -/
theorem wellFormed_parse (text : String) : (parse text).WellFormed :=
  wellFormed_ofTokens fun _ => Text.isToken_of_mem_tokens

/-- **A well-formed line consists of its tokens.** -/
theorem ofTokens_tokens {line : Line} (h : line.WellFormed) : ofTokens line.tokens = line := by
  have hcomma : ∀ {label}, IsLabel label → labelOfToken? (label ++ ",") = some label := by
    intro label hlabel
    exact labelOfToken?_append_comma hlabel.1 fun c hc => (hlabel.2 c hc).2
  rcases line with _ | label | ⟨_ | label, body⟩
  · rfl
  · show ofTokens [label ++ ","] = _
    simp only [ofTokens, hcomma h]
  · obtain ⟨-, hbody⟩ := h
    show ofTokens (body.mnemonic :: body.arguments) = _
    rw [ofTokens_of_labelOfToken? (Statement.labelOfToken?_mnemonic hbody),
      Statement.ofTokens_arguments hbody]
  · obtain ⟨hlabel, hbody⟩ := h
    show ofTokens ((label ++ ",") :: body.mnemonic :: body.arguments) = _
    simp only [ofTokens, hcomma (hlabel label rfl), Statement.ofTokens_arguments hbody]

/-- The tokens of a well-formed line are tokens. -/
theorem isToken_of_mem_tokens {line : Line} (h : line.WellFormed) :
    ∀ token ∈ line.tokens, Text.IsToken token := by
  have hcomma : ∀ {label}, IsLabel label → Text.IsToken (label ++ ",") := by
    intro label hlabel
    exact isToken_append_comma fun c hc => (hlabel.2 c hc).1
  rcases line with _ | label | ⟨label, body⟩
  · simp [tokens]
  · simpa [tokens] using hcomma h
  · obtain ⟨hlabel, hbody⟩ := h
    intro token htoken
    rcases List.mem_append.mp htoken with hfirst | hrest
    · obtain ⟨name, hname, rfl⟩ := Option.map_eq_some_iff.mp (Option.mem_toList.mp hfirst)
      exact hcomma (hlabel name hname)
    · rcases List.mem_cons.mp hrest with rfl | harguments
      · exact Statement.isToken_mnemonic hbody
      · exact Statement.isToken_of_mem_arguments hbody token harguments

/-- **A well-formed line is read back from its canonical text.** -/
theorem parse_canonicalText {line : Line} (h : line.WellFormed) :
    parse line.canonicalText = line := by
  rw [parse, canonicalText, Text.tokens_intercalate (isToken_of_mem_tokens h), ofTokens_tokens h]

end Line

/-- **Parsing reaches exactly the well-formed lines.** Every text parses to one, and each is parsed
from its canonical text. So the canonical text of what a text parses to parses to the same line. -/
theorem parsing_reaches_well_formed_lines :
    (∀ text, (Line.parse text).WellFormed) ∧
      (∀ line : Line, line.WellFormed → Line.parse line.canonicalText = line) ∧
      (∀ line : Line, line.WellFormed ↔ ∃ text, Line.parse text = line) ∧
      ∀ text, Line.parse (Line.parse text).canonicalText = Line.parse text := by
  refine ⟨Line.wellFormed_parse, fun _ => Line.parse_canonicalText, fun line => ⟨?_, ?_⟩, ?_⟩
  · exact fun h => ⟨line.canonicalText, Line.parse_canonicalText h⟩
  · rintro ⟨text, rfl⟩
    exact Line.wellFormed_parse text
  · exact fun text => Line.parse_canonicalText (Line.wellFormed_parse text)

/-- Behind an empty label, a mnemonic with a comma is well formed and read back. Without the label
it is not, and no text parses to it. An operand may be a comma. -/
theorem parsing_reaches_well_formed_lines_at_commas :
    let unlabelled : Line := .statement none (.unknown "A,B" (some "I"))
    let labelled : Line := .statement (some "") (.unknown "A,B" (some "I"))
    let indirect : Line := .statement (some "X") (.instruction .lda (some ",") true)
    (labelled.WellFormed ∧ Line.parse ", A,B I" = labelled) ∧
      (indirect.WellFormed ∧ Line.parse "X, LDA , I" = indirect) ∧
      ¬ unlabelled.WellFormed ∧ ¬ ∃ text, Line.parse text = unlabelled := by
  intro unlabelled labelled indirect
  have hlabelled : labelled.WellFormed := by decide +kernel
  have hindirect : indirect.WellFormed := by decide +kernel
  have hunlabelled : ¬ unlabelled.WellFormed := by decide +kernel
  obtain ⟨-, hread, himage, -⟩ := parsing_reaches_well_formed_lines
  refine ⟨⟨hlabelled, ?_⟩, ⟨hindirect, ?_⟩, hunlabelled, mt (himage unlabelled).mpr hunlabelled⟩
  · exact hread labelled hlabelled
  · exact hread indirect hindirect

end BasicComputer
