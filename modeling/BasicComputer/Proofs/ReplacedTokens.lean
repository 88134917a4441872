import Mathlib.Data.List.Basic
import BasicComputer.Proofs.Texts

/-!
# Texts with other tokens

A text is changed token by token: each line has its tokens replaced by as many others, and all
blank characters stay where they are, the line endings among them.

* **Separators** (`rejoin`): a list of characters is cut into pieces and put together again with
  other pieces between the same separators. `splitOnP_rejoin` says that these are its pieces then.
* **One line** (`tokens_mapLineTokens`): the separators are the blank characters, and the pieces
  that are not empty are the tokens.
* **A text** (`map_tokens_lines_mapTokens`): the separators are the line feeds. Lines stay lines,
  since a token holds no line feed and an empty line stays empty.
-/

namespace BasicComputer.Text

/-! ## Other pieces between the same separators -/

/-- Pieces with separators between them. -/
def rejoin : List Char → List (List Char) → List Char
  | separator :: separators, piece :: pieces =>
    piece ++ separator :: rejoin separators pieces
  | _, pieces => pieces.flatten

variable {separates : Char → Bool} {separators : List Char} {pieces : List (List Char)}

/-- There is one piece more than there are separators. -/
theorem length_splitOnP_eq_filter (separates : Char → Bool) (cs : List Char) :
    (cs.splitOnP separates).length = (cs.filter separates).length + 1 := by
  induction cs with
  | nil => rfl
  | cons c cs ih =>
      rw [List.splitOnP_cons_eq_if_modifyHead]
      by_cases hc : separates c = true
      · simp [hc, ih]
      · simp [hc, ih]

/-- Pieces without a separator come apart where they were put together. -/
theorem splitOnP_rejoin (hseparators : ∀ c ∈ separators, separates c = true)
    (hpieces : ∀ piece ∈ pieces, ∀ c ∈ piece, separates c = false)
    (hlength : pieces.length = separators.length + 1) :
    (rejoin separators pieces).splitOnP separates = pieces := by
  induction separators generalizing pieces with
  | nil =>
      obtain ⟨piece, rfl⟩ := List.length_eq_one_iff.mp hlength
      rw [rejoin, List.flatten_singleton]
      · exact List.splitOnP_eq_singleton (hpieces piece List.mem_cons_self)
      · simp
  | cons separator separators ih =>
      obtain ⟨piece, pieces, rfl⟩ := List.exists_cons_of_length_eq_add_one hlength
      obtain ⟨hpiece, hothers⟩ := List.forall_mem_cons.mp hpieces
      obtain ⟨hseparator, hrest⟩ := List.forall_mem_cons.mp hseparators
      rw [rejoin, List.splitOnP_append_cons_of_forall_mem hpiece separator hseparator,
        ih hrest hothers (by simpa using hlength)]

/-- What is put together has the characters of its parts. -/
theorem mem_rejoin {c : Char} (h : c ∈ rejoin separators pieces) :
    c ∈ separators ∨ ∃ piece ∈ pieces, c ∈ piece := by
  fun_induction rejoin separators pieces with
  | case1 separator separators piece pieces ih =>
      simp only [List.mem_append, List.mem_cons] at h
      rcases h with hpiece | rfl | hrest
      · exact .inr ⟨piece, List.mem_cons_self, hpiece⟩
      · exact .inl List.mem_cons_self
      · rcases ih hrest with hseparator | ⟨piece', hpiece', hc⟩
        · exact .inl (List.mem_cons_of_mem separator hseparator)
        · exact .inr ⟨piece', List.mem_cons_of_mem piece hpiece', hc⟩
  | case2 pieces => exact .inr (by simpa using h)

/-! ## One line -/

/-- The pieces of a line, with other tokens in the place of those that are not empty. -/
def fill : List (List Char) → List String → List (List Char)
  | [] :: pieces, tokens => [] :: fill pieces tokens
  | _ :: pieces, token :: tokens => token.toList :: fill pieces tokens
  | pieces, _ => pieces

/-- A line with its tokens replaced. -/
def mapLineTokens (f : List String → List String) (line : List Char) : List Char :=
  rejoin (line.filter isBlank) (fill (line.splitOnP isBlank) (f (tokens (String.ofList line))))

/-- Filling in tokens keeps the number of pieces. -/
theorem length_fill (pieces : List (List Char)) (tokens : List String) :
    (fill pieces tokens).length = pieces.length := by
  fun_induction fill pieces tokens with
  | case1 => simp_all
  | case2 => simp_all
  | case3 => rfl

/-- The pieces that are not empty are the tokens that were put in. -/
theorem filter_fill {tokens : List String} (htokens : ∀ token ∈ tokens, IsToken token)
    (hlength : tokens.length = (pieces.filter (· ≠ [])).length) :
    ((fill pieces tokens).filter (· ≠ [])).map String.ofList = tokens := by
  fun_induction fill pieces tokens with
  | case1 tokens pieces ih => simpa using ih htokens (by simpa using hlength)
  | case2 piece pieces token tokens hpiece ih =>
      obtain ⟨htoken, hothers⟩ := List.forall_mem_cons.mp htokens
      have hne : piece ≠ [] := by
        rintro rfl
        exact hpiece rfl
      have hrest := ih hothers (by simpa [hne] using hlength)
      simp_all [htoken.1]
  | case3 pieces tokens hempty hfull =>
      cases pieces with
      | nil =>
          rw [List.length_eq_zero_iff.mp hlength]
          rfl
      | cons piece pieces =>
          -- a piece that is not empty calls for a token
          have hne : piece ≠ [] := fun h => hempty pieces (h ▸ rfl)
          obtain ⟨token, rest, rfl⟩ : ∃ token rest, tokens = token :: rest := by
            apply List.exists_cons_of_length_pos
            simp [hlength, hne]
          exact absurd rfl (hfull piece pieces token rest rfl)

/-- A way to replace the tokens of a line by as many others. -/
def ReplacesTokens (f : List String → List String) : Prop :=
  ∀ tokens, (∀ token ∈ tokens, IsToken token) →
    (f tokens).length = tokens.length ∧ ∀ token ∈ f tokens, IsToken token

variable {f : List String → List String}

/-- A piece is an old one or a token that was filled in. -/
theorem mem_fill {piece : List Char} {tokens : List String} (h : piece ∈ fill pieces tokens) :
    piece ∈ pieces ∨ ∃ token ∈ tokens, piece = token.toList := by
  fun_induction fill pieces tokens with
  | case1 tokens pieces ih =>
      rcases List.mem_cons.mp h with rfl | hrest
      · exact .inl List.mem_cons_self
      · exact (ih hrest).imp_left (List.mem_cons_of_mem [])
  | case2 first pieces token tokens hfirst ih =>
      rcases List.mem_cons.mp h with rfl | hrest
      · exact .inr ⟨token, List.mem_cons_self, rfl⟩
      · rcases ih hrest with hpiece | ⟨token', htoken', rfl⟩
        · exact .inl (List.mem_cons_of_mem first hpiece)
        · exact .inr ⟨token', List.mem_cons_of_mem token htoken', rfl⟩
  | case3 pieces tokens => exact .inl h

section line

variable (hf : ReplacesTokens f) (line : List Char)

include hf

/-- Neither the pieces of a line nor the tokens that are put in hold a blank character. -/
theorem not_isBlank_of_mem_fill {piece : List Char}
    (h : piece ∈ fill (line.splitOnP isBlank) (f (tokens (String.ofList line)))) :
    ∀ c ∈ piece, isBlank c = false := by
  obtain ⟨-, htokens⟩ := hf (tokens (String.ofList line)) fun _ => isToken_of_mem_tokens
  rcases mem_fill h with hold | ⟨token, htoken, rfl⟩
  · exact not_separates_of_mem_splitOnP hold
  · exact (htokens token htoken).2

/-- The pieces between blank characters, after the tokens were replaced. -/
theorem splitOnP_mapLineTokens :
    (mapLineTokens f line).splitOnP isBlank =
      fill (line.splitOnP isBlank) (f (tokens (String.ofList line))) := by
  apply splitOnP_rejoin
  · intro c hc
    exact (List.mem_filter.mp hc).2
  · intro piece hpiece
    exact not_isBlank_of_mem_fill hf line hpiece
  · rw [length_fill, length_splitOnP_eq_filter]

/-- **The tokens of a line are replaced** by the given ones. -/
theorem tokens_mapLineTokens :
    tokens (String.ofList (mapLineTokens f line)) = f (tokens (String.ofList line)) := by
  obtain ⟨hlength, htokens⟩ := hf (tokens (String.ofList line)) fun _ => isToken_of_mem_tokens
  conv => lhs; rw [tokens, String.toList_ofList, splitOnP_mapLineTokens hf]
  apply filter_fill htokens
  rw [hlength, tokens, String.toList_ofList, List.length_map]

/-- A line with its tokens replaced is empty only if it was empty. -/
theorem mapLineTokens_eq_nil_iff : mapLineTokens f line = [] ↔ line = [] := by
  constructor
  · intro h
    have htokens := tokens_mapLineTokens hf line
    have hpieces := congrArg List.length (splitOnP_mapLineTokens hf line)
    obtain ⟨hlength, -⟩ := hf (tokens (String.ofList line)) fun _ => isToken_of_mem_tokens
    rw [h] at htokens hpieces
    -- no blank character was there, so the line was a token or nothing
    have hblank : line.filter isBlank = [] := by
      simpa [length_fill, length_splitOnP_eq_filter] using hpieces
    have hline : line.splitOnP isBlank = [line] := by
      apply List.splitOnP_eq_singleton
      simpa [List.filter_eq_nil_iff] using hblank
    rw [← htokens, tokens, tokens, String.toList_ofList, String.toList_ofList, hline] at hlength
    by_contra hne
    simp [hne] at hlength
  · rintro rfl
    rfl

/-- Replaced tokens bring no line feed into a line. -/
theorem feed_notMem_mapLineTokens (h : ∀ c ∈ line, (c == '\n') = false) :
    ∀ c ∈ mapLineTokens f line, (c == '\n') = false := by
  intro c hc
  rcases mem_rejoin hc with hseparator | ⟨piece, hpiece, hmem⟩
  · exact h c (List.mem_filter.mp hseparator).1
  · have hblank := not_isBlank_of_mem_fill hf line hpiece c hmem
    rw [beq_eq_false_iff_ne]
    rintro rfl
    exact absurd hblank (by decide)

end line

/-! ## A text -/

/-- A text with the tokens of each line replaced. -/
def mapTokens (f : List String → List String) (text : String) : String :=
  String.ofList (rejoin (text.toList.filter (· == '\n'))
    ((text.toList.splitOnP (· == '\n')).map (mapLineTokens f)))

/-- A carriage return at the end of a line is in no token. -/
theorem tokens_dropReturn (line : List Char) :
    tokens (String.ofList (dropReturn line)) = tokens (String.ofList line) :=
  apply_dropReturn (f := fun cs => tokens (String.ofList cs))
    (fun cs => tokens_concat_blank cs isBlank_return) line

/-- The tokens of the lines among pieces. -/
theorem map_tokens_closeLines (hf : ReplacesTokens f) (pieces : List (List Char)) :
    (closeLines (pieces.map (mapLineTokens f))).map (fun line => tokens (String.ofList line)) =
      (closeLines pieces).map fun line => f (tokens (String.ofList line)) := by
  fun_induction closeLines pieces with
  | case1 => rfl
  | case2 => simp [closeLines, mapLineTokens_eq_nil_iff hf]
  | case3 last hlast =>
      simp [closeLines, mapLineTokens_eq_nil_iff hf, hlast, tokens_mapLineTokens hf]
  | case4 closed rest hrest ih =>
      rw [List.map_cons, closeLines, List.map_cons, List.map_cons, ih, tokens_dropReturn,
        tokens_dropReturn, tokens_mapLineTokens hf]
      simpa using hrest

/-- **The lines of a text with replaced tokens** are the lines of the text, with their tokens
replaced. -/
theorem map_tokens_lines_mapTokens (hf : ReplacesTokens f) (text : String) :
    (Text.lines (mapTokens f text)).map tokens =
      (Text.lines text).map fun line => f (tokens line) := by
  have hsplit : (mapTokens f text).toList.splitOnP (· == '\n') =
      (text.toList.splitOnP (· == '\n')).map (mapLineTokens f) := by
    rw [mapTokens, String.toList_ofList]
    apply splitOnP_rejoin
    · intro c hc
      exact (List.mem_filter.mp hc).2
    · intro piece hpiece
      obtain ⟨line, hline, rfl⟩ := List.mem_map.mp hpiece
      exact feed_notMem_mapLineTokens hf line (not_separates_of_mem_splitOnP hline)
    · rw [List.length_map, length_splitOnP_eq_filter]
  unfold Text.lines
  rw [hsplit, List.map_map, List.map_map]
  exact map_tokens_closeLines hf _

end BasicComputer.Text
