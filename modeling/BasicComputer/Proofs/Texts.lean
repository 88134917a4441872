import BasicComputer.Text.Blank
import BasicComputer.Text.Lines

/-!
# Cutting a text into lines and lines into tokens

Both cuts are `List.splitOnP` with a clean-up behind it, and both undo the obvious way of putting
the pieces together:

* **Tokens** (`tokens_intercalate`): non-empty pieces without a blank character, separated by
  single spaces, are the tokens of the text they form, and an indent changes nothing
  (`tokens_blank_append`).
* **Lines** (`lines_unlines`): lines that hold no line feed and do not end with a carriage return
  are the lines of the text they form. `lines_append_feed` takes one line off a text.
* **Fields** (`trim_append`): blank characters in front of a field are trimmed away.

The condition on carriage returns cannot be dropped: a carriage return in front of a line feed
belongs to the ending of the line and is lost.
-/

namespace BasicComputer.Text

/-! ## Pieces -/

/-- The pieces that separators leave hold no separator. -/
theorem not_separates_of_mem_splitOnP {separates : Char → Bool} {cs piece : List Char}
    (h : piece ∈ cs.splitOnP separates) : ∀ c ∈ piece, separates c = false := by
  induction cs generalizing piece with
  | nil => simp_all
  | cons c cs ih =>
      obtain ⟨first, others, hpieces⟩ :=
        List.exists_cons_of_ne_nil (List.splitOnP_ne_nil separates cs)
      rw [List.splitOnP_cons_eq_if_modifyHead, hpieces] at h
      rw [hpieces] at ih
      split at h
      · rcases List.mem_cons.mp h with rfl | hrest
        · simp
        · exact ih hrest
      · next hc =>
        rw [List.modifyHead_cons] at h
        rcases List.mem_cons.mp h with rfl | hrest
        · intro d hd
          rcases List.mem_cons.mp hd with rfl | hfirst
          · simpa using hc
          · exact ih List.mem_cons_self d hfirst
        · exact ih (List.mem_cons_of_mem first hrest)

/-! ## Tokens -/

/-- A text that can stand as one token of a line. -/
def IsToken (text : String) : Prop :=
  text.toList ≠ [] ∧ ∀ c ∈ text.toList, isBlank c = false

/-- Whether a text can stand as one token is settled by a run over its characters. -/
theorem isToken_iff_all {text : String} :
    (!text.toList.isEmpty && text.toList.all (!isBlank ·)) = true ↔ IsToken text := by
  simp [IsToken]

-- not by instance search, which would run over all characters and not over those of the text
instance (text : String) : Decidable (IsToken text) :=
  decidable_of_iff _ isToken_iff_all

/-- A space is a blank. -/
theorem isBlank_space : isBlank ' ' = true := by
  decide

/-- A carriage return is a blank. -/
theorem isBlank_return : isBlank '\r' = true := by
  decide

/-- A token is the only token of itself. -/
theorem tokens_of_isToken {text : String} (h : IsToken text) : tokens text = [text] := by
  unfold tokens
  rw [List.splitOnP_eq_singleton h.2]
  simp [h.1]

/-- A token and the blank character behind it can be taken off the front of a text. -/
theorem tokens_append_blank {first : String} (h : IsToken first) {c : Char}
    (hc : isBlank c = true) (rest : String) :
    tokens (first ++ String.singleton c ++ rest) = first :: tokens rest := by
  unfold tokens
  rw [String.toList_append, String.toList_append, String.toList_singleton, List.append_assoc,
    List.singleton_append, List.splitOnP_append_cons_of_forall_mem h.2 c hc]
  simp [h.1]

/-- Blank characters in front of a text do not matter. -/
theorem tokens_blank_append {blank : String} (h : ∀ c ∈ blank.toList, isBlank c = true)
    (rest : String) : tokens (blank ++ rest) = tokens rest := by
  suffices hlist : ∀ (cs : List Char), (∀ c ∈ cs, isBlank c = true) →
      tokens (String.ofList (cs ++ rest.toList)) = tokens rest by
    have := hlist blank.toList h
    rwa [String.ofList_append, String.ofList_toList, String.ofList_toList] at this
  intro cs hcs
  induction cs with
  | nil => rw [List.nil_append, String.ofList_toList]
  | cons c cs ih =>
      have hc : isBlank c = true := hcs c List.mem_cons_self
      have ih := ih fun c' hc' => hcs c' (List.mem_cons_of_mem c hc')
      rw [← ih]
      unfold tokens
      rw [String.toList_ofList, String.toList_ofList, List.cons_append,
        List.splitOnP_cons_eq_if_modifyHead, if_pos hc]
      rfl

/-- **Tokens that are put together are cut apart again.** -/
theorem tokens_intercalate {pieces : List String} (h : ∀ piece ∈ pieces, IsToken piece) :
    tokens (" ".intercalate pieces) = pieces := by
  induction pieces with
  | nil => rfl
  | cons first rest ih =>
      have hfirst := h first List.mem_cons_self
      have ih := ih fun piece hpiece => h piece (List.mem_cons_of_mem first hpiece)
      cases rest with
      | nil => simpa using tokens_of_isToken hfirst
      | cons second rest =>
          have hsplit : " ".intercalate (first :: second :: rest) =
              first ++ String.singleton ' ' ++ " ".intercalate (second :: rest) := by
            simp [String.intercalate_cons_cons]
          rw [hsplit, tokens_append_blank hfirst isBlank_space, ih]

/-- The tokens of a text are tokens. -/
theorem isToken_of_mem_tokens {text token : String} (h : token ∈ tokens text) : IsToken token := by
  obtain ⟨piece, hpiece, rfl⟩ := List.mem_map.mp h
  obtain ⟨hmem, hne⟩ := List.mem_filter.mp hpiece
  rw [IsToken, String.toList_ofList]
  exact ⟨by simpa using hne, not_separates_of_mem_splitOnP hmem⟩

/-- A blank character at the end of a text does not matter. -/
theorem tokens_concat_blank (cs : List Char) {c : Char} (hc : isBlank c = true) :
    tokens (String.ofList (cs ++ [c])) = tokens (String.ofList cs) := by
  unfold tokens
  rw [String.toList_ofList, String.toList_ofList, List.splitOnP_append_cons cs [] hc,
    List.filter_append, List.splitOnP_nil]
  simp

/-! ## Lines -/

/-- A text that can stand as one line, closed by a line feed. -/
def IsLine (text : String) : Prop :=
  '\n' ∉ text.toList ∧ text.toList.getLast? ≠ some '\r'

/-- A text whose only blank characters are spaces can stand as one line: line feed and carriage return
are blank. -/
theorem isLine_of_eq_space_or {text : String}
    (h : ∀ c ∈ text.toList, c = ' ' ∨ isBlank c = false) : IsLine text := by
  constructor
  · intro hfeed
    exact absurd (h _ hfeed) (by decide)
  · intro hreturn
    exact absurd (h _ (List.mem_of_getLast? hreturn)) (by decide)

/-- Pieces that are put together hold nothing but their own characters and the spaces. -/
theorem mem_intercalate {pieces : List String} {c : Char}
    (hc : c ∈ (" ".intercalate pieces).toList) : c = ' ' ∨ ∃ piece ∈ pieces, c ∈ piece.toList := by
  induction pieces with
  | nil => exact absurd hc List.not_mem_nil
  | cons first rest ih =>
      cases rest with
      | nil => exact .inr ⟨first, List.mem_cons_self, by simpa using hc⟩
      | cons second rest =>
          rw [String.intercalate_cons_cons, String.toList_append, String.toList_append,
            List.mem_append, List.mem_append] at hc
          rcases hc with (hfirst | hspace) | hrest
          · exact .inr ⟨first, List.mem_cons_self, hfirst⟩
          · exact .inl (by simpa using hspace)
          · rcases ih hrest with hspace | ⟨piece, hpiece, hmem⟩
            · exact .inl hspace
            · exact .inr ⟨piece, List.mem_cons_of_mem first hpiece, hmem⟩

/-- **Tokens that are put together form one line**, with an indent of spaces in front: no other blank
character than the space gets in. -/
theorem isLine_append_intercalate {spaces : String} (hspaces : ∀ c ∈ spaces.toList, c = ' ')
    {pieces : List String} (h : ∀ piece ∈ pieces, IsToken piece) :
    IsLine (spaces ++ " ".intercalate pieces) := by
  apply isLine_of_eq_space_or
  intro c hc
  rw [String.toList_append, List.mem_append] at hc
  rcases hc with hindent | hpieces
  · exact .inl (hspaces c hindent)
  · rcases mem_intercalate hpieces with hspace | ⟨piece, hpiece, hmem⟩
    · exact .inl hspace
    · exact .inr ((h piece hpiece).2 c hmem)

/-- A line has no carriage return to drop. -/
theorem dropReturn_of_isLine {text : String} (h : IsLine text) :
    dropReturn text.toList = text.toList :=
  if_neg h.2

/-- What does not notice a carriage return at the end of a line does not notice that the cut into
lines takes one off. -/
theorem apply_dropReturn {α : Type} {f : List Char → α} (hf : ∀ cs, f (cs ++ ['\r']) = f cs)
    (line : List Char) : f (dropReturn line) = f line := by
  unfold dropReturn
  split
  · next hreturn =>
    obtain ⟨front, rfl⟩ := List.getLast?_eq_some_iff.mp hreturn
    rw [List.dropLast_concat, hf]
  · rfl

/-- Characters without a line feed among them, as a test on each. -/
theorem ne_feed_of_not_mem {cs : List Char} (h : '\n' ∉ cs) :
    ∀ c ∈ cs, (c == '\n') = false := by
  intro c hc
  exact beq_eq_false_iff_ne.mpr fun heq => h (heq ▸ hc)

/-- The characters of lines that are each closed by a line feed. -/
theorem toList_unlines (lines : List String) :
    (unlines lines).toList = lines.flatMap fun line => line.toList ++ ['\n'] := by
  unfold unlines
  rw [String.toList_join, List.flatMap_map]
  simp

/-- The pieces of closed lines: the lines themselves, and nothing behind the last line feed. -/
theorem splitOnP_unlines {lines : List String} (h : ∀ line ∈ lines, '\n' ∉ line.toList) :
    (unlines lines).toList.splitOnP (· == '\n') = lines.map String.toList ++ [[]] := by
  rw [toList_unlines]
  induction lines with
  | nil => rfl
  | cons line rest ih =>
      have hline := ne_feed_of_not_mem (h line List.mem_cons_self)
      rw [List.flatMap_cons, List.append_assoc, List.singleton_append,
        List.splitOnP_append_cons_of_forall_mem hline '\n' rfl,
        ih fun line' hline' => h line' (List.mem_cons_of_mem line hline')]
      rfl

/-- The stretch in front of the first line feed is a closed line. -/
theorem lines_ofList_append_cons {line : List Char} (h : '\n' ∉ line) (rest : List Char) :
    Text.lines (String.ofList (line ++ '\n' :: rest)) =
      String.ofList (dropReturn line) :: Text.lines (String.ofList rest) := by
  obtain ⟨piece, pieces, hpieces⟩ :=
    List.exists_cons_of_ne_nil (List.splitOnP_ne_nil (· == '\n') rest)
  unfold Text.lines
  rw [String.toList_ofList, String.toList_ofList,
    List.splitOnP_append_cons_of_forall_mem (ne_feed_of_not_mem h) '\n' rfl, hpieces, closeLines,
    List.map_cons]
  exact List.cons_ne_nil piece pieces

/-- **A closed line can be taken off the front of a text.** -/
theorem lines_append_feed {line : String} (h : IsLine line) (rest : String) :
    Text.lines (line ++ "\n" ++ rest) = line :: Text.lines rest := by
  have htext : line ++ "\n" ++ rest = String.ofList (line.toList ++ '\n' :: rest.toList) := by
    apply String.toList_injective
    simp
  rw [htext, lines_ofList_append_cons h.1, dropReturn_of_isLine h, String.ofList_toList,
    String.ofList_toList]

/-- All pieces but the last are closed lines, and the last is a line if it holds something. -/
theorem closeLines_concat (front : List (List Char)) (last : List Char) :
    closeLines (front ++ [last]) = front.map dropReturn ++ if last = [] then [] else [last] := by
  induction front with
  | nil => rfl
  | cons piece rest ih =>
      have hne : rest ++ [last] ≠ [] := by simp
      obtain ⟨next, others, hcons⟩ := List.exists_cons_of_ne_nil hne
      rw [List.cons_append, hcons, closeLines, ← hcons, ih, List.map_cons, List.cons_append]
      exact List.cons_ne_nil next others

/-- Where nothing follows the last line feed, every piece is a closed line. -/
theorem closeLines_append_nil (pieces : List (List Char)) :
    closeLines (pieces ++ [[]]) = pieces.map dropReturn := by
  rw [closeLines_concat, if_pos rfl, List.append_nil]

/-- **Lines that are put together are cut apart again.** -/
theorem lines_unlines {lines : List String} (h : ∀ line ∈ lines, IsLine line) :
    Text.lines (unlines lines) = lines := by
  unfold Text.lines
  rw [splitOnP_unlines fun line hline => (h line hline).1, closeLines_append_nil, List.map_map,
    List.map_map]
  refine (List.map_congr_left fun line hline => ?_).trans (List.map_id lines)
  show String.ofList (dropReturn line.toList) = line
  rw [dropReturn_of_isLine (h line hline), String.ofList_toList]

/-! ## Trimming -/

/-- A text that starts with no blank has none to drop. -/
theorem dropWhile_isBlank_of_head? {cs : List Char}
    (h : ∀ c, cs.head? = some c → isBlank c = false) : cs.dropWhile isBlank = cs := by
  rcases cs with _ | ⟨c, cs⟩
  · rfl
  · apply List.dropWhile_cons_of_neg
    simp [h c rfl]

/-- Blank characters in front of a field that holds none are all that is trimmed. -/
theorem trim_append {blank cs : List Char} (hblank : ∀ c ∈ blank, isBlank c = true)
    (h : ∀ c ∈ cs, isBlank c = false) : trim (blank ++ cs) = cs := by
  have hfront : ∀ c, cs.head? = some c → isBlank c = false := by
    intro c hc
    exact h c (List.mem_of_head? hc)
  have hback : ∀ c, cs.reverse.head? = some c → isBlank c = false := by
    intro c hc
    exact h c (List.mem_reverse.mp (List.mem_of_head? hc))
  unfold trim
  rw [List.dropWhile_append_of_pos hblank, dropWhile_isBlank_of_head? hfront,
    dropWhile_isBlank_of_head? hback, List.reverse_reverse]

/-- A blank character at the end of a field is trimmed away, whatever the field holds. -/
theorem trim_concat_blank (cs : List Char) {c : Char} (hc : isBlank c = true) :
    trim (cs ++ [c]) = trim cs := by
  unfold trim
  rw [List.dropWhile_append]
  split
  · next hblank => simp [List.isEmpty_iff.mp hblank, hc]
  · rw [List.reverse_append, List.reverse_singleton, List.singleton_append,
      List.dropWhile_cons_of_pos hc]

/-! ## How many lines there are -/

/-- The pieces of a text and the separators between them make up the text. -/
theorem length_splitOnP (separates : Char → Bool) (cs : List Char) :
    (cs.splitOnP separates).flatten.length + ((cs.splitOnP separates).length - 1) = cs.length := by
  induction cs with
  | nil => rfl
  | cons c cs ih =>
      obtain ⟨piece, pieces, hpieces⟩ :=
        List.exists_cons_of_ne_nil (List.splitOnP_ne_nil separates cs)
      rw [hpieces] at ih
      rw [List.splitOnP_cons_eq_if_modifyHead, hpieces]
      split
      · simp only [List.flatten_cons, List.length_append, List.length_cons, List.length_nil] at ih ⊢
        omega
      · simp only [List.modifyHead_cons, List.flatten_cons, List.length_append,
          List.length_cons] at ih ⊢
        omega

/-- Every line has a piece with a line feed behind it, but the last, which holds something. -/
theorem length_closeLines_le (pieces : List (List Char)) :
    (closeLines pieces).length ≤ pieces.flatten.length + (pieces.length - 1) := by
  fun_induction closeLines pieces with
  | case1 => exact Nat.le_refl 0
  | case2 => exact Nat.le_refl 0
  | case3 last hlast =>
      have hpos : 0 < last.length := List.length_pos_iff.mpr hlast
      rw [List.flatten_singleton, List.length_singleton]
      omega
  | case4 closed rest hrest ih =>
      have hpos : 0 < rest.length := List.length_pos_iff.mpr hrest
      rw [List.flatten_cons, List.length_append, List.length_cons, List.length_cons]
      omega

/-- A text has no more lines than characters. -/
theorem length_lines_le (text : String) : (Text.lines text).length ≤ text.length := by
  unfold Text.lines
  rw [List.length_map, ← String.length_toList, ← length_splitOnP (· == '\n') text.toList]
  exact length_closeLines_le _

end BasicComputer.Text
