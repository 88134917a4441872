import BasicComputer.Listing.Read
import BasicComputer.Proofs.Numerals
import BasicComputer.Proofs.Texts

/-!
# A listing reads back from its text

An entry is written with a padded address, a colon, three spaces and a padded word, and it is read
by a cut at the first colon, with blank characters trimmed off on both sides. Padding never cuts a
digit off, so an address above `FFF` takes four digits and the columns of a listing may shift. The
reader does not look at columns.

* **The characters of an entry** (`Entry.toList_text`): digits, one colon and spaces. So an entry is
  one line (`Entry.isLine_text`), and the first colon is the one that was written.
* **One entry** (`Entry.ofLine?_text`): its line reads as the entry.
* **All entries** (`Listing.readLines_text`): line by line, whatever the numbers of the lines are.
-/

namespace BasicComputer

namespace Entry

/-! ## One entry -/

/-- A padded number has no blanks. -/
theorem not_isBlank_writePadded (width n : Nat) :
    ∀ c ∈ (Numeral.writePadded .hex width n).toList, Text.isBlank c = false :=
  Numeral.writePadded_forall (by decide) .hex width n

/-- A padded number has no colon. -/
theorem ne_colon_writePadded (width n : Nat) :
    ∀ c ∈ (Numeral.writePadded .hex width n).toList, c ≠ ':' :=
  Numeral.writePadded_forall (by decide) .hex width n

/-- The line of an entry: the address, the colon, the spaces and the word. -/
theorem toList_text (e : Entry) :
    e.text.toList =
      (Numeral.writePadded .hex 3 e.address.toNat).toList ++
        ':' :: (List.replicate 3 ' ' ++ (Numeral.writePadded .hex 4 e.value.toNat).toList) := by
  have hgap : ":   ".toList = ':' :: List.replicate 3 ' ' := by decide +kernel
  rw [text, String.toList_append, String.toList_append, hgap, List.append_assoc]
  rfl

/-- An entry is one line: it holds no other blank character than spaces. -/
theorem isLine_text (e : Entry) : Text.IsLine e.text := by
  apply Text.isLine_of_eq_space_or
  intro c hc
  rw [toList_text, List.mem_append, List.mem_cons, List.mem_append] at hc
  rcases hc with haddress | rfl | hspace | hvalue
  · exact .inr (not_isBlank_writePadded _ _ c haddress)
  · exact .inr (by decide)
  · exact .inl (List.eq_of_mem_replicate hspace)
  · exact .inr (not_isBlank_writePadded _ _ c hvalue)

/-- A padded numeral with spaces in front reads as its word. -/
theorem readField_writePadded (spaces width : Nat) (word : Word) :
    readField (List.replicate spaces ' ' ++ (Numeral.writePadded .hex width word.toNat).toList) =
      .ok word := by
  have hspaces : ∀ c ∈ List.replicate spaces ' ', Text.isBlank c = true := by
    intro c hc
    rw [List.eq_of_mem_replicate hc]
    exact Text.isBlank_space
  unfold readField
  rw [Text.trim_append hspaces (not_isBlank_writePadded width word.toNat), String.ofList_toList]
  dsimp only
  rw [Numeral.word?_writePadded]

/-- **The line of an entry reads as the entry.** -/
theorem ofLine?_text (e : Entry) : ofLine? e.text = some (.ok e) := by
  have hcolon : ∀ c ∈ (Numeral.writePadded .hex 3 e.address.toNat).toList,
      decide (c ≠ ':') = true := by
    intro c hc
    exact decide_eq_true (ne_colon_writePadded _ _ c hc)
  have haddress := readField_writePadded 0 3 e.address
  have hvalue := readField_writePadded 3 4 e.value
  unfold ofLine?
  rw [toList_text, List.dropWhile_append_of_pos hcolon, List.takeWhile_append_of_pos hcolon]
  simp only [List.dropWhile_cons, List.takeWhile_cons, ne_eq, not_true_eq_false, decide_false,
    Bool.false_eq_true, if_false, List.append_nil]
  rw [List.replicate_zero, List.nil_append] at haddress
  rw [haddress, hvalue]
  rfl

end Entry

/-! ## All entries -/

/-- The lines of entries read as the entries, under any numbers. -/
theorem Listing.readLines_text (entries : List Entry) (number : Nat) :
    readLines ((entries.map Entry.text).zipIdx number) = (entries, []) := by
  induction entries generalizing number with
  | nil => rfl
  | cons e rest ih =>
      rw [List.map_cons, List.zipIdx_cons, readLines, ih]
      simp [Entry.ofLine?_text]

/-- **A listing reads back from its text.** Entries at any addresses, repeated or out of order, come
back in their order, and nothing is reported. -/
theorem read_render_listing (l : Listing) : Listing.read l.render = ⟨l, []⟩ := by
  have hlines : ∀ line ∈ l.entries.map Entry.text, Text.IsLine line := by
    intro line hline
    obtain ⟨e, -, rfl⟩ := List.mem_map.mp hline
    exact Entry.isLine_text e
  unfold Listing.read Listing.render
  rw [Text.lines_unlines hlines, Listing.readLines_text]

example : Listing.render ⟨[⟨0xFFFF, 7⟩, ⟨5, 0xABCD⟩, ⟨5, 0⟩]⟩ =
    "FFFF:   0007\n005:   ABCD\n005:   0000\n" := by
  decide +kernel

end BasicComputer
