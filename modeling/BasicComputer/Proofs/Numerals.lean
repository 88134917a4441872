import BasicComputer.Numeral.Read
import BasicComputer.Numeral.Write
import BasicComputer.Proofs.Texts

/-!
# Written numerals read back

A number that is written in a radix and read in the same radix is the number again, whatever the
reader's bounds are, as long as the number lies within them. This is the one fact that makes the
replacement of a symbol by *text* harmless: the digits of an address are read as the address.

* **The inverse** (`accumulate?_digits`): the digits of `n`, accumulated from 0, come to `n`. The
  recursion of `digits` cuts off the last digit and that of `accumulate?` the first, so the proof
  goes through `accumulate?_append`.
* **The characters** (`mem_digits`): every character of a numeral is one of sixteen. From here
  follows that no numeral has a sign, a blank character, a comma or a line feed in it.
* **Zeros in front** (`natural?_leftpad_digits`): a padded numeral comes to the same number.
* **The readers** (`word?_hex`, `operand?_hex`, `signed?_hex`): the three bounded readers on the
  hexadecimal numeral of a word; `word?_writePadded` is the first of them on a padded numeral.
* **Tokens** (`isToken_of_unsigned?`): whatever reads as an unsigned number can stand as a token.
-/

namespace BasicComputer.Numeral

/-! ## One digit -/

/-- No radix has more than sixteen digits. -/
theorem base_le_sixteen (radix : Radix) : radix.base ≤ 16 := by
  cases radix <;> decide

/-- A digit that is written reads as its value. -/
theorem digit?_digitChar (radix : Radix) {d : Nat} (hd : d < radix.base) :
    digit? radix (digitChar d) = some d := by
  have hdecimal : ∀ d < 10, digit? .decimal (digitChar d) = some d := by decide
  have hhex : ∀ d < 16, digit? .hex (digitChar d) = some d := by decide
  cases radix with
  | decimal => exact hdecimal d hd
  | hex => exact hhex d hd

/-- A property of the sixteen digit characters holds of every digit of a radix. -/
theorem digitChar_forall {P : Char → Prop} (hP : ∀ d < 16, P (digitChar d)) (radix : Radix)
    {d : Nat} (hd : d < radix.base) : P (digitChar d) :=
  hP d (Nat.lt_of_lt_of_le hd (base_le_sixteen radix))

/-! ## Runs of digits -/

/-- A run of digits is read from left to right: first the front, then the rest behind its value. -/
theorem accumulate?_append (radix : Radix) (value : Nat) (front rest : List Char) :
    accumulate? radix value (front ++ rest) =
      (accumulate? radix value front).bind (accumulate? radix · rest) := by
  induction front generalizing value with
  | nil => rfl
  | cons c front ih =>
      rw [List.cons_append, accumulate?, accumulate?]
      cases digit? radix c with
      | none => rfl
      | some d => exact ih _

/-- Every number has a digit. -/
theorem digits_ne_nil (radix : Radix) (n : Nat) : digits radix n ≠ [] := by
  unfold digits
  split
  · simp
  · simp

/-- **Written digits read back**: the digits of a number come to the number. -/
theorem accumulate?_digits (radix : Radix) (n : Nat) :
    accumulate? radix 0 (digits radix n) = some n := by
  induction n using Nat.strongRecOn with
  | ind n ih =>
      have hbase := radix.one_lt_base
      rw [digits]
      split
      · next hn => simp [accumulate?, digit?_digitChar radix hn]
      · next hn =>
        have hlast : n % radix.base < radix.base := Nat.mod_lt _ (by omega)
        have hless : n / radix.base < n := Nat.div_lt_self (by omega) hbase
        rw [accumulate?_append, ih _ hless, Option.bind_some, accumulate?,
          digit?_digitChar radix hlast]
        show some (radix.base * (n / radix.base) + n % radix.base) = some n
        rw [Nat.div_add_mod]

/-- The digits of a number are read as that number. -/
theorem natural?_digits (radix : Radix) (n : Nat) : natural? radix (digits radix n) = some n := by
  rw [← accumulate?_digits radix n]
  cases h : digits radix n with
  | nil => exact absurd h (digits_ne_nil radix n)
  | cons c rest => rfl

/-! ## The characters of a numeral -/

/-- Every character of a numeral is the character of a digit. -/
theorem mem_digits {radix : Radix} {n : Nat} {c : Char} (hc : c ∈ digits radix n) :
    ∃ d < radix.base, c = digitChar d := by
  induction n using Nat.strongRecOn with
  | ind n ih =>
      have hbase := radix.one_lt_base
      rw [digits] at hc
      split at hc
      · next hn => exact ⟨n, hn, by simpa using hc⟩
      · next hn =>
        rcases List.mem_append.mp hc with hfront | hlast
        · exact ih _ (Nat.div_lt_self (by omega) hbase) hfront
        · exact ⟨n % radix.base, Nat.mod_lt _ (by omega), by simpa using hlast⟩

/-- What holds of the sixteen digit characters holds of every character of a numeral. -/
theorem digits_forall {P : Char → Prop} (hP : ∀ d < 16, P (digitChar d)) (radix : Radix)
    (n : Nat) : ∀ c ∈ digits radix n, P c := by
  intro c hc
  obtain ⟨d, hd, rfl⟩ := mem_digits hc
  exact digitChar_forall hP radix hd

/-- No digit is a blank. -/
theorem not_isBlank_of_mem_digits (radix : Radix) (n : Nat) :
    ∀ c ∈ digits radix n, Text.isBlank c = false :=
  digits_forall (by decide) radix n

/-- No numeral that is written starts with a sign. -/
theorem head_digits (radix : Radix) (n : Nat) :
    ∃ c rest, digits radix n = c :: rest ∧ c ≠ '+' ∧ c ≠ '-' := by
  cases h : digits radix n with
  | nil => exact absurd h (digits_ne_nil radix n)
  | cons c rest =>
      have hsigns : ∀ d < 16, digitChar d ≠ '+' ∧ digitChar d ≠ '-' := by decide
      have hmem : c ∈ digits radix n := by rw [h]; exact List.mem_cons_self
      exact ⟨c, rest, rfl, digits_forall (P := fun c => c ≠ '+' ∧ c ≠ '-') hsigns radix n c hmem⟩

/-! ## Zeros in front -/

/-- Zeros in front of a run of digits change nothing. -/
theorem accumulate?_replicate_zero (radix : Radix) (k : Nat) (cs : List Char) :
    accumulate? radix 0 (List.replicate k '0' ++ cs) = accumulate? radix 0 cs := by
  have hzero : digit? radix '0' = some 0 := by cases radix <;> decide
  induction k with
  | zero => rfl
  | succ k ih =>
      rw [List.replicate_succ, List.cons_append, accumulate?, hzero]
      simpa using ih

/-- Padded digits come to the number. -/
theorem natural?_leftpad_digits (radix : Radix) (width n : Nat) :
    natural? radix ((digits radix n).leftpad width '0') = some n := by
  have hnat : accumulate? radix 0 ((digits radix n).leftpad width '0') = some n := by
    rw [List.leftpad, accumulate?_replicate_zero, accumulate?_digits]
  rw [← hnat]
  cases h : (digits radix n).leftpad width '0' with
  | nil =>
      have hdigits : digits radix n = [] := (List.append_eq_nil_iff.mp h).2
      exact absurd hdigits (digits_ne_nil radix n)
  | cons c rest => rfl

/-- What holds of the sixteen digit characters holds of every character of a padded numeral. -/
theorem writePadded_forall {P : Char → Prop} (hP : ∀ d < 16, P (digitChar d)) (radix : Radix)
    (width n : Nat) : ∀ c ∈ (writePadded radix width n).toList, P c := by
  intro c hc
  rw [writePadded, String.toList_ofList, List.leftpad, List.mem_append] at hc
  rcases hc with hzero | hdigit
  · have hdigit : c = digitChar 0 := List.eq_of_mem_replicate hzero
    rw [hdigit]
    exact hP 0 (by decide)
  · exact digits_forall hP radix n c hdigit

/-! ## The bounded readers -/

/-- An unsigned reader gives back every number within its bound, however wide it is written. -/
theorem unsigned?_writePadded (radix : Radix) (width : Nat) {bound n : Nat} (hn : n < bound) :
    unsigned? radix bound (writePadded radix width n) = some n := by
  have hsign : ∀ c ∈ (writePadded radix width n).toList, c ≠ '+' :=
    writePadded_forall (by decide) radix width n
  have hnat := natural?_leftpad_digits radix width n
  rw [writePadded, String.toList_ofList] at hsign
  unfold unsigned? writePadded
  rw [String.toList_ofList]
  split
  · next heq =>
    rw [heq] at hsign
    exact absurd rfl (hsign '+' List.mem_cons_self)
  · rw [hnat]
    simp [hn]

/-- A numeral is a padded numeral of no least width. -/
theorem writePadded_zero (radix : Radix) (n : Nat) : writePadded radix 0 n = write radix n := by
  simp [writePadded, write, List.leftpad]

/-- An unsigned reader gives back every number within its bound. -/
theorem unsigned?_write (radix : Radix) {bound n : Nat} (hn : n < bound) :
    unsigned? radix bound (write radix n) = some n := by
  rw [← writePadded_zero]
  exact unsigned?_writePadded radix 0 hn

/-- The signed reader gives back every natural number within its bounds. -/
theorem signed?_write (radix : Radix) {n : Nat} (hn : n < 0x8000000000000000) :
    signed? radix (write radix n) = some (n : Int) := by
  obtain ⟨c, rest, hdigits, hplus, hminus⟩ := head_digits radix n
  have hnat := natural?_digits radix n
  unfold signed? write
  rw [String.toList_ofList]
  rw [hdigits] at hnat ⊢
  split
  · next heq => exact absurd (List.cons.inj heq).1 hminus
  · next heq => exact absurd (List.cons.inj heq).1 hplus
  · rw [hnat]
    have hbounds : (-0x8000000000000000 : Int) ≤ n ∧ (n : Int) < 0x8000000000000000 := by omega
    exact Option.filter_eq_some_iff.mpr ⟨rfl, decide_eq_true hbounds⟩

/-- The numeral of a word with zeros in front reads as the word. -/
@[simp] theorem word?_writePadded (width : Nat) (word : Word) :
    word? (writePadded .hex width word.toNat) = some word := by
  unfold word?
  rw [unsigned?_writePadded .hex width word.isLt]
  simp

/-- The numeral of a word reads as the word. -/
@[simp] theorem word?_hex (word : Word) : word? (hex word) = some word := by
  rw [hex, ← writePadded_zero, word?_writePadded]

/-- The numeral of a word, read as an operand, is the number of the word. -/
@[simp] theorem operand?_hex (word : Word) : operand? (hex word) = some word.toNat :=
  unsigned?_write .hex (Nat.lt_trans word.isLt (by decide))

/-- The numeral of a word, read as data in the same radix, is the number of the word. -/
@[simp] theorem signed?_hex (word : Word) : signed? .hex (hex word) = some (word.toNat : Int) :=
  signed?_write .hex (Nat.lt_trans word.isLt (by decide))

/-- The characters of a word in hexadecimal are its digits. -/
theorem toList_hex (word : Word) : (hex word).toList = digits .hex word.toNat :=
  String.toList_ofList

/-! ## Text that reads as a number -/

/-- Only letters and decimal digits are digits. -/
theorem not_isBlank_of_digit? {radix : Radix} {c : Char} {d : Nat} (h : digit? radix c = some d) :
    Text.isBlank c = false := by
  have hrange : 48 ≤ c.toNat ∧ c.toNat ≤ 102 := by
    have hvalue := (Option.filter_eq_some_iff.mp h).1
    have hchars : '0'.toNat = 48 ∧ '9'.toNat = 57 ∧ 'A'.toNat = 65 ∧ 'F'.toNat = 70 ∧
        'a'.toNat = 97 ∧ 'f'.toNat = 102 := by decide
    split at hvalue
    · omega
    · split at hvalue
      · omega
      · split at hvalue
        · omega
        · exact absurd hvalue (by simp)
  simp only [Text.isBlank, Text.blankRanges, List.any_cons, List.any_nil, Bool.or_false,
    Bool.or_eq_false_iff, Bool.and_eq_false_iff, decide_eq_false_iff_not]
  omega

/-- Characters that are read as digits are no blanks. -/
theorem not_isBlank_of_accumulate? {radix : Radix} {cs : List Char} {value n : Nat}
    (h : accumulate? radix value cs = some n) : ∀ c ∈ cs, Text.isBlank c = false := by
  induction cs generalizing value with
  | nil => simp
  | cons c rest ih =>
      rw [accumulate?] at h
      cases hdigit : digit? radix c with
      | none => simp [hdigit] at h
      | some d =>
          rw [hdigit] at h
          exact List.forall_mem_cons.mpr ⟨not_isBlank_of_digit? hdigit, ih h⟩

/-- A text that is read as a number is not empty and has no blanks. -/
theorem nonblank_of_natural? {radix : Radix} {cs : List Char} {n : Nat}
    (h : natural? radix cs = some n) : cs ≠ [] ∧ ∀ c ∈ cs, Text.isBlank c = false := by
  cases cs with
  | nil => simp [natural?] at h
  | cons c rest => exact ⟨List.cons_ne_nil c rest, not_isBlank_of_accumulate? h⟩

/-- **Text that reads as an unsigned number is one token.** -/
theorem isToken_of_unsigned? {radix : Radix} {bound n : Nat} {text : String}
    (h : unsigned? radix bound text = some n) : Text.IsToken text := by
  have hvalue := (Option.filter_eq_some_iff.mp h).1
  unfold Text.IsToken
  split at hvalue
  · next rest heq =>
    rw [heq]
    have hplus : Text.isBlank '+' = false := by decide
    exact ⟨List.cons_ne_nil _ _, List.forall_mem_cons.mpr ⟨hplus, (nonblank_of_natural? hvalue).2⟩⟩
  · exact nonblank_of_natural? hvalue

/-- A text that is read as a word is a token. -/
theorem isToken_of_word? {text : String} {word : Word} (h : word? text = some word) :
    Text.IsToken text := by
  obtain ⟨n, hn, -⟩ := Option.map_eq_some_iff.mp h
  exact isToken_of_unsigned? hn

end BasicComputer.Numeral
