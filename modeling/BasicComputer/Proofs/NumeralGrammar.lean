import Mathlib.Data.List.Induction
import BasicComputer.Proofs.Numerals

/-!
# The grammar of numerals

The readers of numerals are recursions along a text with a check of bounds behind them. Here the
language that they accept is stated on its own, as a grammar with values, and the readers are shown
to accept **exactly** that language within their bounds.

* **Digits** (`IsDigit`, `Digits`): a digit is a written digit in either case, and a run of digits
  is read in positional notation, the last digit being worth its value and the run in front of it a
  base times as much. Zeros in front are digits like any other.
* **Signs** (`Spells`, `SpellsInt`): a natural number may have a plus sign in front of its digits,
  and an integer either sign.
* **The readers** (`unsigned?_eq_some_iff`, `word?_eq_some_iff`, `signed?_eq_some_iff`): what is
  read is what is spelled, if it lies within the bounds.
* **One text in two radices** (`signed?_decimal_hex`): the hexadecimal numeral of a word is a
  decimal numeral exactly when no letter is in it, and then it comes to no more than the word.
-/

namespace BasicComputer.Numeral

/-! ## Digits -/

/-- A character is a digit of the radix and has the value `d`; letters count in either case. -/
def IsDigit (radix : Radix) (c : Char) (d : Nat) : Prop :=
  d < radix.base ∧ (c = digitChar d ∨ c = (digitChar d).toLower)

/-- A non-empty run of digits and its value in positional notation. -/
inductive Digits (radix : Radix) : List Char → Nat → Prop
  | one {c : Char} {d : Nat} (hc : IsDigit radix c d) : Digits radix [c] d
  | more {cs : List Char} {n : Nat} {c : Char} {d : Nat} (hcs : Digits radix cs n)
      (hc : IsDigit radix c d) : Digits radix (cs ++ [c]) (radix.base * n + d)

/-- The numerals of natural numbers: digits behind at most a plus sign. -/
inductive Spells (radix : Radix) : List Char → Nat → Prop
  | bare {cs : List Char} {n : Nat} (h : Digits radix cs n) : Spells radix cs n
  | plus {cs : List Char} {n : Nat} (h : Digits radix cs n) : Spells radix ('+' :: cs) n

/-- The numerals of integers: digits behind at most one sign. -/
inductive SpellsInt (radix : Radix) : List Char → Int → Prop
  | natural {cs : List Char} {n : Nat} (h : Spells radix cs n) : SpellsInt radix cs n
  | minus {cs : List Char} {n : Nat} (h : Digits radix cs n) : SpellsInt radix ('-' :: cs) (-n)

/-- A digit of the grammar is read with its value. -/
theorem digit?_of_isDigit {radix : Radix} {c : Char} {d : Nat} (h : IsDigit radix c d) :
    digit? radix c = some d := by
  have hlower : ∀ d < 16, digit? .hex (digitChar d).toLower = some d := by decide
  obtain ⟨hd, rfl | rfl⟩ := h
  · exact digit?_digitChar radix hd
  · have hhex := hlower d (Nat.lt_of_lt_of_le hd (base_le_sixteen radix))
    obtain ⟨hvalue, -⟩ := Option.filter_eq_some_iff.mp hhex
    exact Option.filter_eq_some_iff.mpr ⟨hvalue, decide_eq_true hd⟩

/-- A character that is read as a digit is one of the grammar. -/
theorem isDigit_of_digit? {radix : Radix} {c : Char} {d : Nat} (h : digit? radix c = some d) :
    IsDigit radix c d := by
  have hchars : '0'.toNat = 48 ∧ '9'.toNat = 57 ∧ 'A'.toNat = 65 ∧ 'F'.toNat = 70 ∧
      'a'.toNat = 97 ∧ 'f'.toNat = 102 := by decide
  have hlower : ∀ k < 6, (digitChar (k + 10)).toLower = Char.ofNat (97 + k) := by decide
  obtain ⟨hvalue, hd⟩ := Option.filter_eq_some_iff.mp h
  refine ⟨of_decide_eq_true hd, ?_⟩
  split at hvalue
  · next hrange =>
    left
    obtain rfl := Option.some.inj hvalue
    rw [digitChar, if_pos (by omega), Nat.add_sub_cancel' hrange.1, Char.ofNat_toNat]
  · split at hvalue
    · next hrange =>
      left
      obtain rfl := Option.some.inj hvalue
      rw [digitChar, if_neg (by omega), Nat.add_sub_cancel, Nat.add_sub_cancel' hrange.1,
        Char.ofNat_toNat]
    · split at hvalue
      · next hrange =>
        right
        obtain rfl := Option.some.inj hvalue
        rw [hlower _ (by omega), ← hchars.2.2.2.2.1, Nat.add_sub_cancel' hrange.1,
          Char.ofNat_toNat]
      · exact absurd hvalue (by simp)

/-- **The reader of a digit** knows exactly the digits of its radix. -/
theorem digit?_eq_some_iff {radix : Radix} {c : Char} {d : Nat} :
    digit? radix c = some d ↔ IsDigit radix c d :=
  ⟨isDigit_of_digit?, digit?_of_isDigit⟩

/-! ## Runs of digits -/

/-- A text that is not empty is read digit by digit. -/
theorem natural?_of_ne_nil {radix : Radix} {cs : List Char} (h : cs ≠ []) :
    natural? radix cs = accumulate? radix 0 cs := by
  obtain ⟨c, rest, rfl⟩ := List.exists_cons_of_ne_nil h
  rfl

/-- The last digit counts once, and those in front of it as often as the base says. -/
theorem accumulate?_concat (radix : Radix) (cs : List Char) (c : Char) :
    accumulate? radix 0 (cs ++ [c]) =
      (accumulate? radix 0 cs).bind fun n => (digit? radix c).map (radix.base * n + ·) := by
  rw [accumulate?_append]
  refine congrArg _ (funext fun n => ?_)
  rw [accumulate?]
  cases digit? radix c <;> rfl

/-- A text that is read as a number consists of digits of that value. -/
theorem digits_of_natural? {radix : Radix} {cs : List Char} {n : Nat}
    (h : natural? radix cs = some n) : Digits radix cs n := by
  induction cs using List.reverseRecOn generalizing n with
  | nil => exact absurd h (by simp [natural?])
  | append_singleton cs c ih =>
      rw [natural?_of_ne_nil (by simp), accumulate?_concat] at h
      obtain ⟨m, hm, h⟩ := Option.bind_eq_some_iff.mp h
      obtain ⟨d, hd, rfl⟩ := Option.map_eq_some_iff.mp h
      have hc := isDigit_of_digit? hd
      by_cases hnil : cs = []
      · subst hnil
        obtain rfl : 0 = m := Option.some.inj hm
        simpa using Digits.one hc
      · exact .more (ih (by rwa [natural?_of_ne_nil hnil])) hc

/-- Digits are read as the number of their value. -/
theorem natural?_of_digits {radix : Radix} {cs : List Char} {n : Nat} (h : Digits radix cs n) :
    natural? radix cs = some n := by
  induction h with
  | one hc => simp [natural?, accumulate?, digit?_of_isDigit hc]
  | @more cs n c d hcs hc ih =>
      have hne : cs ≠ [] := (nonblank_of_natural? ih).1
      rw [natural?_of_ne_nil hne] at ih
      rw [natural?_of_ne_nil (by simp), accumulate?_concat, ih, digit?_of_isDigit hc]
      rfl

/-- **The reader of a run of digits** gives exactly its value. -/
theorem natural?_eq_some_iff {radix : Radix} {cs : List Char} {n : Nat} :
    natural? radix cs = some n ↔ Digits radix cs n :=
  ⟨digits_of_natural?, natural?_of_digits⟩

/-- A sign is no digit. -/
theorem Digits.head_ne {radix : Radix} {c : Char} {cs : List Char} {n : Nat}
    (h : Digits radix (c :: cs) n) : c ≠ '+' ∧ c ≠ '-' := by
  have hread : accumulate? radix 0 (c :: cs) = some n := natural?_of_digits h
  have hsigns : digit? radix '+' = none ∧ digit? radix '-' = none := by
    cases radix <;> decide
  constructor
  · rintro rfl
    rw [accumulate?, hsigns.1] at hread
    exact absurd hread (by simp)
  · rintro rfl
    rw [accumulate?, hsigns.2] at hread
    exact absurd hread (by simp)

/-! ## Numerals of natural numbers -/

/-- A text that is read as a number spells it. -/
theorem spells_of_unsigned? {radix : Radix} {bound n : Nat} {text : String}
    (h : unsigned? radix bound text = some n) : Spells radix text.toList n := by
  obtain ⟨hvalue, -⟩ := Option.filter_eq_some_iff.mp h
  split at hvalue
  · next rest heq =>
    rw [heq]
    exact .plus (digits_of_natural? hvalue)
  · exact .bare (digits_of_natural? hvalue)

/-- A text that spells a number is read as it, if the number is in bounds. -/
theorem unsigned?_of_spells {radix : Radix} {n : Nat} {text : String}
    (h : Spells radix text.toList n) (bound : Nat) :
    unsigned? radix bound text = (some n).filter (· < bound) := by
  unfold unsigned?
  generalize text.toList = cs at h
  cases h with
  | @plus cs _ hdigits =>
      show (natural? radix cs).filter _ = _
      rw [natural?_of_digits hdigits]
  | bare hdigits =>
      rw [← natural?_of_digits hdigits]
      split
      · exact absurd rfl hdigits.head_ne.1
      · rfl

/-- **The reader of unsigned numerals** accepts a text exactly when it spells a natural number below
the bound, and gives that number. -/
theorem unsigned?_eq_some_iff {radix : Radix} {bound n : Nat} {text : String} :
    unsigned? radix bound text = some n ↔ Spells radix text.toList n ∧ n < bound := by
  constructor
  · intro h
    have hbound := (Option.filter_eq_some_iff.mp h).2
    exact ⟨spells_of_unsigned? h, of_decide_eq_true hbound⟩
  · rintro ⟨hspells, hn⟩
    rw [unsigned?_of_spells hspells]
    exact Option.filter_eq_some_iff.mpr ⟨rfl, decide_eq_true hn⟩

/-- **The reader of words** accepts exactly the hexadecimal numerals of words. -/
theorem word?_eq_some_iff {text : String} {word : Word} :
    word? text = some word ↔ Spells .hex text.toList word.toNat := by
  unfold word?
  rw [Option.map_eq_some_iff]
  constructor
  · rintro ⟨n, hn, rfl⟩
    obtain ⟨hspells, hlt⟩ := unsigned?_eq_some_iff.mp hn
    rwa [BitVec.toNat_ofNat, Nat.mod_eq_of_lt hlt]
  · intro hspells
    exact ⟨word.toNat, unsigned?_eq_some_iff.mpr ⟨hspells, word.isLt⟩, by simp⟩

/-- The operand of an instruction is a hexadecimal number of 32 bits. -/
theorem operand?_eq_some_iff {text : String} {n : Nat} :
    operand? text = some n ↔ Spells .hex text.toList n ∧ n < 0x100000000 :=
  unsigned?_eq_some_iff

/-! ## Numerals of integers -/

/-- A text that is read as a signed number spells it. -/
theorem spellsInt_of_signed? {radix : Radix} {value : Int} {text : String}
    (h : signed? radix text = some value) : SpellsInt radix text.toList value := by
  obtain ⟨hvalue, -⟩ := Option.filter_eq_some_iff.mp h
  split at hvalue
  · next rest heq =>
    obtain ⟨v, hv, rfl⟩ := Option.map_eq_some_iff.mp hvalue
    obtain ⟨n, hn, hcast⟩ := Option.bind_eq_some_iff.mp hv
    obtain rfl := Option.some.inj hcast
    rw [heq]
    exact .minus (digits_of_natural? hn)
  · next rest heq =>
    obtain ⟨n, hn, rfl⟩ := Option.map_eq_some_iff.mp hvalue
    rw [heq]
    exact .natural (.plus (digits_of_natural? hn))
  · obtain ⟨n, hn, rfl⟩ := Option.map_eq_some_iff.mp hvalue
    exact .natural (.bare (digits_of_natural? hn))

/-- A text that spells an integer is read as that integer, if it has 64 bits, and else not at
all. -/
theorem signed?_of_spellsInt {radix : Radix} {value : Int} {text : String}
    (h : SpellsInt radix text.toList value) :
    signed? radix text =
      if -0x8000000000000000 ≤ value ∧ value < 0x8000000000000000 then some value else none := by
  have hread : signed? radix text =
      (some value).filter fun v => -0x8000000000000000 ≤ v ∧ v < 0x8000000000000000 := by
    unfold signed?
    generalize text.toList = cs at h
    cases h with
    | @minus cs n hdigits =>
        show (((natural? radix cs).bind fun n => some (n : Int)).map fun v => -v).filter _ = _
        rw [natural?_of_digits hdigits]
        rfl
    | natural hspells =>
        cases hspells with
        | @plus cs n hdigits =>
            show ((natural? radix cs).map Int.ofNat).filter _ = _
            rw [natural?_of_digits hdigits]
            rfl
        | bare hdigits =>
            have hnat := natural?_of_digits hdigits
            split
            · exact absurd rfl hdigits.head_ne.2
            · exact absurd rfl hdigits.head_ne.1
            · rw [hnat]
              rfl
  rw [hread, Option.filter_some]
  simp only [decide_eq_true_eq]

/-- **The reader of signed numerals** accepts a text exactly when it spells an integer of 64 bits,
and gives that integer. -/
theorem signed?_eq_some_iff {radix : Radix} {value : Int} {text : String} :
    signed? radix text = some value ↔ SpellsInt radix text.toList value ∧
      -0x8000000000000000 ≤ value ∧ value < 0x8000000000000000 := by
  constructor
  · intro h
    have hbounds := (Option.filter_eq_some_iff.mp h).2
    exact ⟨spellsInt_of_signed? h, of_decide_eq_true hbounds⟩
  · rintro ⟨hspells, hbounds⟩
    rw [signed?_of_spellsInt hspells, if_pos hbounds]

/-! ## One text in two radices -/

/-- Digits that are read as a decimal number come to no more than in hexadecimal. -/
theorem accumulate?_decimal_le {cs : List Char} {m n m' n' : Nat} (hle : m ≤ n)
    (hdecimal : accumulate? .decimal m cs = some m') (hhex : accumulate? .hex n cs = some n') :
    m' ≤ n' := by
  induction cs generalizing m n with
  | nil =>
      obtain rfl : m = m' := Option.some.inj hdecimal
      obtain rfl : n = n' := Option.some.inj hhex
      exact hle
  | cons c cs ih =>
      rw [accumulate?] at hdecimal hhex
      rcases hdigit : digit? .decimal c with _ | d
      · simp [hdigit] at hdecimal
      · -- a decimal digit has the same value among the sixteen
        have hsame : digit? .hex c = some d := by
          obtain ⟨hd, hc⟩ := isDigit_of_digit? hdigit
          exact digit?_of_isDigit ⟨Nat.lt_trans hd (by decide), hc⟩
        rw [hdigit] at hdecimal
        rw [hsame] at hhex
        refine ih ?_ hdecimal hhex
        simp only [Radix.base]
        omega

/-- Digits stand for at least as much in hexadecimal as in decimal. -/
theorem Digits.decimal_le {cs : List Char} {m n : Nat} (hdecimal : Digits .decimal cs m)
    (hhex : Digits .hex cs n) : m ≤ n := by
  have hread := natural?_of_digits hdecimal
  have hread' := natural?_of_digits hhex
  have hne : cs ≠ [] := (nonblank_of_natural? hread).1
  rw [natural?_of_ne_nil hne] at hread hread'
  exact accumulate?_decimal_le (Nat.le_refl 0) hread hread'

/-- Any digits, and at least one, are a run of digits. -/
theorem exists_digits_iff {radix : Radix} {cs : List Char} :
    (∃ n, Digits radix cs n) ↔ cs ≠ [] ∧ ∀ c ∈ cs, ∃ d, IsDigit radix c d := by
  constructor
  · rintro ⟨n, h⟩
    induction h with
    | one hc => simpa using ⟨_, hc⟩
    | more hcs hc ih =>
        refine ⟨by simp, fun c' hc' => ?_⟩
        rcases List.mem_append.mp hc' with hfront | hlast
        · exact ih.2 c' hfront
        · rw [List.mem_singleton.mp hlast]
          exact ⟨_, hc⟩
  · rintro ⟨hne, hall⟩
    induction cs using List.reverseRecOn with
    | nil => exact absurd rfl hne
    | append_singleton cs c ih =>
        obtain ⟨d, hd⟩ := hall c (by simp)
        by_cases hnil : cs = []
        · subst hnil
          exact ⟨d, .one hd⟩
        · obtain ⟨n, hn⟩ := ih hnil fun c' hc' => hall c' (List.mem_append_left [c] hc')
          exact ⟨_, .more hn hd⟩

/-- A digit of an address is a decimal digit or a letter. -/
theorem exists_isDigit_decimal_iff {d : Nat} (hd : d < 16) :
    (∃ e, IsDigit .decimal (digitChar d) e) ↔ ¬ ('A' ≤ digitChar d ∧ digitChar d ≤ 'F') := by
  have hletters : ∀ d < 16, (digit? .decimal (digitChar d)).isSome = true ↔
      ¬ ('A' ≤ digitChar d ∧ digitChar d ≤ 'F') := by decide
  rw [← hletters d hd, Option.isSome_iff_exists]
  simp only [digit?_eq_some_iff]

/-- **A hexadecimal numeral is a decimal one** exactly when it has no letter. -/
theorem exists_digits_decimal_iff (n : Nat) :
    (∃ m, Digits .decimal (digits .hex n) m) ↔
      ∀ c ∈ digits .hex n, ¬ ('A' ≤ c ∧ c ≤ 'F') := by
  rw [exists_digits_iff]
  constructor
  · rintro ⟨-, hall⟩ c hc
    obtain ⟨d, hd, rfl⟩ := mem_digits hc
    exact (exists_isDigit_decimal_iff hd).mp (hall _ hc)
  · intro hno
    refine ⟨digits_ne_nil .hex n, fun c hc => ?_⟩
    obtain ⟨d, hd, rfl⟩ := mem_digits hc
    exact (exists_isDigit_decimal_iff hd).mpr (hno _ hc)

/-- The hexadecimal numeral of a word, read as a decimal number: the number of its decimal digits,
which is a word again, or nothing if there is a letter. -/
theorem signed?_decimal_hex (word : Word) :
    (∃ value : Word, Digits .decimal (hex word).toList value.toNat ∧
        signed? .decimal (hex word) = some (value.toNat : Int)) ∨
      (∃ c ∈ (hex word).toList, 'A' ≤ c ∧ c ≤ 'F') ∧ signed? .decimal (hex word) = none := by
  have hlt := word.isLt
  rw [toList_hex]
  by_cases hno : ∀ c ∈ digits .hex word.toNat, ¬ ('A' ≤ c ∧ c ≤ 'F')
  · left
    obtain ⟨m, hm⟩ := (exists_digits_decimal_iff word.toNat).mpr hno
    have hhex := digits_of_natural? (natural?_digits .hex word.toNat)
    have hle : m ≤ word.toNat := hm.decimal_le hhex
    have hnat : (BitVec.ofNat 16 m).toNat = m := by
      rw [BitVec.toNat_ofNat, Nat.mod_eq_of_lt (by omega)]
    refine ⟨BitVec.ofNat 16 m, by rwa [hnat], ?_⟩
    rw [hnat]
    apply signed?_eq_some_iff.mpr
    rw [toList_hex]
    exact ⟨.natural (.bare hm), by omega, by omega⟩
  · right
    refine ⟨by simpa using hno, Option.eq_none_iff_forall_ne_some.mpr fun value hvalue => hno ?_⟩
    have hspells := spellsInt_of_signed? hvalue
    obtain ⟨c, rest, hdigits, hplus, hminus⟩ := head_digits .hex word.toNat
    rw [toList_hex] at hspells
    rw [← exists_digits_decimal_iff]
    rw [hdigits] at hspells ⊢
    -- no numeral that is written has a sign, so only bare digits are left
    cases hspells with
    | minus _ => exact absurd rfl hminus
    | natural hnat =>
        cases hnat with
        | plus _ => exact absurd rfl hplus
        | bare h => exact ⟨_, h⟩

end BasicComputer.Numeral
