import BasicComputer.Assembly.Outcome
import BasicComputer.Decoded

/-!
# Encoding and decoding of words

A memory reference is encoded by a **sum** and decoded by **masks**. The two fit together because
the seven memory-reference patterns are the multiples of `1000` up to `6000`: the nibbles `7` and
`F` belong to the other instructions, and a nibble above `7` is a smaller one with the indirect
bit. Words are moved to natural numbers here, where the masks are a remainder and a quotient.

* **What decoding finds** (`Decoded.ofWord_cases`): whatever a word decodes to, encoding that
  gives the word back. Every reader of `Decoded.ofWord` needs only this.
* **What encoding makes** (`Decoded.ofWord_referenceSum`, `Decoded.ofWord_pattern`): an operand of
  12 bits survives, with its opcode and its indirect bit, and an instruction without operand
  survives always.
-/

namespace BasicComputer

/-! ## Masks as arithmetic -/

namespace Word

/-- The address bits of a word are its remainder. -/
theorem toNat_and_addressMask (word : Word) : (word &&& addressMask).toNat = word.toNat % 4096 := by
  rw [BitVec.toNat_and]
  exact Nat.and_two_pow_sub_one_eq_mod word.toNat 12

/-- The two masks cut a word into two parts that add up to it. -/
theorem and_masks_add (word : Word) : (word &&& operationMask) + (word &&& addressMask) = word := by
  have hdisjoint : (word &&& operationMask) &&& (word &&& addressMask) = 0#16 := by
    have hmasks : operationMask &&& addressMask = 0#16 := by decide
    rw [BitVec.and_assoc, ← BitVec.and_assoc operationMask, BitVec.and_comm operationMask,
      BitVec.and_assoc, hmasks, BitVec.and_zero, BitVec.and_zero]
  rw [BitVec.add_eq_or_of_and_eq_zero _ _ hdisjoint, ← BitVec.and_or_distrib_left]
  have hall : operationMask ||| addressMask = BitVec.allOnes 16 := by decide
  rw [hall, BitVec.and_allOnes]

/-- The operation bits of a word are what the remainder leaves. -/
theorem toNat_and_operationMask (word : Word) :
    (word &&& operationMask).toNat = word.toNat / 4096 * 4096 := by
  have hsum := congrArg BitVec.toNat (and_masks_add word)
  rw [BitVec.toNat_add, toNat_and_addressMask] at hsum
  have hle : (word &&& operationMask).toNat ≤ 0xF000 := by
    rw [BitVec.toNat_and]
    exact Nat.and_le_right
  omega

end Word

/-! ## The table of opcodes -/

namespace Opcode

/-- A search of the table finds the one opcode that a property singles out. -/
theorem find?_all_eq_some_iff {p : Opcode → Bool} (hunique : ∀ a b, p a → p b → a = b)
    {op : Opcode} : all.find? p = some op ↔ p op = true := by
  constructor
  · exact List.find?_some
  · intro hop
    cases hfind : all.find? p with
    | none => exact absurd hop (List.find?_eq_none.mp hfind op (mem_all op))
    | some other => rw [hunique other op (List.find?_some hfind) hop]

/-- An operation is found by its mnemonic. -/
theorem ofMnemonic?_mnemonic (op : Opcode) : ofMnemonic? op.mnemonic = some op := by
  unfold ofMnemonic?
  rw [find?_all_eq_some_iff]
  · simp
  · intro a b ha hb
    exact mnemonic_injective ((of_decide_eq_true ha).trans (of_decide_eq_true hb).symm)

/-- A pattern finds the operation that has it. -/
theorem ofPattern?_eq_some_iff {op : Opcode} {word : Word} :
    ofPattern? word = some op ↔ op.pattern = word := by
  unfold ofPattern?
  rw [find?_all_eq_some_iff]
  · simp
  · intro a b ha hb
    exact pattern_injective ((of_decide_eq_true ha).trans (of_decide_eq_true hb).symm)

/-- Among the operations with an operand a pattern finds the one that has it. -/
theorem memoryOfPattern?_eq_some_iff {op : Opcode} {word : Word} :
    memoryOfPattern? word = some op ↔ op.takesOperand = true ∧ op.pattern = word := by
  unfold memoryOfPattern?
  rw [find?_all_eq_some_iff]
  · simp
  · intro a b ha hb
    simp only [Bool.and_eq_true, decide_eq_true_eq] at ha hb
    exact pattern_injective (ha.2.trans hb.2.symm)

/-- The patterns of memory references are the multiples of `1000` up to `6000`. -/
theorem pattern_of_takesOperand {op : Opcode} (h : op.takesOperand = true) :
    op.pattern.toNat % 4096 = 0 ∧ op.pattern.toNat / 4096 ≤ 6 := by
  revert h
  cases op <;> decide

/-- The other patterns have some low bit set, under the nibble `7` or `F`. -/
theorem pattern_of_not_takesOperand {op : Opcode} (h : op.takesOperand = false) :
    op.pattern.toNat % 4096 ≠ 0 ∧ (op.pattern.toNat / 4096 = 7 ∨ op.pattern.toNat / 4096 = 15) := by
  revert h
  cases op <;> decide

end Opcode

/-! ## What decoding finds -/

namespace Decoded

/-- A pattern with some low bit set takes no operand. -/
theorem not_takesOperand_of_pattern {op : Opcode} (h : op.pattern &&& Word.addressMask ≠ 0) :
    op.takesOperand = false := by
  unfold Opcode.takesOperand Opcode.kind
  rw [if_neg h]
  split <;> rfl

/-- The reading of a word as a reference: a reference that is encoded to the word, or data. -/
theorem ofReference_cases (word : Word) :
    (∃ op address indirect, ofReference word = .memory op address indirect ∧
        op.takesOperand = true ∧ address.toNat ≤ 0xFFF ∧
        BitVec.ofNat 16 (referenceSum op address.toNat indirect) = word) ∨
      ofReference word = .data word := by
  have haddress := Word.toNat_and_addressMask word
  have hlt := word.isLt
  unfold ofReference
  cases hdirect : Opcode.memoryOfPattern? (word &&& Word.operationMask) with
  | some op =>
      obtain ⟨htakes, hpattern⟩ := Opcode.memoryOfPattern?_eq_some_iff.mp hdirect
      refine .inl ⟨op, _, false, rfl, htakes, by omega, ?_⟩
      have hnat := congrArg BitVec.toNat hpattern
      rw [Word.toNat_and_operationMask] at hnat
      apply BitVec.eq_of_toNat_eq
      rw [BitVec.toNat_ofNat, referenceSum, hnat, haddress]
      simp only [Bool.false_eq_true, if_false]
      omega
  | none =>
      cases hindirect :
          Opcode.memoryOfPattern? ((word - Word.indirectBit) &&& Word.operationMask) with
      | none => exact .inr rfl
      | some op =>
          obtain ⟨htakes, hpattern⟩ := Opcode.memoryOfPattern?_eq_some_iff.mp hindirect
          refine .inl ⟨op, _, true, rfl, htakes, by omega, ?_⟩
          have hnat := congrArg BitVec.toNat hpattern
          have hbit : Word.indirectBit.toNat = 0x8000 := rfl
          rw [Word.toNat_and_operationMask, BitVec.toNat_sub, hbit] at hnat
          apply BitVec.eq_of_toNat_eq
          rw [BitVec.toNat_ofNat, referenceSum, hnat, haddress, hbit, if_pos rfl]
          omega

/-- **What a word decodes to is encoded to the word.** The three readings of a word are the only
ones, and each of them gives the word back. -/
theorem ofWord_cases (word : Word) :
    (∃ op, ofWord word = .register op ∧ op.takesOperand = false ∧ op.pattern = word) ∨
      (∃ op address indirect, ofWord word = .memory op address indirect ∧
        op.takesOperand = true ∧ address.toNat ≤ 0xFFF ∧
        BitVec.ofNat 16 (referenceSum op address.toNat indirect) = word) ∨
      ofWord word = .data word := by
  unfold ofWord
  split
  · exact .inr (ofReference_cases word)
  · next hlow =>
    cases hfind : Opcode.ofPattern? word with
    | none => exact .inr (ofReference_cases word)
    | some op =>
        have hpattern := Opcode.ofPattern?_eq_some_iff.mp hfind
        exact .inl ⟨op, rfl, not_takesOperand_of_pattern (hpattern ▸ hlow), hpattern⟩

/-! ## What encoding makes -/

/-- A word under a nibble that no register or device instruction has is a reference. -/
theorem ofWord_eq_ofReference {word : Word} (h7 : word.toNat / 4096 ≠ 7)
    (h15 : word.toNat / 4096 ≠ 15) : ofWord word = ofReference word := by
  unfold ofWord
  split
  · rfl
  · next hlow =>
    cases hfind : Opcode.ofPattern? word with
    | none => rfl
    | some op =>
        have hpattern := Opcode.ofPattern?_eq_some_iff.mp hfind
        have htakes := not_takesOperand_of_pattern (hpattern ▸ hlow)
        have hnibble := (Opcode.pattern_of_not_takesOperand htakes).2
        rw [hpattern] at hnibble
        omega

/-- **A reference within 12 bits decodes to itself**: opcode, address and indirect bit. -/
theorem ofWord_referenceSum {op : Opcode} (htakes : op.takesOperand = true) {operand : Nat}
    (hoperand : operand ≤ 0xFFF) (indirect : Bool) :
    ofWord (BitVec.ofNat 16 (referenceSum op operand indirect)) =
      .memory op (BitVec.ofNat 16 operand) indirect := by
  obtain ⟨hlow, hnibble⟩ := Opcode.pattern_of_takesOperand htakes
  have hbit : Word.indirectBit.toNat = 0x8000 := rfl
  generalize hword : BitVec.ofNat 16 (referenceSum op operand indirect) = word
  have hnat : word.toNat = op.pattern.toNat + operand + if indirect then 0x8000 else 0 := by
    rw [← hword, BitVec.toNat_ofNat, referenceSum, hbit]
    apply Nat.mod_eq_of_lt
    split <;> omega
  have haddress : word &&& Word.addressMask = BitVec.ofNat 16 operand := by
    apply BitVec.eq_of_toNat_eq
    rw [Word.toNat_and_addressMask, BitVec.toNat_ofNat, hnat]
    split <;> omega
  have hreference : ofWord word = ofReference word := by
    apply ofWord_eq_ofReference
    · rw [hnat]; split <;> omega
    · rw [hnat]; split <;> omega
  rw [hreference, ofReference, haddress]
  cases indirect with
  | false =>
      have hpattern : op.pattern = word &&& Word.operationMask := by
        apply BitVec.eq_of_toNat_eq
        rw [Word.toNat_and_operationMask, hnat]
        simp only [Bool.false_eq_true, if_false]
        omega
      rw [Opcode.memoryOfPattern?_eq_some_iff.mpr ⟨htakes, hpattern⟩]
  | true =>
      rw [if_pos rfl] at hnat
      -- the nibble is above those of the direct references, so the first search fails
      have hnone : Opcode.memoryOfPattern? (word &&& Word.operationMask) = none := by
        rw [Option.eq_none_iff_forall_ne_some]
        intro other hother
        obtain ⟨hothertakes, hotherpattern⟩ := Opcode.memoryOfPattern?_eq_some_iff.mp hother
        have hothernibble := (Opcode.pattern_of_takesOperand hothertakes).2
        rw [hotherpattern, Word.toNat_and_operationMask, hnat] at hothernibble
        omega
      have hpattern : op.pattern = (word - Word.indirectBit) &&& Word.operationMask := by
        apply BitVec.eq_of_toNat_eq
        rw [Word.toNat_and_operationMask, BitVec.toNat_sub, hnat, hbit]
        omega
      rw [hnone, Opcode.memoryOfPattern?_eq_some_iff.mpr ⟨htakes, hpattern⟩]

/-- **An instruction without operand decodes to itself.** -/
theorem ofWord_pattern {op : Opcode} (htakes : op.takesOperand = false) :
    ofWord op.pattern = .register op := by
  have hlow : op.pattern &&& Word.addressMask ≠ 0 := by
    intro hzero
    have hnat := congrArg BitVec.toNat hzero
    rw [Word.toNat_and_addressMask] at hnat
    exact (Opcode.pattern_of_not_takesOperand htakes).1 hnat
  rw [ofWord, if_neg hlow, Opcode.ofPattern?_eq_some_iff.mpr rfl]

end Decoded

end BasicComputer
