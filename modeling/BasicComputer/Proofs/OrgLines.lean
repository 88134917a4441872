import Mathlib.Data.List.InsertIdx
import BasicComputer.Proofs.Reassembly

/-!
# Which `ORG` lines a disassembly has

A disassembly has a line for the word of each entry, and an `ORG` in front of some of them. Here is
said which, and that hardly any can be spared.

* **Stretches** (`linesFrom_append`): the source lines of more entries go on with the address that
  is expected behind the first ones. So every source line belongs to one entry, and the lines around
  it are those of the entries around it (`place_of_linesFrom_eq`).
* **Where an `ORG` stands** (`startsRun_iff`): in front of an entry that does not
  follow the one before it. An entry at 0 follows nothing, not even an entry at `FFFF`.
* **What an `ORG` is good for** (`assemble_without_org`): without it the word behind it goes
  where the location counter is. The listing stays the same only if the counter is where the `ORG`
  moves it, at the start of the program and behind `FFFF`, both at address 0.
-/

namespace BasicComputer

/-- What a source line says of a word; an `ORG` says nothing. -/
def SourceLine.decoded? : SourceLine → Option Decoded
  | org _ => none
  | code decoded => some decoded

/-! ## Stretches of source lines -/

namespace Disassembly

/-- The address that is expected behind entries. -/
def expectedBehind (expected : Option Word) (entries : List Entry) : Option Word :=
  entries.foldl (fun _ e => Word.next? e.address) expected

/-- The `ORG` in front of an entry, unless its address is expected. -/
def orgFor (expected : Option Word) (address : Word) : List SourceLine :=
  if expected = some address then [] else [.org address]

variable {expected : Option Word} {entries : List Entry}

/-- An entry makes a line of code, behind an `ORG` if it stands elsewhere than expected. -/
theorem linesFrom_cons (expected : Option Word) (e : Entry) (rest : List Entry) :
    linesFrom expected (e :: rest) =
      orgFor expected e.address ++
        .code (.ofWord e.value) :: linesFrom (Word.next? e.address) rest := by
  rw [linesFrom, orgFor]
  split <;> rfl

/-- The source lines of more entries go on with the address that is expected behind the first. -/
theorem linesFrom_append (expected : Option Word) (front back : List Entry) :
    linesFrom expected (front ++ back) =
      linesFrom expected front ++ linesFrom (expectedBehind expected front) back := by
  induction front generalizing expected with
  | nil => rfl
  | cons e rest ih =>
      rw [List.cons_append, linesFrom_cons, linesFrom_cons, ih, List.append_assoc]
      rfl

/-- The source lines up to an entry, those of the entry and those behind it. -/
theorem linesFrom_append_cons (expected : Option Word) (before : List Entry) (e : Entry)
    (after : List Entry) :
    linesFrom expected (before ++ e :: after) =
      linesFrom expected before ++ (orgFor (expectedBehind expected before) e.address ++
        .code (.ofWord e.value) :: linesFrom (Word.next? e.address) after) := by
  rw [linesFrom_append, linesFrom_cons]

/-- **Without the `ORG` lines**, the readings of the words are left, in order. -/
theorem filterMap_decoded?_linesFrom (expected : Option Word) (entries : List Entry) :
    (linesFrom expected entries).filterMap SourceLine.decoded? =
      entries.map fun e => .ofWord e.value := by
  induction entries generalizing expected with
  | nil => rfl
  | cons e rest ih =>
      have horg : (orgFor expected e.address).filterMap SourceLine.decoded? = [] := by
        unfold orgFor
        split <;> rfl
      rw [linesFrom_cons, List.filterMap_append, horg, List.nil_append, List.map_cons, ← ih]
      rfl

/-- Only an empty listing makes no lines. -/
theorem linesFrom_eq_nil_iff : linesFrom expected entries = [] ↔ entries = [] := by
  rcases entries with _ | ⟨e, rest⟩
  · exact ⟨fun _ => rfl, fun _ => rfl⟩
  · simp [linesFrom_cons]

/-- Where a source line can stand among those of entries: in front of the reading of an entry's word
as its `ORG`, or as that reading. -/
inductive Place (expected : Option Word) :
    List Entry → List SourceLine → SourceLine → List SourceLine → Prop
  | org {before after : List Entry} {e : Entry}
      (h : expectedBehind expected before ≠ some e.address) :
      Place expected (before ++ e :: after) (linesFrom expected before) (.org e.address)
        (.code (.ofWord e.value) :: linesFrom (Word.next? e.address) after)
  | code {before after : List Entry} {e : Entry} :
      Place expected (before ++ e :: after)
        (linesFrom expected before ++ orgFor (expectedBehind expected before) e.address)
        (.code (.ofWord e.value)) (linesFrom (Word.next? e.address) after)

/-- One more entry in front of all others puts its source lines in front. -/
theorem Place.cons {front back : List SourceLine} {line : SourceLine} {e : Entry}
    (h : Place (Word.next? e.address) entries front line back) :
    Place expected (e :: entries)
      (orgFor expected e.address ++ .code (.ofWord e.value) :: front) line back := by
  cases h with
  | @org before after e' h =>
      have hplace : Place expected (e :: before ++ e' :: after) _ _ _ := .org h
      rwa [linesFrom_cons] at hplace
  | @code before after e' =>
      have hplace : Place expected (e :: before ++ e' :: after) _ _ _ := .code
      rwa [linesFrom_cons, List.append_assoc] at hplace

/-- **Every source line has its place.** -/
theorem place_of_linesFrom_eq {front back : List SourceLine} {line : SourceLine}
    (h : linesFrom expected entries = front ++ line :: back) :
    Place expected entries front line back := by
  induction entries generalizing expected front with
  | nil => simp [linesFrom] at h
  | cons e rest ih =>
      -- behind its `ORG`, if it has one, the first entry has the reading of its word
      have hcode : ∀ front, SourceLine.code (.ofWord e.value) ::
            linesFrom (Word.next? e.address) rest = front ++ line :: back →
          Place expected (e :: rest) (orgFor expected e.address ++ front) line back := by
        intro front hfront
        rcases List.cons_eq_append_iff.mp hfront with ⟨rfl, hline⟩ | ⟨front, rfl, hrest⟩
        · cases hline
          rw [List.append_nil]
          exact @Place.code expected [] rest e
        · exact (ih hrest).cons
      rw [linesFrom_cons] at h
      by_cases hexpected : expected = some e.address
      · rw [orgFor, if_pos hexpected] at h hcode
        exact hcode front h
      · rw [orgFor, if_neg hexpected] at h hcode
        rcases List.cons_eq_append_iff.mp h with ⟨rfl, hline⟩ | ⟨front, rfl, hrest⟩
        · cases hline
          exact @Place.org expected [] rest e hexpected
        · exact hcode front hrest

/-! ## Where an `ORG` stands -/

/-- How many words source lines stand for. -/
def wordCount (lines : List SourceLine) : Nat :=
  (lines.filterMap SourceLine.decoded?).length

/-- An entry starts a run when it is the first, or when its address is not the one that follows the
address of the entry before it. -/
def StartsRun (entries : List Entry) (i : Nat) : Prop :=
  i = 0 ∨ ∃ previous e, entries[i - 1]? = some previous ∧ entries[i]? = some e ∧
    e.address.toNat ≠ previous.address.toNat + 1

/-- Every entry makes one word. -/
theorem wordCount_linesFrom (expected : Option Word) (entries : List Entry) :
    wordCount (linesFrom expected entries) = entries.length := by
  rw [wordCount, filterMap_decoded?_linesFrom, List.length_map]

/-- An `ORG` stands for no word. -/
theorem wordCount_append_orgFor (lines : List SourceLine) (expected : Option Word)
    (address : Word) : wordCount (lines ++ orgFor expected address) = wordCount lines := by
  unfold wordCount orgFor
  split <;> simp [SourceLine.decoded?]

/-- The next address is one more, and the last has none. -/
theorem next?_eq_some_iff {address next : Word} :
    Word.next? address = some next ↔ next.toNat = address.toNat + 1 := by
  have haddress := address.isLt
  have hnext := next.isLt
  unfold Word.next?
  split
  · next hlast =>
    have hlast : address.toNat = 0xFFFF := congrArg BitVec.toNat hlast
    simp only [reduceCtorEq, false_iff]
    omega
  · next hlast =>
    have hlast : address.toNat ≠ 0xFFFF := mt (BitVec.eq_of_toNat_eq ·) hlast
    rw [Option.some.injEq, ← BitVec.toNat_inj, BitVec.toNat_add]
    change (address.toNat + 1) % 0x10000 = next.toNat ↔ _
    omega

/-- The address of an entry is expected unless the entry starts a run. -/
theorem startsRun_iff (before : List Entry) (e : Entry) (after : List Entry) :
    StartsRun (before ++ e :: after) before.length ↔
      expectedBehind none before ≠ some e.address := by
  rcases List.eq_nil_or_concat' before with rfl | ⟨front, previous, rfl⟩
  · simp [StartsRun, expectedBehind]
  · have hexpected : expectedBehind none (front ++ [previous]) = Word.next? previous.address := by
      rw [expectedBehind, List.foldl_concat]
    rw [hexpected, ne_eq, next?_eq_some_iff]
    simp [StartsRun]

/-- The last source line of entries is the reading of a word. -/
theorem getLast?_linesFrom_ne_org (expected : Option Word) (entries : List Entry) (address : Word) :
    (linesFrom expected entries).getLast? ≠ some (.org address) := by
  rcases List.eq_nil_or_concat' entries with rfl | ⟨front, e, rfl⟩
  · simp [linesFrom]
  · simp [linesFrom_append_cons, linesFrom]

/-- An `ORG` stands directly in front of a reading when the address of the entry is not expected,
and it moves there. -/
theorem getLast?_append_orgFor_eq_org_iff {before : List Entry} {behind : Option Word}
    {address target : Word} :
    (linesFrom expected before ++ orgFor behind address).getLast? = some (.org target) ↔
      target = address ∧ behind ≠ some address := by
  unfold orgFor
  split
  · next hexpected => simp [hexpected, getLast?_linesFrom_ne_org]
  · next hexpected => simp [hexpected, eq_comm]

end Disassembly

/-! ## What an `ORG` is good for -/

open Disassembly

/-- An address that does not follow another is behind it only where addresses wrap. -/
theorem add_one_eq_iff {previous address : Word} (h : address.toNat ≠ previous.toNat + 1) :
    previous + 1 = address ↔ address = 0 ∧ previous = 0xFFFF := by
  have hprevious := previous.isLt
  have haddress := address.isLt
  simp only [← BitVec.toNat_inj, BitVec.toNat_add]
  change (previous.toNat + 1) % 0x10000 = address.toNat ↔ address.toNat = 0 ∧
    previous.toNat = 0xFFFF
  omega

/-- Where nothing is expected but the location counter stands all the same: at the start, and behind
the last address. -/
theorem addressBehind_eq_iff {before : List Entry} {address : Word}
    (h : expectedBehind none before ≠ some address) (rest : List Entry) :
    addressBehind 0 before = address ↔
      address = 0 ∧ (before = [] ∨
        ∃ i previous, before.length = i + 1 ∧ (before ++ rest)[i]? = some previous ∧
          previous.address = 0xFFFF) := by
  rcases List.eq_nil_or_concat' before with rfl | ⟨front, previous, rfl⟩
  · exact ⟨fun hstart => ⟨hstart.symm, .inl rfl⟩, fun hzero => hzero.1.symm⟩
  · rw [expectedBehind, List.foldl_concat, ne_eq, next?_eq_some_iff] at h
    rw [addressBehind, List.foldl_concat, add_one_eq_iff h]
    refine and_congr_right fun _ => ⟨fun hlast => ?_, ?_⟩
    · exact .inr ⟨front.length, previous, by simp, by simp, hlast⟩
    · rintro (hnil | ⟨i, last, hlength, hget, hlast⟩)
      · exact absurd hnil (by simp)
      · obtain rfl : front.length = i := by simpa using hlength
        obtain rfl : previous = last := by simpa using hget
        exact hlast

/-- **A program without one of its `ORG` lines** puts the word behind it where the location counter
is, and it has the same listing only if that is where the `ORG` moves it. -/
theorem entriesFrom_without_org (policy : BlankLines) (before after : List Entry) (e : Entry) :
    entriesFrom policy .empty 0 ((linesFrom none before ++ .code (.ofWord e.value) ::
        linesFrom (Word.next? e.address) after).map SourceLine.line) = before ++ e :: after ↔
      addressBehind 0 before = e.address := by
  rw [List.map_append, entriesFrom_linesFrom_append policy before (by simp), List.map_cons,
    entriesFrom_ofWord_cons, List.append_cancel_left_eq, List.cons.injEq]
  constructor
  · rintro ⟨hentry, -⟩
    rw [← hentry]
  · intro haddress
    rw [haddress]
    exact ⟨rfl, entriesFrom_linesFrom policy after fun _ => Word.next?_eq_some⟩

/-- The rendered disassembly with one line less. -/
theorem sourceLines_eraseIdx (d : Disassembly) (k : Nat) :
    sourceLines (Text.unlines ((Text.lines d.render).eraseIdx k)) =
      (d.lines.eraseIdx k).map SourceLine.line := by
  rw [d.lines_render, List.eraseIdx_map]
  exact sourceLines_render ⟨d.lines.eraseIdx k, []⟩

/-- **A disassembly without one of its `ORG` lines** still assembles, to what its other lines come
to. -/
theorem assemble_without_org (policy : BlankLines) (diagnostics : List Diagnostic)
    {before after : List Entry} {e : Entry}
    (h : expectedBehind none before ≠ some e.address) :
    assemble policy (Text.unlines
        ((Text.lines (Disassembly.render ⟨linesOf (before ++ e :: after), diagnostics⟩)).eraseIdx
          (linesFrom none before).length)) =
      .ok {
        listing := ⟨entriesFrom policy .empty 0 ((linesFrom none before ++
          .code (.ofWord e.value) :: linesFrom (Word.next? e.address) after).map SourceLine.line)⟩
        symbols := .empty
        diagnostics := [] } := by
  have hlines : (linesOf (before ++ e :: after)).eraseIdx (linesFrom none before).length =
      linesFrom none before ++
        .code (.ofWord e.value) :: linesFrom (Word.next? e.address) after := by
    rw [linesOf, linesFrom_append_cons, orgFor, if_neg h,
      List.eraseIdx_append_of_length_le (Nat.le_refl _), Nat.sub_self]
    rfl
  have hreading : ∀ line ∈ (linesOf (before ++ e :: after)).eraseIdx
      (linesFrom none before).length, line.IsReading :=
    fun line hline => isReading_of_mem_linesFrom (List.mem_of_mem_eraseIdx hline)
  rw [assemble, sourceLines_eraseIdx, assembleLines_of_isReading policy hreading, hlines]

/-- **An `ORG` stands where it is needed and nowhere else.** Without the `ORG` lines, the source
lines of entries are the readings of their words. Directly in front of a reading stands an `ORG` to
the address of its entry exactly when the entry starts a run, and behind an `ORG` there is always a
reading.

When one `ORG` is deleted from the rendered text, the text still assembles without a diagnostic, but
to another listing. The exceptions are an `ORG` to address 0 in the first line and an `ORG` to
address 0 behind an entry at `FFFF`. -/
theorem orgs_stand_where_needed (entries : List Entry) :
    let lines := linesOf entries
    lines.filterMap SourceLine.decoded? = entries.map (fun e => .ofWord e.value) ∧
    (∀ front decoded back, lines = front ++ .code decoded :: back →
      ∃ e, entries[wordCount front]? = some e ∧ decoded = .ofWord e.value ∧
        (front.getLast? = some (.org e.address) ↔ StartsRun entries (wordCount front)) ∧
        ∀ address, front.getLast? = some (.org address) → address = e.address) ∧
    ∀ front address back, lines = front ++ .org address :: back →
      (∃ decoded rest, back = .code decoded :: rest) ∧
      ∀ (policy : BlankLines) (diagnostics : List Diagnostic),
        let text := Disassembly.render ⟨lines, diagnostics⟩
        assemble policy text =
          .ok { listing := ⟨entries⟩, symbols := .empty, diagnostics := [] } ∧
        ∃ listing,
          assemble policy (Text.unlines ((Text.lines text).eraseIdx front.length)) =
            .ok { listing, symbols := .empty, diagnostics := [] } ∧
          (listing = ⟨entries⟩ ↔
            address = 0 ∧ (front = [] ∨
              ∃ i previous, wordCount front = i + 1 ∧ entries[i]? = some previous ∧
                previous.address = 0xFFFF)) := by
  intro lines
  refine ⟨filterMap_decoded?_linesFrom none entries, ?_, ?_⟩
  · intro front decoded back hsplit
    cases place_of_linesFrom_eq hsplit with
    | @code before after e =>
        have hcount : wordCount (linesFrom none before ++
            orgFor (expectedBehind none before) e.address) = before.length := by
          rw [wordCount_append_orgFor, wordCount_linesFrom]
        rw [hcount, startsRun_iff]
        refine ⟨e, by simp, rfl, ?_, fun address hlast => ?_⟩
        · rw [getLast?_append_orgFor_eq_org_iff]
          exact and_iff_right rfl
        · exact (getLast?_append_orgFor_eq_org_iff.mp hlast).1
  · intro front address back hsplit
    cases place_of_linesFrom_eq hsplit with
    | @org before after e hexpected =>
        refine ⟨⟨_, _, rfl⟩, fun policy diagnostics => ⟨?_, ?_⟩⟩
        · rw [assemble, sourceLines_render]
          exact assembleLines_linesOf policy _
        · refine ⟨_, assemble_without_org policy diagnostics hexpected, ?_⟩
          rw [Listing.mk.injEq, entriesFrom_without_org, addressBehind_eq_iff hexpected (e :: after),
            linesFrom_eq_nil_iff, wordCount_linesFrom]

/-- An `ORG` to address 0 in three places. In the first line and behind `FFFF` it can be spared.
Between two entries at 0 it cannot, although without it the text assembles just as well. -/
theorem orgs_stand_where_needed_around_wrapping :
    let entries : List Entry := [⟨0, 0x7001⟩, ⟨0xFFFF, 0x20A5⟩, ⟨0, 3⟩, ⟨0, 4⟩]
    let text := Disassembly.render ⟨linesOf entries, []⟩
    let without : Nat → String := fun k => Text.unlines ((Text.lines text).eraseIdx k)
    let clean : Listing → Except Fault Assembly := fun listing =>
      .ok { listing, symbols := .empty, diagnostics := [] }
    (linesOf entries)[4]? = some (.org 0) ∧ StartsRun entries 2 ∧
      assemble .skip (without 0) = clean ⟨entries⟩ ∧
      assemble .skip (without 4) = clean ⟨entries⟩ ∧
      ∃ other, other ≠ ⟨entries⟩ ∧ assemble .skip (without 6) = clean other := by
  intro entries text without clean
  let code : Word → SourceLine := fun word => .code (.ofWord word)
  have hlines : linesOf entries =
      [.org 0, code 0x7001, .org 0xFFFF, code 0x20A5, .org 0, code 3, .org 0, code 4] := by
    decide +kernel
  obtain ⟨-, hcode, horg⟩ := orgs_stand_where_needed entries
  refine ⟨by rw [hlines]; rfl, ?_, ?_, ?_, ?_⟩
  · obtain ⟨e, he, -, hstarts, hlast⟩ :=
      hcode [.org 0, code 0x7001, .org 0xFFFF, code 0x20A5, .org 0] _ [.org 0, code 4] hlines
    exact hstarts.mp (by rw [← hlast 0 rfl]; rfl)
  · obtain ⟨-, listing, hassembly, hsame⟩ := (horg [] 0 _ hlines).2 .skip []
    rw [hsame.mpr ⟨rfl, .inl rfl⟩] at hassembly
    exact hassembly
  · obtain ⟨-, listing, hassembly, hsame⟩ := (horg [.org 0, code 0x7001, .org 0xFFFF, code 0x20A5]
      0 [code 3, .org 0, code 4] hlines).2 .skip []
    rw [hsame.mpr ⟨rfl, .inr ⟨1, ⟨0xFFFF, 0x20A5⟩, rfl, rfl, rfl⟩⟩] at hassembly
    exact hassembly
  · obtain ⟨-, listing, hassembly, hsame⟩ := (horg
      [.org 0, code 0x7001, .org 0xFFFF, code 0x20A5, .org 0, code 3] 0 [code 4] hlines).2 .skip []
    refine ⟨listing, fun hlisting => ?_, hassembly⟩
    obtain ⟨-, hfirst | ⟨i, previous, hcount, hprevious, hwraps⟩⟩ := hsame.mp hlisting
    · cases hfirst
    · cases hcount
      cases hprevious
      cases hwraps

end BasicComputer
