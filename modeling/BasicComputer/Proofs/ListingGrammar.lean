import Mathlib.Data.List.Forall2
import Mathlib.Data.List.TakeWhile
import BasicComputer.Listing.Read
import BasicComputer.Proofs.NumeralGrammar
import BasicComputer.Proofs.Texts

/-!
# The grammar of a listing

The reader of a listing takes any text. Here is said, without the reader, what a text holds as a
listing, and then that the reader finds exactly this.

* **Lines** (`Text.CutInto`): a line ends in front of a line feed, or in front of a carriage return
  with a line feed behind it, and a last line may go without an ending.
* **Fields** (`Text.IsTrimmed`): a field is a token with blank characters around it, and the token
  neither starts nor ends with one.
* **One line** (`Entry.Reads`): a line without a colon gives nothing. The first colon of any other
  line cuts it in two fields. It gives an entry if both are hexadecimal numerals of words, and
  otherwise an issue about the first that is not.
* **All lines** (`Listing.Holds`): entries and issues, each in the order of the lines, and an issue
  with the number of its line.

Each of these relations is the graph of the function that reads (`Text.cutInto_iff`,
`Text.isTrimmed_iff`, `Entry.reads_iff`, `Listing.read_eq_iff_holds`): one half says that what the
grammar allows is what is read, so it allows one reading at most, and the other that it always
allows one.
-/

namespace BasicComputer

namespace Text

/-! ## Lines -/

/-- The lines of a text. A carriage return in front of a line feed belongs to the ending of the
line, and a last line without an ending holds something. -/
inductive CutInto : List Char → List String → Prop
  | nil : CutInto [] []
  | last {line : String} (hne : line ≠ "") (hfeed : '\n' ∉ line.toList) : CutInto line.toList [line]
  | feed {line : String} {rest : List Char} {lines : List String} (hline : IsLine line)
      (h : CutInto rest lines) : CutInto (line.toList ++ '\n' :: rest) (line :: lines)
  | returnFeed {line : String} {rest : List Char} {lines : List String}
      (hfeed : '\n' ∉ line.toList) (h : CutInto rest lines) :
      CutInto (line.toList ++ '\r' :: '\n' :: rest) (line :: lines)

/-- A text that is cut into lines has these lines. -/
theorem lines_of_cutInto {cs : List Char} {lines : List String} (h : CutInto cs lines) :
    Text.lines (String.ofList cs) = lines := by
  induction h with
  | nil => rfl
  | last hne hfeed =>
      have hnil := mt String.toList_eq_nil_iff.mp hne
      unfold Text.lines
      rw [String.toList_ofList, List.splitOnP_eq_singleton (ne_feed_of_not_mem hfeed), closeLines,
        if_neg hnil, List.map_singleton, String.ofList_toList]
  | feed hline _ ih =>
      rw [lines_ofList_append_cons hline.1, dropReturn_of_isLine hline, String.ofList_toList, ih]
  | @returnFeed line rest _ hfeed _ ih =>
      have hclosed : '\n' ∉ line.toList ++ ['\r'] := by simpa using hfeed
      have htext : line.toList ++ '\r' :: '\n' :: rest =
          (line.toList ++ ['\r']) ++ '\n' :: rest := by simp
      have hdrop : dropReturn (line.toList ++ ['\r']) = line.toList := by simp [dropReturn]
      rw [htext, lines_ofList_append_cons hclosed, hdrop, String.ofList_toList, ih]

/-- Every text is cut into lines. -/
theorem exists_cutInto (cs : List Char) : ∃ lines, CutInto cs lines := by
  by_cases hfeed : '\n' ∈ cs
  · obtain ⟨front, rest, rfl, hfront⟩ := List.eq_append_cons_of_mem hfeed
    obtain ⟨lines, hlines⟩ := exists_cutInto rest
    by_cases hreturn : front.getLast? = some '\r'
    · obtain ⟨line, rfl⟩ := List.getLast?_eq_some_iff.mp hreturn
      have hline : '\n' ∉ (String.ofList line).toList := by
        rw [String.toList_ofList]
        exact fun hmem => hfront (List.mem_append_left _ hmem)
      have hcut := CutInto.returnFeed hline hlines
      rw [String.toList_ofList] at hcut
      exact ⟨_, by simpa using hcut⟩
    · have hline : IsLine (String.ofList front) := by
        rw [IsLine, String.toList_ofList]
        exact ⟨hfront, hreturn⟩
      have hcut := CutInto.feed hline hlines
      rw [String.toList_ofList] at hcut
      exact ⟨_, hcut⟩
  · by_cases hnil : cs = []
    · exact ⟨[], hnil ▸ .nil⟩
    · have hne : String.ofList cs ≠ "" := by simpa using hnil
      have hcut := CutInto.last hne (by rwa [String.toList_ofList])
      rw [String.toList_ofList] at hcut
      exact ⟨_, hcut⟩
termination_by cs.length

/-- **The cut of a text into lines** is the only one. -/
theorem cutInto_iff {text : String} {lines : List String} :
    CutInto text.toList lines ↔ Text.lines text = lines := by
  have hlines : ∀ {lines}, CutInto text.toList lines → Text.lines text = lines := by
    intro lines h
    rw [← lines_of_cutInto h, String.ofList_toList]
  constructor
  · exact hlines
  · rintro rfl
    obtain ⟨lines, hcut⟩ := exists_cutInto text.toList
    rwa [hlines hcut]

/-! ## Fields -/

/-- A field is a token with blank characters around it, and the token neither starts nor ends with
one. -/
def IsTrimmed (field token : List Char) : Prop :=
  ∃ before after, field = before ++ (token ++ after) ∧
    (∀ c ∈ before, isBlank c = true) ∧ (∀ c ∈ after, isBlank c = true) ∧
    (∀ c, token.head? = some c → isBlank c = false) ∧
    ∀ c, token.getLast? = some c → isBlank c = false

/-- What is left of a text behind the blank characters in front does not start with one. -/
theorem isBlank_of_head?_dropWhile {cs : List Char} {c : Char}
    (h : (cs.dropWhile isBlank).head? = some c) : isBlank c = false := by
  have hhead := List.head?_dropWhile_not isBlank cs
  rw [h] at hhead
  simpa using hhead

/-- Trimming a field leaves the field without blanks at its ends. -/
theorem isTrimmed_trim (field : List Char) : IsTrimmed field (trim field) := by
  -- the blank characters at the end are those at the front of the reversed rest
  have hrest : field.dropWhile isBlank =
      trim field ++ ((field.dropWhile isBlank).reverse.takeWhile isBlank).reverse := by
    rw [trim, ← List.reverse_append, List.takeWhile_append_dropWhile, List.reverse_reverse]
  refine ⟨field.takeWhile isBlank,
    ((field.dropWhile isBlank).reverse.takeWhile isBlank).reverse, ?_, ?_, ?_, ?_, ?_⟩
  · rw [← hrest, List.takeWhile_append_dropWhile]
  · exact fun c hc => List.mem_takeWhile_imp hc
  · exact fun c hc => List.mem_takeWhile_imp (List.mem_reverse.mp hc)
  · intro c hc
    have hhead : (field.dropWhile isBlank).head? = some c := by
      rw [hrest, List.head?_append, hc]
      rfl
    exact isBlank_of_head?_dropWhile hhead
  · intro c hc
    rw [trim, List.getLast?_reverse] at hc
    exact isBlank_of_head?_dropWhile hc

/-- There is only one way to trim a field. -/
theorem trim_of_isTrimmed {field token : List Char} (h : IsTrimmed field token) :
    trim field = token := by
  obtain ⟨before, after, rfl, hbefore, hafter, hhead, hlast⟩ := h
  have hafter' : ∀ c ∈ after.reverse, isBlank c = true := by
    intro c hc
    exact hafter c (List.mem_reverse.mp hc)
  unfold trim
  rw [List.dropWhile_append_of_pos hbefore]
  by_cases hnil : token = []
  · subst hnil
    rw [List.nil_append, List.dropWhile_eq_nil_iff.mpr hafter]
    rfl
  · have hfront : ∀ c, (token ++ after).head? = some c → isBlank c = false := by
      intro c hc
      rw [List.head?_append_of_ne_nil _ hnil] at hc
      exact hhead c hc
    have hback : ∀ c, token.reverse.head? = some c → isBlank c = false := by
      intro c hc
      rw [List.head?_reverse] at hc
      exact hlast c hc
    rw [dropWhile_isBlank_of_head? hfront, List.reverse_append,
      List.dropWhile_append_of_pos hafter', dropWhile_isBlank_of_head? hback, List.reverse_reverse]

/-- **Trimming gives the token of a field**, and a field has only one. -/
theorem isTrimmed_iff {field token : List Char} : IsTrimmed field token ↔ trim field = token :=
  ⟨trim_of_isTrimmed, fun h => h ▸ isTrimmed_trim field⟩

end Text

/-! ## One line -/

namespace Entry

/-- A token is the hexadecimal numeral of a word. -/
def IsWord (token : List Char) : Prop :=
  ∃ n, Numeral.Spells .hex token n ∧ n ≤ 0xFFFF

/-- The issue of a token that is not the numeral of a word. -/
def badToken (token : List Char) : Issue :=
  .invalidNumber (String.ofList token) .hex

/-- What a line of a listing reads as: nothing, an entry or an issue. -/
inductive Reads : List Char → Option (Except Issue Entry) → Prop
  | nothing {line : List Char} (hcolon : ':' ∉ line) : Reads line none
  | entry {before behind first second : List Char} {address value : Word} (hcolon : ':' ∉ before)
      (hfirst : Text.IsTrimmed before first) (hsecond : Text.IsTrimmed behind second)
      (haddress : Numeral.Spells .hex first address.toNat)
      (hvalue : Numeral.Spells .hex second value.toNat) :
      Reads (before ++ ':' :: behind) (some (.ok ⟨address, value⟩))
  | badAddress {before behind first : List Char} (hcolon : ':' ∉ before)
      (hfirst : Text.IsTrimmed before first) (haddress : ¬ IsWord first) :
      Reads (before ++ ':' :: behind) (some (.error (badToken first)))
  | badValue {before behind first second : List Char} (hcolon : ':' ∉ before)
      (hfirst : Text.IsTrimmed before first) (hsecond : Text.IsTrimmed behind second)
      (haddress : IsWord first) (hvalue : ¬ IsWord second) :
      Reads (before ++ ':' :: behind) (some (.error (badToken second)))

/-- A token is a word exactly when it spells the value of one. -/
theorem isWord_iff {token : List Char} :
    IsWord token ↔ ∃ word : Word, Numeral.Spells .hex token word.toNat := by
  constructor
  · rintro ⟨n, hspells, hn⟩
    refine ⟨BitVec.ofNat 16 n, ?_⟩
    rwa [BitVec.toNat_ofNat, Nat.mod_eq_of_lt (by omega)]
  · rintro ⟨word, hspells⟩
    exact ⟨word.toNat, hspells, Nat.le_of_lt_succ word.isLt⟩

/-- A field whose token spells a word is read as that word. -/
theorem readField_of_spells {field token : List Char} {word : Word}
    (h : Text.IsTrimmed field token) (hspells : Numeral.Spells .hex token word.toNat) :
    readField field = .ok word := by
  have hread : Numeral.word? (String.ofList token) = some word := by
    rwa [Numeral.word?_eq_some_iff, String.toList_ofList]
  unfold readField
  rw [Text.trim_of_isTrimmed h]
  dsimp only
  rw [hread]

/-- A field whose token is no word is reported. -/
theorem readField_of_not_isWord {field token : List Char} (h : Text.IsTrimmed field token)
    (hno : ¬ IsWord token) : readField field = .error (badToken token) := by
  have hread : Numeral.word? (String.ofList token) = none := by
    refine Option.eq_none_iff_forall_ne_some.mpr fun word hword => hno ?_
    rw [Numeral.word?_eq_some_iff, String.toList_ofList] at hword
    exact isWord_iff.mpr ⟨word, hword⟩
  unfold readField
  rw [Text.trim_of_isTrimmed h]
  dsimp only
  rw [hread]
  rfl

/-- Characters without a colon among them, as a test on each. -/
theorem ne_colon_of_not_mem {cs : List Char} (h : ':' ∉ cs) :
    ∀ c ∈ cs, decide (c ≠ ':') = true := by
  intro c hc
  exact decide_eq_true fun heq => h (heq ▸ hc)

/-- A line is cut at its first colon. -/
theorem ofLine?_of_colon {line : String} {before behind : List Char}
    (h : line.toList = before ++ ':' :: behind) (hcolon : ':' ∉ before) :
    ofLine? line = some do
      let address ← readField before
      return ⟨address, ← readField behind⟩ := by
  have hbefore := ne_colon_of_not_mem hcolon
  unfold ofLine?
  rw [h, List.dropWhile_append_of_pos hbefore, List.takeWhile_append_of_pos hbefore,
    List.dropWhile_cons_of_neg (by simp), List.takeWhile_cons_of_neg (by simp), List.append_nil]

/-- What the grammar makes of a line is what the reader makes of it. -/
theorem ofLine?_of_reads {line : String} {result : Option (Except Issue Entry)}
    (h : Reads line.toList result) : ofLine? line = result := by
  generalize hline : line.toList = cs at h
  cases h with
  | nothing hcolon =>
      unfold ofLine?
      rw [hline, List.dropWhile_eq_nil_iff.mpr (ne_colon_of_not_mem hcolon)]
  | entry hcolon hfirst hsecond haddress hvalue =>
      rw [ofLine?_of_colon hline hcolon, readField_of_spells hfirst haddress,
        readField_of_spells hsecond hvalue]
      rfl
  | badAddress hcolon hfirst haddress =>
      rw [ofLine?_of_colon hline hcolon, readField_of_not_isWord hfirst haddress]
      rfl
  | badValue hcolon hfirst hsecond haddress hvalue =>
      obtain ⟨word, hword⟩ := isWord_iff.mp haddress
      rw [ofLine?_of_colon hline hcolon, readField_of_spells hfirst hword,
        readField_of_not_isWord hsecond hvalue]
      rfl

/-- Every line has a reading. -/
theorem exists_reads (line : List Char) : ∃ result, Reads line result := by
  by_cases hcolon : ':' ∈ line
  · obtain ⟨before, behind, rfl, hbefore⟩ := List.eq_append_cons_of_mem hcolon
    have hfirst := Text.isTrimmed_trim before
    have hsecond := Text.isTrimmed_trim behind
    by_cases haddress : IsWord (Text.trim before)
    · by_cases hvalue : IsWord (Text.trim behind)
      · obtain ⟨address, haddress⟩ := isWord_iff.mp haddress
        obtain ⟨value, hvalue⟩ := isWord_iff.mp hvalue
        exact ⟨_, .entry hbefore hfirst hsecond haddress hvalue⟩
      · exact ⟨_, .badValue hbefore hfirst hsecond haddress hvalue⟩
    · exact ⟨_, .badAddress hbefore hfirst haddress⟩
  · exact ⟨none, .nothing hcolon⟩

/-- **The reading of a line** is the only one. -/
theorem reads_iff {line : String} {result : Option (Except Issue Entry)} :
    Reads line.toList result ↔ ofLine? line = result := by
  constructor
  · exact ofLine?_of_reads
  · rintro rfl
    obtain ⟨result, hreads⟩ := exists_reads line.toList
    rwa [ofLine?_of_reads hreads]

end Entry

/-! ## All lines -/

namespace Listing

/-- The entry that a line comes to. -/
def entryOf : Option (Except Issue Entry) → Option Entry
  | some (.ok entry) => some entry
  | _ => none

/-- The diagnostic that a numbered line comes to. -/
def diagnosticOf : Option (Except Issue Entry) × Nat → Option Diagnostic
  | (some (.error issue), number) => some ⟨number, issue⟩
  | _ => none

/-- What a text holds as a listing: what its lines read as, in their order. -/
def Holds (text : List Char) (reading : ListingReading) : Prop :=
  ∃ lines results, Text.CutInto text lines ∧
    List.Forall₂ (fun line result => Entry.Reads line.toList result) lines results ∧
    reading.listing.entries = results.filterMap entryOf ∧
    reading.diagnostics = (results.zipIdx 1).filterMap diagnosticOf

/-- Lines are read one by one, and entries and diagnostics are told apart. -/
theorem readLines_eq (lines : List String) (number : Nat) :
    readLines (lines.zipIdx number) =
      ((lines.map Entry.ofLine?).filterMap entryOf,
        ((lines.map Entry.ofLine?).zipIdx number).filterMap diagnosticOf) := by
  induction lines generalizing number with
  | nil => rfl
  | cons line rest ih =>
      rw [List.zipIdx_cons, readLines, ih, List.map_cons, List.zipIdx_cons]
      rcases Entry.ofLine? line with _ | issue | entry <;> rfl

/-- A text is read line by line, the first line being number 1. -/
theorem read_eq (text : String) :
    read text =
      ⟨⟨((Text.lines text).map Entry.ofLine?).filterMap entryOf⟩,
        (((Text.lines text).map Entry.ofLine?).zipIdx 1).filterMap diagnosticOf⟩ := by
  unfold read
  rw [readLines_eq]

/-- The grammar reads lines as the reader does, all in order. -/
theorem forall₂_reads_iff {lines : List String} {results : List (Option (Except Issue Entry))} :
    List.Forall₂ (fun line result => Entry.Reads line.toList result) lines results ↔
      lines.map Entry.ofLine? = results := by
  simp only [Entry.reads_iff]
  rw [← List.forall₂_map_left_iff, List.forall₂_eq_eq_eq]

/-- **What the reader finds is what a text holds.** -/
theorem read_eq_iff_holds {text : String} {reading : ListingReading} :
    read text = reading ↔ Holds text.toList reading := by
  constructor
  · rintro rfl
    refine ⟨_, _, Text.cutInto_iff.mpr rfl, forall₂_reads_iff.mpr rfl, ?_, ?_⟩
    · rw [read_eq]
    · rw [read_eq]
  · rintro ⟨lines, results, hcut, hreads, hentries, hdiagnostics⟩
    obtain ⟨⟨entries⟩, diagnostics⟩ := reading
    rw [read_eq, Text.cutInto_iff.mp hcut, forall₂_reads_iff.mp hreads, ← hentries, ← hdiagnostics]

/-- A line adds its own entry or its own diagnostic between those of the lines around it, and these
do not depend on it. -/
theorem exists_read_eq_of_around (front back : List String) :
    ∃ entries entries' diagnostics diagnostics',
      ∀ (text line : String), Text.lines text = front ++ line :: back →
        read text =
          ⟨⟨entries ++ (entryOf (Entry.ofLine? line)).toList ++ entries'⟩,
            diagnostics ++ (diagnosticOf (Entry.ofLine? line, front.length + 1)).toList ++
              diagnostics'⟩ := by
  refine ⟨(front.map Entry.ofLine?).filterMap entryOf, (back.map Entry.ofLine?).filterMap entryOf,
    ((front.map Entry.ofLine?).zipIdx 1).filterMap diagnosticOf,
    ((back.map Entry.ofLine?).zipIdx (front.length + 2)).filterMap diagnosticOf, ?_⟩
  intro text line hlines
  have hnumber : 1 + front.length = front.length + 1 := Nat.add_comm 1 front.length
  rw [read_eq, hlines, List.map_append, List.map_cons, List.zipIdx_append, List.zipIdx_cons,
    List.length_map, hnumber]
  simp only [List.filterMap_eq_flatMap_toList, List.flatMap_append, List.flatMap_cons,
    List.append_assoc]

end Listing

/-- **The reader of a listing accepts its grammar and nothing else.** What it finds in a text is
what the text holds: an entry of each line that has one, in the order of the lines, and one
diagnostic with the number of the line for each other line with a colon.

A line may be replaced by any other without a change to what the lines around it give: entries,
issues and numbers of lines. So a line that cannot be read, or that has no colon, takes nothing away
from them. -/
theorem listing_reader_accepts_grammar :
    (∀ text reading, Listing.read text = reading ↔ Listing.Holds text.toList reading) ∧
      ∀ front back, ∃ entries entries' diagnostics diagnostics',
        ∀ (text line : String) (result : Option (Except Issue Entry)),
          Text.CutInto text.toList (front ++ line :: back) → Entry.Reads line.toList result →
            Listing.read text =
              ⟨⟨entries ++ (Listing.entryOf result).toList ++ entries'⟩,
                diagnostics ++ (Listing.diagnosticOf (result, front.length + 1)).toList ++
                  diagnostics'⟩ := by
  refine ⟨fun _ _ => Listing.read_eq_iff_holds, fun front back => ?_⟩
  obtain ⟨entries, entries', diagnostics, diagnostics', haround⟩ :=
    Listing.exists_read_eq_of_around front back
  refine ⟨entries, entries', diagnostics, diagnostics', fun text line result hcut hreads => ?_⟩
  obtain rfl := Entry.reads_iff.mp hreads
  exact haround text line (Text.cutInto_iff.mp hcut)

/-- Two texts that differ in their third line. In one it has two colons, so that the token behind
the first is no numeral, and in the other it has none. The lines around it have zeros in front of a
numeral, a plus sign, an ending with a carriage return, a carriage return without a line feed, and a
colon with no address. -/
theorem listing_reader_accepts_grammar_around_bad_line :
    let front := ["0fF:\t+00012", ":"]
    let back := ["\u2003+00fFfF : abcd\r"]
    let bad := "1: 2:3 "
    let plain := "no entry"
    let text := "0fF:\t+00012\r\n:\n1: 2:3 \n\u2003+00fFfF : abcd\r"
    let other := "0fF:\t+00012\r\n:\nno entry\r\n\u2003+00fFfF : abcd\r"
    Text.CutInto text.toList (front ++ bad :: back) ∧
      Text.CutInto other.toList (front ++ plain :: back) ∧
      Entry.Reads bad.toList (some (.error (.invalidNumber "2:3" .hex))) ∧
      Entry.Reads plain.toList none ∧
      Listing.Holds text.toList
        ⟨⟨[⟨0xFF, 0x12⟩, ⟨0xFFFF, 0xABCD⟩]⟩,
          [⟨2, .invalidNumber "" .hex⟩, ⟨3, .invalidNumber "2:3" .hex⟩]⟩ ∧
      ∃ entries entries' diagnostics diagnostics',
        Listing.read text =
          ⟨⟨entries ++ [] ++ entries'⟩,
            diagnostics ++ [⟨3, .invalidNumber "2:3" .hex⟩] ++ diagnostics'⟩ ∧
        Listing.read other = ⟨⟨entries ++ [] ++ entries'⟩, diagnostics ++ [] ++ diagnostics'⟩ := by
  intro front back bad plain text other
  have hcut : Text.CutInto text.toList (front ++ bad :: back) :=
    Text.cutInto_iff.mpr (by decide +kernel)
  have hcut' : Text.CutInto other.toList (front ++ plain :: back) :=
    Text.cutInto_iff.mpr (by decide +kernel)
  have hbad : Entry.Reads bad.toList (some (.error (.invalidNumber "2:3" .hex))) :=
    Entry.reads_iff.mpr (by decide +kernel)
  have hplain : Entry.Reads plain.toList none := Entry.reads_iff.mpr (by decide +kernel)
  obtain ⟨entries, entries', diagnostics, diagnostics', haround⟩ :=
    listing_reader_accepts_grammar.2 front back
  refine ⟨hcut, hcut', hbad, hplain, ?_, entries, entries', diagnostics, diagnostics', ?_, ?_⟩
  · exact (listing_reader_accepts_grammar.1 _ _).mp (by decide +kernel)
  · exact haround text bad _ hcut hbad
  · exact haround other plain _ hcut' hplain

end BasicComputer
