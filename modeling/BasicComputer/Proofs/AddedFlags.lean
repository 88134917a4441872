import BasicComputer.Command.Arguments

/-!
# One more flag among the arguments

A flag may be put anywhere among the arguments of a command. This is about what that changes.

* **Items** (`Takes`): in front of `--`, arguments say one thing each, or two of them do, an option
  and its value. `Collects` is how arguments are taken item by item, and `scan_eq_ok_iff` shows that
  this is what `Grammar.scan` does.
* **A flag given before** (`collects_of_withFlag`): whoever starts with one more flag ends with one
  more flag, as no item asks which flags there are unless it is the same flag again.
* **A flag put in between** (`scan_insert`): it is taken as one more flag, or the arguments are
  refused. They are refused where the flag would be the value of an option, and behind `--`, where
  it would be one more file.
-/

namespace BasicComputer

/-- What follows a step has a result only if the step has one. -/
theorem exists_of_bind_eq_ok {ε α β : Type} {x : Except ε α} {f : α → Except ε β} {b : β}
    (h : x >>= f = .ok b) : ∃ a, x = .ok a ∧ f a = .ok b := by
  cases x with
  | error e => cases h
  | ok a => exact ⟨a, rfl, h⟩

/-- What one argument says, or an option and the value behind it. -/
inductive Item where
  | file (path : String)
  | flag (name : String)
  | value (name text : String)

/-- What was given, with one more item. -/
def Given.add (g : Given) : Item → Given
  | .file path => { g with file := some path }
  | .flag name => { g with flags := g.flags ++ [name] }
  | .value name text => { g with values := g.values ++ [(name, text)] }

namespace Given

variable {g g' : Given} {name : String}

/-- No flag is lost. -/
theorem mem_flags_add {item : Item} (h : name ∈ g.flags) : name ∈ (g.add item).flags := by
  cases item with
  | file path => exact h
  | flag other => exact List.mem_append_left _ h
  | value option text => exact h

/-- The same was given, but for one more flag. -/
structure WithFlag (name : String) (g g' : Given) : Prop where
  file : g'.file = g.file
  values : g'.values = g.values
  flags : ∀ flag, flag ∈ g'.flags ↔ flag = name ∨ flag ∈ g.flags

/-- Adding a flag gives what was given with the flag. -/
theorem withFlag_add (g : Given) (name : String) : g.WithFlag name (g.add (.flag name)) where
  file := rfl
  values := rfl
  flags := by simp [add, or_comm]

/-- A further item leaves the flag as the only difference. -/
theorem WithFlag.add (h : g.WithFlag name g') (item : Item) :
    (g.add item).WithFlag name (g'.add item) := by
  cases item with
  | file path => exact ⟨rfl, h.values, h.flags⟩
  | flag other => exact ⟨h.file, h.values, by simp [Given.add, h.flags, or_assoc]⟩
  | value option text => exact ⟨h.file, by simp [Given.add, h.values], h.flags⟩

end Given

namespace Grammar

/-- Takes an item, after those that came to `g`. -/
def take (grammar : Grammar) (g : Given) : Item → Except Interruption Given
  | .file path => g.addFile path
  | .flag name => g.addFlag name
  | .value name text => grammar.takeValue g name text

/-- The arguments that an item is made of. -/
inductive Takes (grammar : Grammar) : List String → Item → Prop where
  | file {argument path} (h : Argument.ofText argument = .file path) :
      Takes grammar [argument] (.file path)
  | flag {argument name} (h : Argument.ofText argument = .long name none) (hhelp : name ≠ "help")
      (hflag : name ∈ grammar.flags) : Takes grammar [argument] (.flag name)
  | apart {argument name text} (h : Argument.ofText argument = .long name none)
      (hhelp : name ≠ "help") (hflag : name ∉ grammar.flags)
      (htext : Argument.isValue text = true) : Takes grammar [argument, text] (.value name text)
  | joined {argument name text} (h : Argument.ofText argument = .long name (some text)) :
      Takes grammar [argument] (.value name text)

/-- How arguments that are not refused are collected. -/
inductive Collects (grammar : Grammar) : Given → List String → Given → Prop where
  | done (g : Given) : Collects grammar g [] g
  | files {g r argument rest} (h : Argument.ofText argument = .dashes)
      (hfiles : rest.foldlM Given.addFile g = .ok r) : Collects grammar g (argument :: rest) r
  | item {g next r taken item rest} (h : Takes grammar taken item)
      (hnext : grammar.take g item = .ok next) (hrest : Collects grammar next rest r) :
      Collects grammar g (taken ++ rest) r

variable {grammar : Grammar} {g g' r : Given} {name : String}

/-- An item is taken, and then the arguments behind it. -/
theorem scan_append {taken rest : List String} {item : Item} (h : Takes grammar taken item) :
    grammar.scan g (taken ++ rest) = grammar.take g item >>= (grammar.scan · rest) := by
  cases h with
  | file h => simp [scan, h, take]
  | flag h hhelp hflag => simp [scan, h, take, hflag]
  | apart h hhelp hflag htext => simp [scan, h, take, hflag, htext]
  | joined h => simp [scan, h, take]

/-- The arguments of an item come apart only between an option and its value. -/
theorem Takes.eq_nil_or {before after : List String} {item : Item}
    (h : Takes grammar (before ++ after) item) :
    before = [] ∨ after = [] ∨ ∃ argument name text, before = [argument] ∧ after = [text] ∧
      Argument.ofText argument = .long name none ∧ name ≠ "help" ∧ name ∉ grammar.flags := by
  generalize htaken : before ++ after = taken at h
  cases h with
  | apart h hhelp hflag htext =>
      match before, after, htaken with
      | [], _, _ => exact .inl rfl
      | [_], [_], rfl => exact .inr (.inr ⟨_, _, _, rfl, rfl, h, hhelp, hflag⟩)
      | [_, _], [], _ => exact .inr (.inl rfl)
  | _ => grind [List.append_eq_singleton_iff]

/-- An option without a value is refused. -/
theorem scan_of_not_isValue {argument text : String} {rest : List String}
    (h : Argument.ofText argument = .long name none ∧ name ≠ "help" ∧ name ∉ grammar.flags)
    (htext : Argument.isValue text = false) :
    grammar.scan g (argument :: text :: rest) = .error .refused := by
  simp [scan, h, htext]

/-- **Arguments are collected item by item**, and behind `--` file by file. -/
theorem scan_eq_ok_iff {arguments : List String} :
    grammar.scan g arguments = .ok r ↔ Collects grammar g arguments r := by
  constructor
  · intro h
    fun_induction scan grammar g arguments with
    | case1 g =>
        cases h
        exact .done _
    | case2 g argument rest path hargument ih =>
        obtain ⟨next, hnext, hrest⟩ := exists_of_bind_eq_ok h
        exact .item (.file hargument) hnext (ih next hrest)
    | case3 g argument rest hargument => exact .files hargument h
    | case7 g argument rest name hhelp hargument hflag ih =>
        obtain ⟨next, hnext, hrest⟩ := exists_of_bind_eq_ok h
        exact .item (.flag hargument hhelp hflag) hnext (ih next hrest)
    | case9 g argument name hhelp hargument hflag text rest htext ih =>
        obtain ⟨next, hnext, hrest⟩ := exists_of_bind_eq_ok h
        exact .item (.apart hargument hhelp hflag htext) hnext (ih next hrest)
    | case11 g argument rest name text hargument ih =>
        obtain ⟨next, hnext, hrest⟩ := exists_of_bind_eq_ok h
        exact .item (.joined hargument) hnext (ih next hrest)
    | _ => cases h
  · intro h
    induction h with
    | done g => rfl
    | files h hfiles => simpa [scan, h] using hfiles
    | item h hnext hrest ih =>
        rw [scan_append h, hnext]
        exact ih

/-! ## Taking an item -/

/-- Whether an item can be taken after others. -/
def Fits (grammar : Grammar) (g : Given) : Item → Prop
  | .file path => g.file = none ∧ path ≠ ""
  | .flag name => name ∉ g.flags
  | .value name text =>
    (∃ allowed, grammar.valued.lookup name = some allowed ∧ allowed text = true) ∧
      name ∉ g.values.map (·.1)

/-- An item is taken exactly when it fits, and then it is added. -/
theorem take_eq_ok_iff {item : Item} :
    grammar.take g item = .ok r ↔ Fits grammar g item ∧ g.add item = r := by
  cases item with
  | file path =>
      cases hfile : g.file with
      | none => grind [take, Fits, Given.add, Given.addFile]
      | some other => simp [take, Fits, Given.addFile, hfile]
  | flag name => grind [take, Fits, Given.add, Given.addFlag]
  | value name text =>
      cases hallowed : grammar.valued.lookup name with
      | none => simp [take, takeValue, Fits, hallowed]
      | some allowed => grind [take, takeValue, Fits, Given.add, Given.addValue]

/-! ## Files behind `--` -/

/-- A second file is refused. -/
theorem addFile_of_isSome (h : g.file.isSome = true) (path : String) :
    g.addFile path = .error .refused := by
  simp [Given.addFile, h]

/-- Adding one file from a list is adding the file. -/
theorem foldlM_addFile_singleton (path : String) :
    [path].foldlM Given.addFile g = g.addFile path := by
  simp

/-- Two files are refused. -/
theorem foldlM_addFile_of_two (path other : String) (rest : List String) :
    (path :: other :: rest).foldlM Given.addFile g = .error .refused := by
  have hfirst : g.addFile path = .error .refused ∨
      ∃ next, g.addFile path = .ok next ∧ next.file.isSome = true := by
    rw [Given.addFile]
    split
    · exact .inl rfl
    · exact .inr ⟨_, rfl, rfl⟩
  rw [List.foldlM_cons]
  rcases hfirst with hrefused | ⟨next, hnext, hfile⟩
  · rw [hrefused]
    rfl
  · rw [hnext]
    show (other :: rest).foldlM Given.addFile next = .error .refused
    rw [List.foldlM_cons, addFile_of_isSome hfile]
    rfl

/-- There is one file behind `--` at most. -/
theorem exists_of_foldlM_addFile (grammar : Grammar) {paths : List String}
    (h : paths.foldlM Given.addFile g = .ok r) :
    (paths = [] ∧ r = g) ∨ ∃ path, paths = [path] ∧ grammar.take g (.file path) = .ok r := by
  match paths, h with
  | [], h =>
      cases h
      exact .inl ⟨rfl, rfl⟩
  | [path], h =>
      rw [foldlM_addFile_singleton] at h
      exact .inr ⟨path, rfl, h⟩
  | path :: other :: rest, h =>
      rw [foldlM_addFile_of_two] at h
      cases h

/-- **One more file** is refused where there is one. -/
theorem foldlM_addFile_insert {before after : List String}
    (h : (before ++ after).foldlM Given.addFile g = .ok r) (hfile : r.file.isSome = true)
    (path : String) : (before ++ path :: after).foldlM Given.addFile g = .error .refused := by
  match before, after, h with
  | [], [], h =>
      cases h
      rw [List.nil_append, foldlM_addFile_singleton, addFile_of_isSome hfile]
  | [], other :: rest, h => exact foldlM_addFile_of_two path other rest
  | [other], after, h => exact foldlM_addFile_of_two other path after
  | first :: second :: before, after, h => exact foldlM_addFile_of_two first second _

/-! ## Starting with one more flag -/

/-- No flag is lost. -/
theorem mem_flags_of_collects {arguments : List String} (h : Collects grammar g arguments r)
    (hname : name ∈ g.flags) : name ∈ r.flags := by
  induction h with
  | done g => exact hname
  | files h hfiles =>
      rcases exists_of_foldlM_addFile grammar hfiles with ⟨-, rfl⟩ | ⟨path, -, htake⟩
      · exact hname
      · obtain ⟨-, rfl⟩ := take_eq_ok_iff.mp htake
        exact Given.mem_flags_add hname
  | item h hnext hrest ih =>
      obtain ⟨-, rfl⟩ := take_eq_ok_iff.mp hnext
      exact ih (Given.mem_flags_add hname)

/-- An item that is taken without the flag is taken with it. -/
theorem take_of_withFlag {item : Item} (hg : g.WithFlag name g') (h : grammar.take g item = .ok r)
    (hname : name ∉ r.flags) : ∃ r', grammar.take g' item = .ok r' ∧ r.WithFlag name r' := by
  obtain ⟨hfits, rfl⟩ := take_eq_ok_iff.mp h
  refine ⟨g'.add item, take_eq_ok_iff.mpr ⟨?_, rfl⟩, hg.add item⟩
  cases item with
  | file path => rwa [Fits, hg.file]
  | value option text => rwa [Fits, hg.values]
  | flag flag =>
      have hne : flag ≠ name := by
        rintro rfl
        exact hname (by simp [Given.add])
      rw [Fits, hg.flags]
      exact not_or.mpr ⟨hne, hfits⟩

/-- **One more flag at the start** is one more flag at the end. -/
theorem collects_of_withFlag {arguments : List String} (hg : g.WithFlag name g')
    (h : Collects grammar g arguments r) (hname : name ∉ r.flags) :
    ∃ r', Collects grammar g' arguments r' ∧ r.WithFlag name r' := by
  induction h generalizing g' with
  | done g => exact ⟨g', .done g', hg⟩
  | files h hfiles =>
      rcases exists_of_foldlM_addFile grammar hfiles with
        ⟨rfl, rfl⟩ | ⟨path, rfl, htake⟩
      · exact ⟨g', .files h rfl, hg⟩
      · obtain ⟨r', htake', hr⟩ := take_of_withFlag hg htake hname
        exact ⟨r', .files h ((foldlM_addFile_singleton path).trans htake'), hr⟩
  | item h hnext hrest ih =>
      obtain ⟨next', hnext', hg'⟩ := take_of_withFlag hg hnext fun hmem =>
        hname (mem_flags_of_collects hrest hmem)
      obtain ⟨r', hrest', hr⟩ := ih hg' hname
      exact ⟨r', .item h hnext' hrest', hr⟩

/-! ## Putting a flag in between -/

section insert

variable {mark : String} (hmark : Argument.ofText mark = .long name none) (hhelp : name ≠ "help")
  (hflag : name ∈ grammar.flags)

include hmark hhelp hflag

/-- A flag in front of all other arguments. -/
theorem collects_cons {arguments : List String} (h : Collects grammar g arguments r)
    (hname : name ∉ r.flags) :
    ∃ r', Collects grammar g (mark :: arguments) r' ∧ r.WithFlag name r' := by
  have hfits : Fits grammar g (.flag name) := fun hmem => hname (mem_flags_of_collects h hmem)
  obtain ⟨r', hrest, hr⟩ := collects_of_withFlag (g.withFlag_add name) h hname
  exact ⟨r', .item (.flag hmark hhelp hflag) (take_eq_ok_iff.mpr ⟨hfits, rfl⟩) hrest, hr⟩

/-- **A flag between other arguments** is one more flag, or the arguments are refused. -/
theorem scan_insert {before after : List String}
    (h : grammar.scan g (before ++ after) = .ok r) (hfile : r.file.isSome = true)
    (hname : name ∉ r.flags) :
    grammar.scan g (before ++ mark :: after) = .error .refused ∨
      ∃ r', grammar.scan g (before ++ mark :: after) = .ok r' ∧ r.WithFlag name r' := by
  rw [scan_eq_ok_iff] at h
  generalize hsplit : before ++ after = arguments at h
  induction h generalizing before with
  | done g =>
      obtain ⟨rfl, rfl⟩ := List.append_eq_nil_iff.mp hsplit
      obtain ⟨r', hr', hr⟩ := collects_cons hmark hhelp hflag (.done g) hname
      exact .inr ⟨r', scan_eq_ok_iff.mpr hr', hr⟩
  | @files g r argument rest h hfiles =>
      rcases List.append_eq_cons_iff.mp hsplit with ⟨rfl, rfl⟩ | ⟨before, rfl, rfl⟩
      · obtain ⟨r', hr', hr⟩ := collects_cons hmark hhelp hflag (.files h hfiles) hname
        exact .inr ⟨r', scan_eq_ok_iff.mpr hr', hr⟩
      · -- the flag would be a second file
        have hrefused := foldlM_addFile_insert hfiles hfile mark
        exact .inl (by simpa [scan, h] using hrefused)
  | @item g next r taken item rest h hnext hrest ih =>
      have hbehind {before : List String} (hbefore : before ++ after = rest) :=
        ih hfile hname hbefore
      rcases List.append_eq_append_iff.mp hsplit with ⟨between, rfl, rfl⟩ | ⟨before, rfl, rfl⟩
      · rcases h.eq_nil_or with rfl | rfl | ⟨argument, option, text, rfl, rfl, hoption⟩
        · obtain ⟨r', hr', hr⟩ := collects_cons hmark hhelp hflag (.item h hnext hrest) hname
          exact .inr ⟨r', scan_eq_ok_iff.mpr hr', hr⟩
        · rw [List.append_nil] at h
          rw [scan_append h, hnext]
          exact hbehind (List.nil_append rest)
        · -- the flag would be the value of an option
          exact .inl (scan_of_not_isValue hoption (by simp [Argument.isValue, hmark]))
      · rw [List.append_assoc, scan_append h, hnext]
        exact hbehind rfl

end insert

end Grammar

end BasicComputer
