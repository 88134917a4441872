import BasicComputer.Proofs.Deliveries
import BasicComputer.Proofs.ListingTexts
import BasicComputer.Proofs.Reassembly
import BasicComputer.Proofs.Stems

/-!
# Saving, disassembling and saving again

Assembling with `--save` leaves a listing and a symbol report under the stem of the input.
Disassembling the listing and assembling the result, both with `--save`, gives the same listing.

* **Texts** (`Disassembly.ofText_render`, `assemble_render_linesOf`): a listing is read back from
  its text without diagnostics, and the source made from it has the same listing and no symbols.
* **Names** (`stem_of_locate?`): whatever path a saved file is given by, its stem is the one that it
  was saved under. So the three runs use the same three names.
* **Trees** (`sameLayout_run`): no run changes what can be written, since none makes a directory.
  What the first run could write, the last can.

The input may itself be one of the three files. It is read before anything is written, and nothing
looks at it again.
-/

namespace BasicComputer

/-! ## From a listing to source text and back -/

/-- The lines of a listing are the texts of its entries. -/
theorem Listing.lines_render (l : Listing) : Text.lines l.render = l.entries.map Entry.text := by
  refine Text.lines_unlines fun line hline => ?_
  obtain ⟨e, -, rfl⟩ := List.mem_map.mp hline
  exact Entry.isLine_text e

/-- A listing is disassembled from its text without diagnostics. -/
theorem Disassembly.ofText_render (l : Listing) :
    Disassembly.ofText l.render = ⟨Disassembly.linesOf l.entries, []⟩ := by
  simp only [Disassembly.ofText, Listing.read, l.lines_render, Listing.readLines_text]

/-- The source of a listing has that listing and no symbols. -/
theorem assemble_render_linesOf (policy : BlankLines) (l : Listing) :
    assemble policy (Disassembly.render ⟨Disassembly.linesOf l.entries, []⟩) =
      .ok { listing := l, symbols := .empty, diagnostics := [] } := by
  rw [assemble, sourceLines_render]
  exact assembleLines_linesOf policy l.entries

/-! ## Names -/

namespace FileTree

variable {t : FileTree}

/-- A path without a slash starts in the working directory. -/
theorem start_of_slash_not_mem {path : String} (h : '/' ∉ path.toList) :
    t.start path = t.workingDirectory := by
  have hrelative : path.toList.head? ≠ some '/' := fun hhead => h (List.mem_of_head? hhead)
  simp [start, Path.isAbsolute, hrelative]

/-- A path without a slash names a file of the working directory. -/
theorem locate?_of_slash_not_mem {path : String} {place : List String} (h : '/' ∉ path.toList)
    (hplace : t.locate? path = some place) : place = t.workingDirectory ++ [path] := by
  simp only [locate?, Path.components_of_slash_not_mem h, start_of_slash_not_mem h] at hplace
  obtain ⟨name, hname, hplace⟩ := Option.bind_eq_some_iff.mp hplace
  cases hname
  split at hplace
  · cases hplace
    rfl
  · cases hplace

/-- **The stem of a saved file** is the one that it was saved under, however it is named. -/
theorem stem_of_locate? {path stem extension : String} {directory : List String}
    (hstem : Path.IsStem stem)
    (h : t.locate? path = some (directory ++ [Path.withExtension stem extension])) :
    Path.stem path = stem := by
  obtain ⟨parent, name, hplace, -, hlast, hname⟩ := exists_of_locate? h
  have hsame : Path.withExtension stem extension = name := by
    simpa using congrArg List.getLast? hplace
  have hproper : Path.isIdle name = false ∧ name ≠ ".." := by
    simp only [isFileName, Bool.and_eq_true, Bool.not_eq_true', decide_eq_true_eq] at hname
    exact hname.1
  rw [← hsame] at hlast hproper
  exact Path.stem_of_fileName? hstem (Path.fileName?_of_getLast? hlast hproper.1 hproper.2)

end FileTree

/-! ## Layouts -/

/-- **No run changes the layout**, whether or not it makes all its deliveries. -/
theorem sameLayout_run (arguments : List String) (files : FileTree) (w : Wording) :
    files.SameLayout (run arguments files w).files := by
  rcases run_cases arguments files w with ⟨ending, -, hrun⟩ | ⟨-, hrun⟩ |
    ⟨command, job, -, -, hrun⟩
  · rw [hrun]
    exact .refl files
  · rw [hrun]
    exact .refl files
  · obtain ⟨made, rest, output, -, hdelivers⟩ := job.exists_delivers files
    rw [hrun]
    exact hdelivers.layout

/-! ## Saved files -/

/-- The bytes of a file that was saved under a stem. -/
def FileTree.saved? (t : FileTree) (stem extension : String) : Option ByteArray :=
  t.content? (t.workingDirectory ++ [Path.withExtension stem extension])

/-- Everything that is saved under a stem can be written. -/
def FileTree.CanSave (t : FileTree) (stem : String) : Prop :=
  ∀ extension ∈ ["asm", "mc", "sym"], t.Writable (Path.withExtension stem extension)

/-- What can be saved depends on the layout alone. -/
theorem FileTree.SameLayout.canSave_iff {t other : FileTree} (h : SameLayout t other)
    (stem : String) : other.CanSave stem ↔ t.CanSave stem := by
  simp only [CanSave, h.writable_iff]

/-- Saving results as text. -/
def AssembleOptions.SavesText (o : AssembleOptions) : Prop :=
  o.save = true ∧ o.format = .text

/-- Saving a source text. -/
def DisassembleOptions.SavesText (o : DisassembleOptions) : Prop :=
  o.save = true ∧ o.format = .text

section saved

variable {files : FileTree} {arguments : List String} {w : Wording}

/-- An assembly that is saved as text goes to two files. -/
theorem assemblyDeliveries_of_savesText {o : AssembleOptions} (ho : o.SavesText) (a : Assembly) :
    Command.assemblyDeliveries o a =
      [⟨some (Path.withExtension (Path.stem o.input) "mc"), a.listing.render⟩,
       ⟨some (Path.withExtension (Path.stem o.input) "sym"), a.symbols.render⟩] := by
  rw [Command.assemblyDeliveries_text ho.2, AssembleOptions.destinations, if_pos ho.1]
  rfl

/-- A disassembly that is saved as text goes to one file. -/
theorem disassemblyDelivery_of_savesText {o : DisassembleOptions} (ho : o.SavesText)
    (d : Disassembly) :
    Command.disassemblyDelivery o d =
      ⟨some (Path.withExtension (Path.stem o.input) "asm"), d.render⟩ := by
  rw [Command.disassemblyDelivery_text ho.2, DisassembleOptions.destination, if_pos ho.1]

/-- A name made of a stem names a file of the working directory, if it can be written. -/
theorem FileTree.Writable.locate? {stem extension : String} (hstem : Path.IsStem stem)
    (hextension : '/' ∉ extension.toList)
    (h : files.Writable (Path.withExtension stem extension)) :
    files.locate? (Path.withExtension stem extension) =
      some (files.workingDirectory ++ [Path.withExtension stem extension]) := by
  obtain ⟨place, hplace, -⟩ := h
  rw [hplace, locate?_of_slash_not_mem (hstem.slash_not_mem_withExtension hextension) hplace]

/-- The bytes of a saved file that was read. -/
theorem FileTree.saved?_of_read? {stem extension text : String} (hstem : Path.IsStem stem)
    (hextension : '/' ∉ extension.toList)
    (hwritable : files.Writable (Path.withExtension stem extension))
    (hread : files.read? (Path.withExtension stem extension) = some text) :
    files.saved? stem extension = some text.toUTF8 :=
  content?_of_read? (hwritable.locate? hstem hextension) hread

/-- **What an assembly leaves** that was saved: a listing and a symbol report. -/
theorem exists_of_run_assemble {o : AssembleOptions}
    (h : Command.ofArguments? arguments = some (.assemble o)) (ho : o.SavesText)
    (hdone : (run arguments files w).ending = .done) :
    ∃ a, o.Yields files a ∧ (run arguments files w).reported = a.diagnostics ∧
      files.Writable (Path.withExtension (Path.stem o.input) "mc") ∧
      files.Writable (Path.withExtension (Path.stem o.input) "sym") ∧
      (run arguments files w).files.read? (Path.withExtension (Path.stem o.input) "mc") =
        some a.listing.render ∧
      (run arguments files w).files.read? (Path.withExtension (Path.stem o.input) "sym") =
        some a.symbols.render := by
  obtain ⟨job, hprepare, hreported, hdelivers⟩ := run_of_verdict (.inl hdone) h
  obtain ⟨a, ha, rfl⟩ := Command.exists_of_prepare_assemble hprepare
  rw [assemblyDeliveries_of_savesText ho] at hdelivers
  have hstem := Path.isStem_stem o.input
  have hlisting := hdelivers.writable _ List.mem_cons_self _ rfl
  have hsymbols := hdelivers.writable _ (List.mem_cons_of_mem _ List.mem_cons_self) _ rfl
  have hne : files.locate? (Path.withExtension (Path.stem o.input) "sym") ≠
      files.locate? (Path.withExtension (Path.stem o.input) "mc") := by
    have hnames := Path.withExtension_ne (Path.stem o.input) (show "sym" ≠ "mc" by decide)
    rw [hsymbols.locate? hstem (by decide), hlisting.locate? hstem (by decide)]
    simpa using hnames
  exact ⟨a, ha, hreported, hlisting, hsymbols, hdelivers.read?_pair hne⟩

/-- **What a disassembly leaves** that was saved: a source text, and all other files as they
were. -/
theorem exists_of_run_disassemble {o : DisassembleOptions}
    (h : Command.ofArguments? arguments = some (.disassemble o)) (ho : o.SavesText)
    (hdone : (run arguments files w).ending = .done) :
    ∃ d, o.Yields files d ∧ (run arguments files w).reported = d.diagnostics ∧
      files.Writable (Path.withExtension (Path.stem o.input) "asm") ∧
      (run arguments files w).files.read? (Path.withExtension (Path.stem o.input) "asm") =
        some d.render ∧
      ∀ extension, extension ≠ "asm" →
        (run arguments files w).files.saved? (Path.stem o.input) extension =
          files.saved? (Path.stem o.input) extension := by
  obtain ⟨job, hprepare, hreported, hdelivers⟩ := run_of_verdict (.inl hdone) h
  obtain ⟨d, hd, rfl⟩ := Command.exists_of_prepare_disassemble hprepare
  rw [disassemblyDelivery_of_savesText ho] at hdelivers
  obtain ⟨hsource, hread, hother⟩ := hdelivers.read?_single
  refine ⟨d, hd, hreported, hsource, hread, fun extension hne => ?_⟩
  rw [FileTree.saved?, hdelivers.layout.workingDirectory]
  refine hother _ ?_
  have hnames := Path.withExtension_ne (Path.stem o.input) hne.symm
  rw [hsource.locate? (Path.isStem_stem o.input) (by decide)]
  simpa using hnames

/-! ## Runs without diagnostics -/

section clean

variable {command : Command} {job : Job} (h : Command.ofArguments? arguments = some command)
  (hprepare : command.prepare files.read? = .ok job)

include h hprepare

/-- A prepared command is run by carrying out its job. -/
theorem run_eq_carryOut : run arguments files w = job.carryOut files := by
  rw [run_of_ofArguments? h, Command.run, hprepare]

/-- A run without diagnostics is done, unless it fails to write. -/
theorem run_done_of_clean (hclean : job.diagnostics = [])
    (hwrites : ∀ path, (run arguments files w).ending ≠ .failed (.writing path)) :
    (run arguments files w).ending = .done := by
  rw [run_eq_carryOut h hprepare] at hwrites ⊢
  rcases job.carryOut_cases files with ⟨output, after, -, hjob⟩ |
    ⟨front, path, text, rest, -, -, -, hjob⟩
  · rw [hjob]
    simp [Job.verdict, hclean]
  · exact absurd (by rw [hjob]) (hwrites path)

end clean

/-! ## The second run and the third -/

section again

variable {stem : String} (hstem : Path.IsStem stem) {l : Listing}

include hstem

/-- **A saved listing is disassembled** to its source text, under the same stem. -/
theorem run_disassemble_saved {o : DisassembleOptions}
    (h : Command.ofArguments? arguments = some (.disassemble o)) (ho : o.SavesText)
    (hwritable : files.Writable (Path.withExtension stem "mc"))
    (hlisting : files.read? (Path.withExtension stem "mc") = some l.render)
    (hinput : files.locate? o.input = files.locate? (Path.withExtension stem "mc"))
    (hwrites : ∀ path, (run arguments files w).ending ≠ .failed (.writing path)) :
    (run arguments files w).ending = .done ∧ (run arguments files w).reported = [] ∧
      files.Writable (Path.withExtension stem "asm") ∧
      (run arguments files w).files.read? (Path.withExtension stem "asm") =
        some (Disassembly.render ⟨Disassembly.linesOf l.entries, []⟩) ∧
      ∀ extension, extension ≠ "asm" →
        (run arguments files w).files.saved? stem extension = files.saved? stem extension := by
  have hsame : Path.stem o.input = stem :=
    FileTree.stem_of_locate? hstem (hinput.trans (hwritable.locate? hstem (by decide)))
  have hyields : o.Yields files ⟨Disassembly.linesOf l.entries, []⟩ :=
    ⟨l.render, (FileTree.read?_congr hinput).trans hlisting, Disassembly.ofText_render l⟩
  have hdone := run_done_of_clean h (Command.prepare_of_yields_disassembly hyields) rfl hwrites
  obtain ⟨d, hd, hreported, hsource, hread, hother⟩ := exists_of_run_disassemble h ho hdone
  cases hd.unique hyields
  rw [hsame] at hsource hread hother
  exact ⟨hdone, hreported, hsource, hread, hother⟩

/-- **The source of a saved listing is assembled** to the listing that it was made from. -/
theorem run_assemble_saved {o : AssembleOptions}
    (h : Command.ofArguments? arguments = some (.assemble o)) (ho : o.SavesText)
    (hconfig : ∀ path, o.config = some path → ∃ text config, files.read? path = some text ∧
      Config.parse? text = some config)
    (hwritable : files.CanSave stem)
    (hsource : files.read? (Path.withExtension stem "asm") =
      some (Disassembly.render ⟨Disassembly.linesOf l.entries, []⟩))
    (hinput : files.locate? o.input = files.locate? (Path.withExtension stem "asm")) :
    (run arguments files w).ending = .done ∧ (run arguments files w).reported = [] ∧
      (run arguments files w).files.read? (Path.withExtension stem "mc") = some l.render ∧
      (run arguments files w).files.read? (Path.withExtension stem "sym") = some "" := by
  have hsame : Path.stem o.input = stem :=
    FileTree.stem_of_locate? hstem
      (hinput.trans ((hwritable "asm" (by simp)).locate? hstem (by decide)))
  obtain ⟨config, hconfig⟩ := AssembleOptions.exists_configured hconfig
  have hyields : o.Yields files { listing := l, symbols := .empty, diagnostics := [] } :=
    ⟨_, config, (FileTree.read?_congr hinput).trans hsource, hconfig, assemble_render_linesOf _ l⟩
  have hprepare := Command.prepare_of_yields hyields
  rw [assemblyDeliveries_of_savesText ho, hsame] at hprepare
  have hdone : (run arguments files w).ending = .done := by
    rw [run_eq_carryOut h hprepare, Job.carryOut_done_iff]
    refine ⟨fun _ => rfl, fun d hd path hpath => ?_⟩
    rcases List.mem_pair.mp hd with rfl | rfl
    · cases hpath
      exact hwritable "mc" (by simp)
    · cases hpath
      exact hwritable "sym" (by simp)
  obtain ⟨a, ha, hreported, -, -, hread⟩ := exists_of_run_assemble h ho hdone
  cases ha.unique hyields
  rw [hsame] at hread
  exact ⟨hdone, hreported, hread⟩

end again

end saved

/-- **A saved listing is stable.** An input is assembled and the results are saved under its stem;
then the listing is disassembled and the source text that comes of it is assembled, saving again.
Unless the source text cannot be written, both later runs succeed without diagnostics. The listing
is, byte for byte, what the first run made of the input, and the symbol report is empty. The paths
of the later runs may be any that name the saved files. -/
theorem saved_listings_are_stable (files : FileTree) (w : Wording)
    {first second third : List String} {o₁ o₃ : AssembleOptions} {o₂ : DisassembleOptions}
    (h₁ : Command.ofArguments? first = some (.assemble o₁)) (ho₁ : o₁.SavesText)
    (h₂ : Command.ofArguments? second = some (.disassemble o₂)) (ho₂ : o₂.SavesText)
    (h₃ : Command.ofArguments? third = some (.assemble o₃)) (ho₃ : o₃.SavesText) :
    let s := Path.stem o₁.input
    let r₁ := run first files w
    let r₂ := run second r₁.files w
    let r₃ := run third r₂.files w
    r₁.ending.exitCode = 0 →
    r₁.files.locate? o₂.input = r₁.files.locate? (Path.withExtension s "mc") →
    (∀ path, r₂.ending ≠ .failed (.writing path)) →
    r₂.files.locate? o₃.input = r₂.files.locate? (Path.withExtension s "asm") →
    (∀ path, o₃.config = some path → ∃ text config, r₂.files.read? path = some text ∧
      Config.parse? text = some config) →
    ∃ a, o₁.Yields files a ∧ r₁.files.saved? s "mc" = some a.listing.render.toUTF8 ∧
      (r₂.ending.exitCode = 0 ∧ r₂.reported = [] ∧
        r₂.files.saved? s "mc" = r₁.files.saved? s "mc") ∧
      (r₃.ending.exitCode = 0 ∧ r₃.reported = [] ∧
        r₃.files.saved? s "mc" = r₁.files.saved? s "mc" ∧
        r₃.files.saved? s "sym" = some ByteArray.empty) := by
  intro s r₁ r₂ r₃ hzero hlisting hwrites hsource hconfig
  have hstem : Path.IsStem s := Path.isStem_stem o₁.input
  obtain ⟨a, ha, -, hmc, hsym, hread₁, -⟩ :=
    exists_of_run_assemble h₁ ho₁ (Ending.exitCode_eq_zero_iff.mp hzero)
  -- no run changes the layout, so each tree can save what the first could
  have hlayout₁ := sameLayout_run first files w
  have hlayout₂ := sameLayout_run second r₁.files w
  have hlayout₃ := sameLayout_run third r₂.files w
  have hmc₁ := (hlayout₁.writable_iff _).mpr hmc
  obtain ⟨hdone₂, hreported₂, hasm, hread₂, hkept⟩ :=
    run_disassemble_saved hstem h₂ ho₂ hmc₁ hread₁ hlisting hwrites
  have hsave : files.CanSave s := by
    simpa [FileTree.CanSave] using ⟨(hlayout₁.writable_iff _).mp hasm, hmc, hsym⟩
  have hsave₁ : r₁.files.CanSave s := (hlayout₁.canSave_iff s).mpr hsave
  have hsave₂ : r₂.files.CanSave s := (hlayout₂.canSave_iff s).mpr hsave₁
  have hsave₃ : r₃.files.CanSave s := (hlayout₃.canSave_iff s).mpr hsave₂
  obtain ⟨hdone₃, hreported₃, hread₃, hempty⟩ :=
    run_assemble_saved hstem h₃ ho₃ hconfig hsave₂ hread₂ hsource
  have hsaved₁ : r₁.files.saved? s "mc" = some a.listing.render.toUTF8 :=
    FileTree.saved?_of_read? hstem (by decide) (hsave₁ "mc" (by simp)) hread₁
  have hsaved₃ : r₃.files.saved? s "mc" = some a.listing.render.toUTF8 :=
    FileTree.saved?_of_read? hstem (by decide) (hsave₃ "mc" (by simp)) hread₃
  have hempty₃ : r₃.files.saved? s "sym" = some "".toUTF8 :=
    FileTree.saved?_of_read? hstem (by decide) (hsave₃ "sym" (by simp)) hempty
  exact ⟨a, ha, hsaved₁,
    ⟨Ending.exitCode_eq_zero_iff.mpr hdone₂, hreported₂, hkept "mc" (by decide)⟩,
    Ending.exitCode_eq_zero_iff.mpr hdone₃, hreported₃, hsaved₃.trans hsaved₁.symm, hempty₃⟩

/-- The input is a source text under the name of a listing, with a label and an unknown word, and it
is overwritten by the first run. The three runs name files from the root, from the directory above
and from the working directory. -/
theorem saved_listings_are_stable_over_input :
    let files : FileTree := {
      files := [(["w", "p.mc"], "ABC, LDA ABC\nFOO".toUTF8)]
      workingDirectory := ["w"] }
    let r₁ := run ["assemble", "--save", "/w/p.mc"] files {}
    let r₂ := run ["disassemble", "../w/p.mc", "--save"] r₁.files {}
    let r₃ := run ["assemble", "--blank-lines", "skip", "--save", "--", "p.asm"] r₂.files {}
    r₁.ending.exitCode = 0 ∧ r₁.files.read? "p.mc" ≠ files.read? "p.mc" ∧
      r₃.ending.exitCode = 0 ∧ r₃.reported = [] ∧
      r₃.files.saved? "p" "mc" = r₁.files.saved? "p" "mc" ∧
      r₃.files.saved? "p" "sym" = some ByteArray.empty := by
  intro files r₁ r₂ r₃
  have h₁ : Command.ofArguments? ["assemble", "--save", "/w/p.mc"] =
      some (.assemble { input := "/w/p.mc", save := true }) := by
    decide +kernel
  have h₂ : Command.ofArguments? ["disassemble", "../w/p.mc", "--save"] =
      some (.disassemble { input := "../w/p.mc", save := true }) := by
    decide +kernel
  have h₃ : Command.ofArguments? ["assemble", "--blank-lines", "skip", "--save", "--", "p.asm"] =
      some (.assemble { input := "p.asm", blankLines := some .skip, save := true }) := by
    decide +kernel
  have hstem : Path.stem "/w/p.mc" = "p" := by decide +kernel
  have hzero : r₁.ending.exitCode = 0 := by decide +kernel
  have hlisting : r₁.files.locate? "../w/p.mc" =
      r₁.files.locate? (Path.withExtension "p" "mc") := by
    decide +kernel
  have hdone : r₂.ending = .done := by decide +kernel
  have hsource : r₂.files.locate? "p.asm" = r₂.files.locate? (Path.withExtension "p" "asm") := by
    decide +kernel
  have hstable := saved_listings_are_stable files {} h₁ ⟨rfl, rfl⟩ h₂ ⟨rfl, rfl⟩ h₃ ⟨rfl, rfl⟩
  simp only [hstem] at hstable
  obtain ⟨a, -, -, -, hzero₃, hreported, hkept, hempty⟩ :=
    hstable hzero hlisting (by rw [hdone]; simp) hsource (by simp)
  exact ⟨hzero, by decide +kernel, hzero₃, hreported, hkept, hempty⟩

end BasicComputer
