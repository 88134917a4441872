import BasicComputer.Proofs.DeniedWarnings
import BasicComputer.Proofs.SavedFiles

/-!
# Where results are saved

With `--save` the results of a command go to files that are named for its input. Wherever the input
is, they land in the working directory, and saving the results of a saved file uses the same names.

* **File names** (`Path.IsLast`): the file name of a path is its last component that says something;
  empty components and single dots may stand behind it.
* **Stems** (`Path.hasStem_iff`): the stem is what stands in front of the first dot of the file
  name. A path without a file name has a stem all the same, and so has one whose file name starts
  with a dot.
* **Names** (`Path.IsStem.withExtension_ordinary`, `Path.IsStem.fileName?_withExtension`): a stem
  with an extension is an ordinary file name, so it names a file of the working directory and leads
  back to the stem.
* **Runs** (`content?_run`): a run leaves every file alone that its command does not name, also when
  it fails.
-/

namespace BasicComputer

namespace Path

/-! ## File names -/

/-- The last component of a path that says something. -/
def IsLast (path component : String) : Prop :=
  ∃ front back, components path = front ++ component :: back ∧ isIdle component = false ∧
    ∀ other ∈ back, isIdle other = true

/-- The last component that says something, found by leaving out the others. -/
theorem isLast_iff {path component : String} :
    IsLast path component ↔
      ((components path).filter (!isIdle ·)).getLast? = some component := by
  constructor
  · rintro ⟨front, back, hcomponents, hcomponent, hback⟩
    have hnothing : back.filter (!isIdle ·) = [] := by
      rw [List.filter_eq_nil_iff]
      intro other hother
      simp [hback other hother]
    rw [hcomponents, List.filter_append, List.filter_cons_of_pos (by simp [hcomponent]), hnothing,
      List.getLast?_concat]
  · intro h
    obtain ⟨_, hfilter⟩ := List.getLast?_eq_some_iff.mp h
    obtain ⟨front, rest, hcomponents, -, hrest⟩ := List.filter_eq_append_iff.mp hfilter
    obtain ⟨idle, back, rfl, -, hcomponent, hback⟩ := List.filter_eq_cons_iff.mp hrest
    refine ⟨front ++ idle, back, by rw [hcomponents, List.append_assoc], by simpa using hcomponent,
      fun other hother => ?_⟩
    simpa using List.filter_eq_nil_iff.mp hback other hother

/-- The file name is the last component that says something, if it is not two dots. -/
theorem fileName?_eq_some_iff {path name : String} :
    fileName? path = some name ↔ IsLast path name ∧ name ≠ ".." := by
  rw [fileName?, Option.filter_eq_some_iff, isLast_iff, decide_eq_true_eq]

/-- A path whose components say nothing has no last one. -/
theorem exists_isLast_or (path : String) :
    (∃ name, IsLast path name) ∨ ∀ component ∈ components path, isIdle component = true := by
  cases hlast : ((components path).filter (!isIdle ·)).getLast? with
  | some name => exact .inl ⟨name, isLast_iff.mpr hlast⟩
  | none =>
      refine .inr fun component hcomponent => ?_
      have hnothing := List.filter_eq_nil_iff.mp (List.getLast?_eq_none_iff.mp hlast)
      simpa using hnothing component hcomponent

/-! ## Stems -/

/-- The stem of a path, told by its last component: what stands in front of the first dot if
something does, and a fixed name if nothing does or there is no such component. -/
inductive HasStem (path : String) : String → Prop
  | cut {name stem : String} {rest : List Char} (hlast : IsLast path name)
      (hname : name.toList = stem.toList ++ rest) (hrest : rest = [] ∨ rest.head? = some '.')
      (hne : stem ≠ "") (hdot : '.' ∉ stem.toList) : HasStem path stem
  | dotted {name : String} (hlast : IsLast path name) (hname : name.toList.head? = some '.') :
      HasStem path "untitled"
  | unnamed (hidle : ∀ component ∈ components path, isIdle component = true) :
      HasStem path "untitled"

/-- A path without a file name, or with one that starts with a dot, has the fixed stem. -/
theorem stem_of_takeWhile {path : String}
    (h : ((fileName? path).getD "").toList.takeWhile (· ≠ '.') = []) : stem path = "untitled" := by
  rw [stem, h]
  rfl

/-- A stem that the last component tells is the stem. -/
theorem stem_of_hasStem {path stem : String} (h : HasStem path stem) : Path.stem path = stem := by
  cases h with
  | @cut name stem rest hlast hname hrest hne hdot =>
      refine stem_of_cut (fileName?_eq_some_iff.mpr ⟨hlast, ?_⟩) hname hrest hne hdot
      -- a name of two dots would put one into the stem
      rintro rfl
      obtain ⟨c, others, hstem⟩ :=
        List.exists_cons_of_ne_nil (mt String.toList_eq_nil_iff.mp hne)
      rw [hstem, List.cons_append] at hname
      cases (List.cons.inj hname).1
      exact hdot (hstem ▸ List.mem_cons_self)
  | @dotted name hlast hname =>
      apply stem_of_takeWhile
      obtain ⟨others, hcons⟩ := List.head?_eq_some_iff.mp hname
      by_cases hup : name = ".."
      · have hnone : fileName? path = none := by
          rw [fileName?, isLast_iff.mp hlast, hup]
          rfl
        simp [hnone]
      · rw [fileName?_eq_some_iff.mpr ⟨hlast, hup⟩, Option.getD_some, hcons]
        simp
  | unnamed hidle =>
      apply stem_of_takeWhile
      have hnone : (components path).filter (!isIdle ·) = [] := by
        rw [List.filter_eq_nil_iff]
        intro component hcomponent
        simp [hidle component hcomponent]
      simp [fileName?, hnone]

/-- Every path has a stem. -/
theorem exists_hasStem (path : String) : ∃ stem, HasStem path stem := by
  rcases exists_isLast_or path with ⟨name, hlast⟩ | hidle
  · cases hname : name.toList with
    | nil =>
        obtain ⟨-, -, -, hidle, -⟩ := hlast
        rw [String.toList_eq_nil_iff.mp hname] at hidle
        cases hidle
    | cons c others =>
        by_cases hdot : c = '.'
        · exact ⟨_, .dotted hlast (by rw [hname, hdot]; rfl)⟩
        · have hstart : (c :: others).takeWhile (· ≠ '.') = c :: others.takeWhile (· ≠ '.') :=
            List.takeWhile_cons_of_pos (by simpa using hdot)
          refine ⟨String.ofList (c :: others.takeWhile (· ≠ '.')), @HasStem.cut path name _
            ((c :: others).dropWhile (· ≠ '.')) hlast ?_ ?_ ?_ ?_⟩
          · rw [hname, String.toList_ofList, ← hstart, List.takeWhile_append_dropWhile]
          · cases hrest : (c :: others).dropWhile (· ≠ '.') with
            | nil => exact .inl rfl
            | cons d behind =>
                have hhead := List.head?_dropWhile_not (· ≠ '.') (c :: others)
                rw [hrest] at hhead
                exact .inr (by simpa using hhead)
          · intro hempty
            simpa using congrArg String.toList hempty
          · rw [String.toList_ofList, ← hstart]
            intro hmem
            simpa using List.all_eq_true.mp List.all_takeWhile '.' hmem
  · exact ⟨_, .unnamed hidle⟩

/-- **The stem of a path** is the one that its last component tells. -/
theorem hasStem_iff {path stem : String} : HasStem path stem ↔ Path.stem path = stem := by
  constructor
  · exact stem_of_hasStem
  · rintro rfl
    obtain ⟨stem, hstem⟩ := exists_hasStem path
    rwa [stem_of_hasStem hstem]

/-! ## Names made of a stem -/

namespace IsStem

variable {stem extension : String}

/-- A name made of a stem starts with no dot. -/
theorem withExtension_ne_dots (h : IsStem stem) {text : String}
    (htext : ∀ c, text.toList.head? = some c → c = '.') : withExtension stem extension ≠ text := by
  rintro rfl
  obtain ⟨c, others, hstem⟩ :=
    List.exists_cons_of_ne_nil (mt String.toList_eq_nil_iff.mp h.ne_empty)
  have hc : c = '.' := htext c (by rw [toList_withExtension, hstem]; rfl)
  apply h.dot_not_mem
  rw [hstem, hc]
  exact List.mem_cons_self

/-- **A name made of a stem is an ordinary one.** -/
theorem withExtension_ordinary (h : IsStem stem) (extension : String) :
    withExtension stem extension ≠ "" ∧ withExtension stem extension ≠ "." ∧
      withExtension stem extension ≠ ".." :=
  ⟨h.withExtension_ne_dots (by simp), h.withExtension_ne_dots (by simp),
    h.withExtension_ne_dots (by simp)⟩

/-- **A name made of a stem is its own file name.** -/
theorem fileName?_withExtension (h : IsStem stem) (hextension : '/' ∉ extension.toList) :
    fileName? (withExtension stem extension) = some (withExtension stem extension) := by
  obtain ⟨hempty, hdot, hup⟩ := h.withExtension_ordinary extension
  refine fileName?_of_getLast? ?_ (by simp [isIdle, hempty, hdot]) hup
  rw [components_of_slash_not_mem (h.slash_not_mem_withExtension hextension)]
  rfl

end IsStem

end Path

/-! ## Runs -/

section run

variable {files : FileTree} {place : List String}

/-- A job leaves all files alone but those of its deliveries, whether or not it makes them all. -/
theorem Job.content?_carryOut {job : Job}
    (h : ∀ d ∈ job.deliveries, d.place? files ≠ some place) :
    (job.carryOut files).files.content? place = files.content? place := by
  obtain ⟨made, rest, output, hsplit, hdelivers⟩ := job.exists_delivers files
  refine hdelivers.untouched place fun d hd => h d ?_
  rw [hsplit]
  exact List.mem_append_left rest hd

/-- **A run leaves all files alone** but those that its command names. -/
theorem content?_run {arguments : List String} {command : Command} {w : Wording}
    (hcommand : Command.ofArguments? arguments = some command)
    (h : ∀ path ∈ command.outputs, files.locate? path ≠ some place) :
    (run arguments files w).files.content? place = files.content? place := by
  rcases run_cases arguments files w with ⟨ending, -, hrun⟩ | ⟨-, hrun⟩ |
    ⟨command', job, hcommand', hprepare, hrun⟩
  · rw [hrun]
  · rw [hrun]
  · cases hcommand.symm.trans hcommand'
    rw [hrun]
    refine Job.content?_carryOut fun d hd hplace => ?_
    obtain ⟨path, hpath, hplace⟩ := Option.bind_eq_some_iff.mp hplace
    exact h path ((Command.mem_outputs_iff hprepare).mpr ⟨d, hd, hpath⟩) hplace

/-- The files that are saved under a stem are files of the working directory. -/
theorem FileTree.locate?_ne_of_ne {path extension : String} (hextension : '/' ∉ extension.toList)
    (h : place ≠ files.workingDirectory ++ [Path.withExtension (Path.stem path) extension]) :
    files.locate? (Path.withExtension (Path.stem path) extension) ≠ some place :=
  fun hplace => h (locate?_of_slash_not_mem
    ((Path.isStem_stem path).slash_not_mem_withExtension hextension) hplace)

namespace Command

/-- An assembly that is saved writes a listing and a symbol report at most. -/
theorem mem_outputs_of_save {o : AssembleOptions} (h : o.save = true) {path : String}
    (hpath : path ∈ (assemble o).outputs) :
    path = Path.withExtension (Path.stem o.input) "mc" ∨
      path = Path.withExtension (Path.stem o.input) "sym" := by
  cases hformat : o.format with
  | text => simpa [outputs, h, hformat, Path.withExtension, String.append_assoc] using hpath
  | json =>
      left
      simpa [outputs, h, hformat, Path.withExtension, String.append_assoc] using hpath

/-- A disassembly that is saved writes a source text. -/
theorem outputs_of_save {o : DisassembleOptions} (h : o.save = true) :
    (disassemble o).outputs = [Path.withExtension (Path.stem o.input) "asm"] := by
  simp [outputs, h, Path.withExtension, String.append_assoc]

end Command

end run

/-- **Saving stays in the working directory.** The stem of any path is not empty and holds neither a
slash nor a dot. With an extension behind it that holds no slash it is the name of one ordinary file
of the working directory, and the stem of that name is the stem again. So a run that saves leaves
every file of the whole system alone but those of the working directory that have the stem of its
input. -/
theorem saving_stays_in_working_directory :
    (∀ path stem, Path.HasStem path stem ↔ Path.stem path = stem) ∧
    (∀ path, Path.stem path ≠ "" ∧ '/' ∉ (Path.stem path).toList ∧
      '.' ∉ (Path.stem path).toList) ∧
    (∀ path extension : String, '/' ∉ extension.toList →
      let name := Path.withExtension (Path.stem path) extension
      (name ≠ "" ∧ name ≠ "." ∧ name ≠ "..") ∧ '/' ∉ name.toList ∧
      Path.components name = [name] ∧ Path.fileName? name = some name ∧
      (∀ (files : FileTree) place, files.locate? name = some place →
        place = files.workingDirectory ++ [name]) ∧
      Path.stem name = Path.stem path) ∧
    ∀ arguments files w place,
      (∀ o, Command.ofArguments? arguments = some (.assemble o) → o.save = true →
        place ≠ files.workingDirectory ++ [Path.withExtension (Path.stem o.input) "mc"] →
        place ≠ files.workingDirectory ++ [Path.withExtension (Path.stem o.input) "sym"] →
        (run arguments files w).files.content? place = files.content? place) ∧
      ∀ o, Command.ofArguments? arguments = some (.disassemble o) → o.save = true →
        place ≠ files.workingDirectory ++ [Path.withExtension (Path.stem o.input) "asm"] →
        (run arguments files w).files.content? place = files.content? place := by
  refine ⟨fun path stem => Path.hasStem_iff, ?_, ?_, ?_⟩
  · intro path
    have hstem := Path.isStem_stem path
    exact ⟨hstem.ne_empty, hstem.slash_not_mem, hstem.dot_not_mem⟩
  · intro path extension hextension name
    have hstem := Path.isStem_stem path
    have hslash := hstem.slash_not_mem_withExtension hextension
    have hname := hstem.fileName?_withExtension hextension
    exact ⟨hstem.withExtension_ordinary extension, hslash, Path.components_of_slash_not_mem hslash,
      hname, fun files place => FileTree.locate?_of_slash_not_mem hslash,
      Path.stem_of_fileName? hstem hname⟩
  · intro arguments files w place
    refine ⟨fun o ho hsave hlisting hreport => ?_, fun o ho hsave hsource => ?_⟩
    · refine content?_run ho fun path hpath => ?_
      rcases Command.mem_outputs_of_save hsave hpath with rfl | rfl
      · exact FileTree.locate?_ne_of_ne (by decide) hlisting
      · exact FileTree.locate?_ne_of_ne (by decide) hreport
    · refine content?_run ho fun path hpath => ?_
      rw [Command.outputs_of_save hsave, List.mem_singleton] at hpath
      rw [hpath]
      exact FileTree.locate?_ne_of_ne (by decide) hsource

/-- Paths with idle components and dots, an extension that is a dot itself, and an input outside the
working directory with a file beside it that has the name of its listing. -/
theorem saving_stays_in_working_directory_of_odd_paths :
    let files : FileTree := {
      files := [(["d", "p.v2.asm"], "HLT".toUTF8), (["d", "p.mc"], "".toUTF8)]
      workingDirectory := ["w"] }
    let arguments := ["assemble", "--save", "--out", "/d/p.mc", "..//d/./p.v2.asm"]
    (Path.HasStem "../a//p.v2.asm/./" "p" ∧ Path.HasStem "a/.." "untitled" ∧
      Path.HasStem "./.hidden" "untitled") ∧
    ('/' ∉ ".".toList ∧ Path.fileName? "p.." = some "p.." ∧ Path.stem "p.." = "p") ∧
    (run arguments files {}).ending = .done ∧
    ((run arguments files {}).files.content? ["w", "p.mc"]).isSome ∧
    (run arguments files {}).files.content? ["d", "p.mc"] = files.content? ["d", "p.mc"] := by
  intro files arguments
  obtain ⟨hstems, -, hnames, hruns⟩ := saving_stays_in_working_directory
  have hstem : Path.stem "../a//p.v2.asm/./" = "p" := by decide +kernel
  have hname : Path.withExtension (Path.stem "../a//p.v2.asm/./") "." = "p.." := by decide +kernel
  have hcommand : Command.ofArguments? arguments =
      some (.assemble { input := "..//d/./p.v2.asm", out := some "/d/p.mc", save := true }) := by
    decide +kernel
  refine ⟨⟨(hstems _ _).mpr hstem, (hstems _ _).mpr (by decide +kernel),
    (hstems _ _).mpr (by decide +kernel)⟩, ?_, by decide +kernel, by decide +kernel, ?_⟩
  · obtain ⟨-, -, -, hfile, -, hagain⟩ := hnames "../a//p.v2.asm/./" "." (by decide)
    rw [hname] at hfile hagain
    exact ⟨by decide, hfile, hagain.trans hstem⟩
  · exact (hruns arguments files {} ["d", "p.mc"]).1 _ hcommand rfl (by decide +kernel)
      (by decide +kernel)

end BasicComputer
