import BasicComputer.Proofs.AddedFlags
import BasicComputer.Proofs.Deliveries

/-!
# Denying diagnostics

Diagnostics do not make a run fail unless `--deny-warnings` was given. Two runs are compared here,
one without the flag and one with it.

* **Command lines** (`ofArguments?_insert`): the flag can be put between any arguments, and where
  the command line is still accepted it asks for the same command, denying diagnostics.
* **Jobs** (`prepare_denying`): everything that is read, worked out and delivered is the same. What
  differs is the verdict, and that comes behind everything else (`carryOut_denying`).
* **Clean runs** (`Command.Clean`): a run that denies diagnostics succeeds exactly when there was
  nothing to object to.
-/

namespace BasicComputer

namespace Command

/-- Whether diagnostics are denied; the version has none to deny. -/
def denies? : Command → Option Bool
  | assemble o => some o.denyWarnings
  | disassemble o => some o.denyWarnings
  | version => none

/-- The command that denies diagnostics. -/
def denying : Command → Command
  | assemble o => .assemble { o with denyWarnings := true }
  | disassemble o => .disassemble { o with denyWarnings := true }
  | version => .version

/-! ## Command lines -/

/-- The words that ask for a command with options, and how these are read. -/
inductive Subcommand : String → Grammar → (Given → Except Interruption Command) → Prop where
  | assemble : Subcommand "assemble" assembleGrammar ofAssemble
  | disassemble : Subcommand "disassemble" disassembleGrammar ofDisassemble

section arguments

variable {command : Command} {g g' : Given} {word : String} {grammar : Grammar}
  {ofGiven : Given → Except Interruption Command}

namespace Subcommand

variable (h : Subcommand word grammar ofGiven)

include h

/-- The arguments behind the word are those of the command. -/
theorem scan_cons (rest : List String) :
    Command.scan (word :: rest) = grammar.scan {} rest >>= ofGiven := by
  cases h with
  | assemble => rfl
  | disassemble => rfl

/-- Arguments that are read come to the command of what was given. -/
theorem ofArguments?_of_ok {rest : List String} (hg : grammar.scan {} rest = .ok g)
    (hcommand : ofGiven g = .ok command) : ofArguments? (word :: rest) = some command := by
  rw [ofArguments?_eq_some_iff, h.scan_cons, hg]
  exact hcommand

/-- Arguments that are refused come to no command. -/
theorem ofArguments?_of_refused {rest : List String}
    (hg : grammar.scan {} rest = .error .refused) : ofArguments? (word :: rest) = none := by
  rw [ofArguments?, h.scan_cons, hg]
  rfl

/-- Both commands have the flag. -/
theorem mem_flags : "deny-warnings" ∈ grammar.flags := by
  cases h with
  | assemble => decide
  | disassemble => decide

/-- A command has a file, and it denies diagnostics if the flag was given. -/
theorem exists_file (hcommand : ofGiven g = .ok command) :
    g.file.isSome = true ∧ command.denies? = some (g.hasFlag "deny-warnings") := by
  cases hfile : g.file with
  | none => cases h <;> simp [ofAssemble, ofDisassemble, hfile] at hcommand
  | some input =>
      cases h with
      | assemble =>
          simp only [ofAssemble, hfile] at hcommand
          cases hcommand
          exact ⟨rfl, rfl⟩
      | disassemble =>
          simp only [ofDisassemble, hfile] at hcommand
          cases hcommand
          exact ⟨rfl, rfl⟩

/-- A command that does not deny diagnostics was not given the flag. -/
theorem not_mem_flags (hcommand : ofGiven g = .ok command)
    (hdenies : command.denies? = some false) : "deny-warnings" ∉ g.flags := by
  simpa [hdenies, Given.hasFlag] using (h.exists_file hcommand).2

/-- With the flag, what was given comes to the same command, denying diagnostics. -/
theorem ofGiven_of_withFlag (hg : g.WithFlag "deny-warnings" g')
    (hcommand : ofGiven g = .ok command) : ofGiven g' = .ok command.denying := by
  have hsave : g'.hasFlag "save" = g.hasFlag "save" := by simp [Given.hasFlag, hg.flags]
  have hdeny : g'.hasFlag "deny-warnings" = true := by simp [Given.hasFlag, hg.flags]
  obtain ⟨input, hfile⟩ := Option.isSome_iff_exists.mp (h.exists_file hcommand).1
  cases h with
  | assemble =>
      simp only [ofAssemble, hfile] at hcommand
      cases hcommand
      simp [ofAssemble, denying, hg.file, hfile, hsave, hdeny, formatOf, Given.value?, hg.values]
  | disassemble =>
      simp only [ofDisassemble, hfile] at hcommand
      cases hcommand
      simp [ofDisassemble, denying, hg.file, hfile, hsave, hdeny, formatOf, Given.value?, hg.values]

end Subcommand

/-- A question for help is no command. -/
theorem scanHelp_ne_ok (rest : List String) (command : Command) : scanHelp rest ≠ .ok command := by
  fun_cases scanHelp rest <;> simp

/-- A command that may have diagnostics was asked for by its word. -/
theorem exists_subcommand {arguments : List String} {deny : Bool}
    (h : ofArguments? arguments = some command) (hdenies : command.denies? = some deny) :
    ∃ word grammar ofGiven rest g, Subcommand word grammar ofGiven ∧ arguments = word :: rest ∧
      grammar.scan {} rest = .ok g ∧ ofGiven g = .ok command := by
  have hscan := ofArguments?_eq_some_iff.mp h
  revert hscan
  fun_cases Command.scan arguments with
  | case1 rest =>
      intro hscan
      obtain ⟨g, hg, hcommand⟩ := exists_of_bind_eq_ok hscan
      exact ⟨_, _, _, rest, g, .assemble, rfl, hg, hcommand⟩
  | case2 rest =>
      intro hscan
      obtain ⟨g, hg, hcommand⟩ := exists_of_bind_eq_ok hscan
      exact ⟨_, _, _, rest, g, .disassemble, rfl, hg, hcommand⟩
  | case3 rest =>
      intro hscan
      exact absurd hscan (scanHelp_ne_ok rest command)
  | _ =>
      -- the version, or no command at all
      intro hscan
      cases hscan <;> cases hdenies

/-- The flag is read as an option without a value. -/
theorem ofText_denyWarnings :
    Argument.ofText "--deny-warnings" = .long "deny-warnings" none := by
  decide +kernel

variable (hdenies : command.denies? = some false)

include hdenies

/-- **The flag on a command line**: between any arguments it is the flag, or the command line is
refused. -/
theorem ofArguments?_insert {before after : List String}
    (h : ofArguments? (before ++ after) = some command) :
    ofArguments? (before ++ "--deny-warnings" :: after) = none ∨
      ofArguments? (before ++ "--deny-warnings" :: after) = some command.denying := by
  obtain ⟨word, grammar, ofGiven, rest, g, hword, hsplit, hg, hcommand⟩ :=
    exists_subcommand h hdenies
  have hfile := (hword.exists_file hcommand).1
  have hname := hword.not_mem_flags hcommand hdenies
  rcases List.append_eq_cons_iff.mp hsplit with ⟨rfl, -⟩ | ⟨before, rfl, rfl⟩
  · exact .inl rfl
  · rcases Grammar.scan_insert ofText_denyWarnings (by decide) hword.mem_flags hg hfile hname with
      hrefused | ⟨g', hg', hwith⟩
    · exact .inl (hword.ofArguments?_of_refused hrefused)
    · exact .inr (hword.ofArguments?_of_ok hg' (hword.ofGiven_of_withFlag hwith hcommand))

/-- Directly behind its word, a command accepts the flag. -/
theorem ofArguments?_behind_word {arguments : List String}
    (h : ofArguments? arguments = some command) :
    ∃ word rest, arguments = word :: rest ∧
      ofArguments? (word :: "--deny-warnings" :: rest) = some command.denying := by
  obtain ⟨word, grammar, ofGiven, rest, g, hword, rfl, hg, hcommand⟩ := exists_subcommand h hdenies
  have hname := hword.not_mem_flags hcommand hdenies
  obtain ⟨g', hg', hwith⟩ := Grammar.collects_cons ofText_denyWarnings (by decide) hword.mem_flags
    (Grammar.scan_eq_ok_iff.mp hg) hname
  exact ⟨word, rest, rfl, hword.ofArguments?_of_ok (Grammar.scan_eq_ok_iff.mpr hg')
    (hword.ofGiven_of_withFlag hwith hcommand)⟩

end arguments

/-! ## Jobs -/

/-- **The job is the same**, but for what the verdict asks. -/
theorem prepare_denying {command : Command} {deny : Bool} (h : command.denies? = some deny)
    (read : String → Option String) :
    command.denying.prepare read =
      (command.prepare read).map fun job => { job with denyWarnings := true } := by
  cases command with
  | version => cases h
  | disassemble o =>
      simp only [denying, prepare]
      cases load read o.input with
      | error ending => rfl
      | ok text => rfl
  | assemble o =>
      have hpolicy : policy read { o with denyWarnings := true } = policy read o := rfl
      simp only [denying, prepare, hpolicy]
      cases load read o.input with
      | error ending => rfl
      | ok source =>
          cases policy read o with
          | error ending => rfl
          | ok policy =>
              simp only [bind, Except.bind]
              cases BasicComputer.assemble policy source with
              | error fault => rfl
              | ok a => rfl

/-- A job denies diagnostics if its command does. -/
theorem denyWarnings_of_prepare {command : Command} {deny : Bool} (h : command.denies? = some deny)
    {files : FileTree} {job : Job} (hjob : command.prepare files.read? = .ok job) :
    job.denyWarnings = deny := by
  cases command with
  | version => cases h
  | assemble o =>
      obtain ⟨a, -, rfl⟩ := exists_of_prepare_assemble hjob
      exact Option.some.inj h
  | disassemble o =>
      obtain ⟨d, -, rfl⟩ := exists_of_prepare_disassemble hjob
      exact Option.some.inj h

end Command

/-- What a run comes to whose diagnostics are denied. -/
def RunResult.deny (r : RunResult) : RunResult :=
  { r with
    ending := if r.ending = .done ∧ r.reported ≠ [] then .failed (.denied r.reported.length)
      else r.ending }

/-- **Only the verdict** depends on whether diagnostics are denied. -/
theorem Job.carryOut_denying {job : Job} (h : job.denyWarnings = false) (files : FileTree) :
    { job with denyWarnings := true }.carryOut files = (job.carryOut files).deny := by
  unfold carryOut
  cases hrefused : (deliver files "" job.deliveries).refused with
  | some path => simp [RunResult.deny, hrefused]
  | none => simp [RunResult.deny, hrefused, verdict, h]

/-- **Runs of a command** that differ in the flag differ in the verdict. -/
theorem Command.run_denying {command : Command} (h : command.denies? = some false)
    (files : FileTree) : command.denying.run files = (command.run files).deny := by
  unfold Command.run
  rw [prepare_denying h]
  cases hprepare : command.prepare files.read? with
  | error ending => simp [RunResult.deny, Except.map]
  | ok job => exact Job.carryOut_denying (denyWarnings_of_prepare h hprepare) files

/-! ## Two runs -/

namespace RunResult

variable {r : RunResult}

/-- Standard error of a run that is done holds its diagnostics, a line for each, and no more. -/
theorem errorOutput_of_done (h : r.ending = .done) (w : Wording) :
    r.errorOutput w = Text.unlines (r.reported.map Diagnostic.text) := by
  simp [errorOutput, h]

/-- A run that succeeded with diagnostics fails when they are denied, and says how many. -/
theorem deny_of_reported (h : r.ending = .done) (hreported : r.reported ≠ []) (w : Wording) :
    r.deny.ending.exitCode = 1 ∧
      r.deny.errorOutput w = r.errorOutput w ++
        ("Error: " ++ Numeral.write .decimal r.reported.length ++ " diagnostic(s) reported\n") := by
  have hdeny : r.deny.ending = .failed (.denied r.reported.length) := if_pos ⟨h, hreported⟩
  refine ⟨by rw [hdeny]; rfl, ?_⟩
  rw [errorOutput_of_done h, errorOutput, hdeny]
  simp [deny, Failure.message, Failure.causeText, String.append_assoc]

/-- Any other run is the same when diagnostics are denied. -/
theorem deny_of_not (h : ¬ (r.ending = .done ∧ r.reported ≠ [])) : r.deny = r := by
  rw [deny, if_neg h]

end RunResult

/-! ## Clean runs -/

namespace Command

/-- The files that a command writes. With `--save` they are named for the input, and there is a
symbol report among them unless the results are written as JSON. -/
def outputs : Command → List String
  | assemble o =>
    match o.save, o.format with
    | true, .text => [Path.stem o.input ++ ".mc", Path.stem o.input ++ ".sym"]
    | true, .json => [Path.stem o.input ++ ".mc"]
    | false, .text => o.out.toList ++ o.symbolsOut.toList
    | false, .json => o.out.toList
  | disassemble o => if o.save then [Path.stem o.input ++ ".asm"] else o.out.toList
  | version => []

/-- There is nothing to object to: what is read is valid and comes to a result, all files can be
written, and there are no diagnostics. -/
def Clean (files : FileTree) (command : Command) : Prop :=
  (∀ path ∈ command.outputs, files.Writable path) ∧
    match command with
    | assemble o => ∃ a, o.Yields files a ∧ a.diagnostics = []
    | disassemble o => ∃ d, o.Yields files d ∧ d.diagnostics = []
    | version => True

variable {command : Command} {files : FileTree} {job : Job}

/-- The files of a command are those of its deliveries. -/
theorem mem_outputs_iff (h : command.prepare files.read? = .ok job) {path : String} :
    path ∈ command.outputs ↔ ∃ d ∈ job.deliveries, d.destination = some path := by
  cases command with
  | version =>
      cases h
      simp [outputs]
  | disassemble o =>
      obtain ⟨d, -, rfl⟩ := exists_of_prepare_disassemble h
      have hone : (disassemblyDelivery o d).destination = o.destination := by
        cases hformat : o.format with
        | text => rw [disassemblyDelivery_text hformat]
        | json => rw [disassemblyDelivery_json hformat]
      cases hsave : o.save <;> simp [outputs, hone, destination_disassemble, hsave, eq_comm]
  | assemble o =>
      obtain ⟨a, -, rfl⟩ := exists_of_prepare_assemble h
      cases hformat : o.format with
      | text =>
          rw [assemblyDeliveries_text hformat, destinations_assemble]
          cases hsave : o.save with
          | true => simp [outputs, hformat, hsave, eq_comm]
          | false =>
              cases hsymbols : o.symbolsOut <;>
                simp [outputs, hformat, hsave, hsymbols, eq_comm]
      | json =>
          rw [assemblyDeliveries_json hformat, destinations_assemble]
          cases hsave : o.save <;> simp [outputs, hformat, hsave, eq_comm]

/-- A command is clean when it can be prepared to a job that is. -/
theorem clean_iff :
    command.Clean files ↔ ∃ job, command.prepare files.read? = .ok job ∧ job.diagnostics = [] ∧
      ∀ d ∈ job.deliveries, ∀ path, d.destination = some path → files.Writable path := by
  have hwritable {job : Job} (h : command.prepare files.read? = .ok job) :
      (∀ path ∈ command.outputs, files.Writable path) ↔
        ∀ d ∈ job.deliveries, ∀ path, d.destination = some path → files.Writable path := by
    simp only [mem_outputs_iff h]
    exact ⟨fun hall d hd path hpath => hall path ⟨d, hd, hpath⟩,
      fun hall path ⟨d, hd, hpath⟩ => hall d hd path hpath⟩
  constructor
  · rintro ⟨houtputs, hyields⟩
    have hjob : ∃ job, command.prepare files.read? = .ok job ∧ job.diagnostics = [] := by
      cases command with
      | version => exact ⟨_, rfl, rfl⟩
      | assemble o =>
          obtain ⟨a, ha, hclean⟩ := hyields
          exact ⟨_, prepare_of_yields ha, hclean⟩
      | disassemble o =>
          obtain ⟨d, hd, hclean⟩ := hyields
          exact ⟨_, prepare_of_yields_disassembly hd, hclean⟩
    obtain ⟨job, hprepare, hclean⟩ := hjob
    exact ⟨job, hprepare, hclean, (hwritable hprepare).mp houtputs⟩
  · rintro ⟨job, hprepare, hclean, hdeliveries⟩
    refine ⟨(hwritable hprepare).mpr hdeliveries, ?_⟩
    cases command with
    | version => trivial
    | assemble o =>
        obtain ⟨a, ha, rfl⟩ := exists_of_prepare_assemble hprepare
        exact ⟨a, ha, hclean⟩
    | disassemble o =>
        obtain ⟨d, hd, rfl⟩ := exists_of_prepare_disassemble hprepare
        exact ⟨d, hd, hclean⟩

/-- **A run that denies diagnostics** succeeds exactly when there is nothing to object to. -/
theorem run_done_iff_clean (h : command.denies? = some true) :
    (command.run files).ending = .done ↔ command.Clean files := by
  rw [clean_iff, Command.run]
  cases hprepare : command.prepare files.read? with
  | error ending =>
      have hearly := isEarly_of_prepare_eq_error hprepare
      have hne : ending ≠ .done := by
        rintro rfl
        exact hearly
      simp [hne]
  | ok job =>
      have hdeny := denyWarnings_of_prepare h hprepare
      simp [Job.carryOut_done_iff, hdeny]

end Command

/-- **Denying diagnostics changes the verdict and nothing else.** The flag can be put behind the
word of a command that has diagnostics, and wherever else it is put, a command line that is still
accepted asks for the same command, denying diagnostics. Both runs print the same and leave the same
files. If the run without the flag succeeds and reports diagnostics, the run with it fails, reports
the same and says how many they were; otherwise the two end alike. A run with the flag succeeds
exactly when there is nothing to object to. -/
theorem denying_changes_only_the_verdict {arguments : List String} {command : Command}
    (h : Command.ofArguments? arguments = some command) (files : FileTree) (w : Wording) :
    (command.denies? = some false →
      (∃ word rest, arguments = word :: rest ∧
        Command.ofArguments? (word :: "--deny-warnings" :: rest) = some command.denying) ∧
      ∀ before after, before ++ after = arguments →
        (Command.ofArguments? (before ++ "--deny-warnings" :: after)).isSome = true →
        let r := run arguments files w
        let denied := run (before ++ "--deny-warnings" :: after) files w
        Command.ofArguments? (before ++ "--deny-warnings" :: after) = some command.denying ∧
        denied.output = r.output ∧ denied.files = r.files ∧
        (r.ending.exitCode = 0 ∧ r.reported ≠ [] →
          denied.ending.exitCode = 1 ∧
          r.errorOutput w = Text.unlines (r.reported.map Diagnostic.text) ∧
          denied.errorOutput w = r.errorOutput w ++ ("Error: " ++
            Numeral.write .decimal r.reported.length ++ " diagnostic(s) reported\n")) ∧
        (¬ (r.ending.exitCode = 0 ∧ r.reported ≠ []) →
          denied.ending.exitCode = r.ending.exitCode ∧ denied.errorOutput w = r.errorOutput w)) ∧
    (command.denies? = some true →
      ((run arguments files w).ending.exitCode = 0 ↔ command.Clean files)) := by
  have hrun := run_of_ofArguments? h files w
  refine ⟨fun hdenies => ⟨Command.ofArguments?_behind_word hdenies h, ?_⟩, fun hdenies => ?_⟩
  · rintro before after rfl haccepted r denied
    have hdenying : Command.ofArguments? (before ++ "--deny-warnings" :: after) =
        some command.denying := by
      refine (Command.ofArguments?_insert hdenies h).resolve_left fun hrefused => ?_
      rw [hrefused] at haccepted
      cases haccepted
    have hdenied : denied = r.deny := by
      show run _ files w = (run _ files w).deny
      rw [hrun, run_of_ofArguments? hdenying]
      exact Command.run_denying hdenies files
    rw [hdenied]
    refine ⟨hdenying, rfl, rfl, ?_, ?_⟩
    · rintro ⟨hdone, hreported⟩
      have hdone := Ending.exitCode_eq_zero_iff.mp hdone
      obtain ⟨hcode, herror⟩ := RunResult.deny_of_reported hdone hreported w
      exact ⟨hcode, RunResult.errorOutput_of_done hdone w, herror⟩
    · intro hother
      rw [Ending.exitCode_eq_zero_iff] at hother
      rw [RunResult.deny_of_not hother]
      exact ⟨rfl, rfl⟩
  · rw [Ending.exitCode_eq_zero_iff, hrun]
    exact Command.run_done_iff_clean hdenies

/-- A source with an unknown word beside the working directory, given by its path from the root, and
the flag in front of another; and a source that is not there, with the cause that the system
gives. -/
theorem denying_changes_only_the_verdict_of_unknown_word :
    let files : FileTree := {
      files := [(["s", "p.asm"], "FOO\nHLT".toUTF8)]
      workingDirectory := ["w"] }
    let w : Wording := { cause := fun _ _ => "No such file or directory (os error 2)" }
    let r := run ["assemble", "/s/p.asm", "--save"] files w
    let denied := run ["assemble", "/s/p.asm", "--deny-warnings", "--save"] files w
    let missing := run ["disassemble", "../p.mc", "--deny-warnings"] files w
    (r.ending.exitCode = 0 ∧ denied.ending.exitCode = 1 ∧ denied.files = r.files ∧
      denied.errorOutput w = r.errorOutput w ++ "Error: 1 diagnostic(s) reported\n" ∧
      ¬ Command.Clean files
        (.assemble { input := "/s/p.asm", save := true, denyWarnings := true })) ∧
    missing.errorOutput w =
      "Error: reading ../p.mc\n\nCaused by:\n    No such file or directory (os error 2)\n" := by
  intro files w r denied missing
  have hcommand : Command.ofArguments? ["assemble", "/s/p.asm", "--save"] =
      some (.assemble { input := "/s/p.asm", save := true }) := by
    decide +kernel
  have hdenying : Command.ofArguments? ["assemble", "/s/p.asm", "--deny-warnings", "--save"] =
      some (.assemble { input := "/s/p.asm", save := true, denyWarnings := true }) := by
    decide +kernel
  have hdone : r.ending.exitCode = 0 := by decide +kernel
  have hreported : r.reported.length = 1 := by decide +kernel
  have hruns := ((denying_changes_only_the_verdict hcommand files w).1 rfl).2
    ["assemble", "/s/p.asm"] ["--save"] rfl
  simp only [List.cons_append, List.nil_append] at hruns
  obtain ⟨-, -, hfiles, hdenied, -⟩ := hruns (by rw [hdenying]; rfl)
  obtain ⟨hfailed, -, herror⟩ := hdenied ⟨hdone, by
    intro hnone
    rw [hnone] at hreported
    cases hreported⟩
  refine ⟨⟨hdone, hfailed, hfiles, ?_, ?_⟩, ?_⟩
  · have hline : "Error: " ++ Numeral.write .decimal 1 ++ " diagnostic(s) reported\n" =
        "Error: 1 diagnostic(s) reported\n" := by
      decide +kernel
    rw [hreported, hline] at herror
    exact herror
  · intro hclean
    have hzero := ((denying_changes_only_the_verdict hdenying files w).2 rfl).mpr hclean
    cases hfailed.symm.trans hzero
  · -- the run without the flag says the same
    have hplain : Command.ofArguments? ["disassemble", "../p.mc"] =
        some (.disassemble { input := "../p.mc" }) := by
      decide +kernel
    have hsame := ((denying_changes_only_the_verdict hplain files w).1 rfl).2
      ["disassemble", "../p.mc"] [] rfl
    simp only [List.cons_append, List.nil_append] at hsame
    obtain ⟨-, -, -, -, hother⟩ := hsame (by decide +kernel)
    obtain ⟨-, hmissing⟩ := hother (by decide +kernel)
    exact hmissing.trans (by decide +kernel)

end BasicComputer
