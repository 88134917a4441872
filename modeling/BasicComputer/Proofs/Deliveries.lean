import BasicComputer.Command.Run
import BasicComputer.Proofs.FileTrees

/-!
# What a run leaves behind

A run reads, works out what to deliver, delivers and reports, in this order. What a failed run can
have changed depends on how far it came.

* **Deliveries** (`Delivers`): texts that were delivered in order can be seen afterwards. Standard
  output has the texts without a file, a file has the last text that went to it, and no other file
  was touched. `delivers_deliver` shows this of all deliveries, and `deliver_of_refused` says which
  were made when one could not be.
* **Preparation** (`AssembleOptions.Yields`, `DisassembleOptions.Yields`): what a command comes to
  before anything is delivered. A failure to read ends the run here, and so does a fault
  (`Command.isEarly_of_prepare_eq_error`).
* **Runs** (`run_of_isEarly`, `run_of_writing`, `run_of_verdict`): the three ways for a run to end.

Two paths may lead to the same file, so what is compared is always where they lead.
-/

namespace BasicComputer

/-! ## Texts that were delivered -/

/-- The place in a tree that a text goes to. -/
def Delivery.place? (d : Delivery) (files : FileTree) : Option (List String) :=
  d.destination.bind files.locate?

/-- What can be seen of deliveries that were all made, in order. -/
structure Delivers (before : FileTree) (deliveries : List Delivery) (output : String)
    (after : FileTree) : Prop where
  /-- Standard output has the texts that go to no file. -/
  printed : output = String.join ((deliveries.filter (·.destination.isNone)).map (·.text))
  /-- Every file has its text in full, unless a later text went to the same file. -/
  written : ∀ front path text rest, deliveries = front ++ ⟨some path, text⟩ :: rest →
    (∀ d ∈ rest, d.place? before ≠ before.locate? path) → after.read? path = some text
  /-- No other file was made or changed. -/
  untouched : ∀ place, (∀ d ∈ deliveries, d.place? before ≠ some place) →
    after.content? place = before.content? place
  /-- All paths lead where they led, and what could be written can still be written. -/
  layout : before.SameLayout after
  /-- Every file could be written. -/
  writable : ∀ d ∈ deliveries, ∀ path, d.destination = some path → before.Writable path

namespace Delivers

variable {before next after : FileTree} {deliveries : List Delivery} {output path text : String}

/-- Without deliveries everything is as it was. -/
theorem nil (files : FileTree) : Delivers files [] "" files where
  printed := rfl
  written := by simp
  untouched := by simp
  layout := .refl files
  writable := by simp

/-- A text to standard output comes in front of the others there. -/
theorem print (h : Delivers before deliveries output after) (text : String) :
    Delivers before (⟨none, text⟩ :: deliveries) (text ++ output) after where
  printed := by simp [h.printed]
  written := by
    intro front path' text' rest hsplit hlater
    obtain ⟨front, rfl, hrest⟩ := List.cons_eq_append_iff.mp hsplit |>.resolve_left (by simp)
    exact h.written front path' text' rest hrest hlater
  untouched := by
    intro place hplace
    exact h.untouched place fun d hd => hplace d (List.mem_cons_of_mem _ hd)
  layout := h.layout
  writable := by
    intro d hd path' hpath
    rcases List.mem_cons.mp hd with rfl | hd
    · cases hpath
    · exact h.writable d hd path' hpath

/-- **A text to a file** stays unless a later one goes to the same file. The deliveries behind it
start from the tree with that file, in which all paths lead where they led. -/
theorem write (hwrite : before.write? path text = some next)
    (h : Delivers next deliveries output after) :
    Delivers before (⟨some path, text⟩ :: deliveries) output after := by
  have hkeeps := FileTree.sameLayout_of_write? hwrite
  have hplace : ∀ d : Delivery, d.place? next = d.place? before := by
    intro d
    simp [Delivery.place?, funext hkeeps.locate?_eq]
  have hlayout := hkeeps.trans h.layout
  obtain ⟨place, hfile, -⟩ := FileTree.write?_eq_some_iff.mp hwrite
  refine { printed := ?_, written := ?_, untouched := ?_, layout := hlayout, writable := ?_ }
  · simpa using h.printed
  · intro front path' text' rest hsplit hlater
    rcases List.cons_eq_append_iff.mp hsplit with ⟨rfl, hrest⟩ | ⟨front, rfl, hrest⟩
    · -- the text itself: the deliveries behind it do not touch its place
      cases hrest
      have hkept : after.content? place = some text.toUTF8 := by
        rw [h.untouched place fun d hd => by rw [hplace, ← hfile]; exact hlater d hd,
          FileTree.content?_of_write? hwrite, if_pos hfile]
      exact FileTree.read?_eq_some ((hlayout.locate?_eq path).trans hfile) hkept
    · refine h.written front path' text' rest hrest fun d hd => ?_
      rw [hplace, hkeeps.locate?_eq]
      exact hlater d hd
  · intro other hother
    have hne : before.locate? path ≠ some other := hother _ List.mem_cons_self
    rw [h.untouched other fun d hd => by rw [hplace]; exact hother d (List.mem_cons_of_mem _ hd),
      FileTree.content?_of_write? hwrite, if_neg hne]
  · intro d hd path' hpath
    rcases List.mem_cons.mp hd with rfl | hd
    · cases hpath
      exact (FileTree.exists_write?_iff text).mp ⟨next, hwrite⟩
    · exact (hkeeps.writable_iff path').mp (h.writable d hd path' hpath)

/-- A text that went to a file can be read, and no other file was touched. -/
theorem read?_single (h : Delivers before [⟨some path, text⟩] output after) :
    before.Writable path ∧ after.read? path = some text ∧
      ∀ place, before.locate? path ≠ some place → after.content? place = before.content? place := by
  refine ⟨h.writable _ List.mem_cons_self path rfl, h.written [] path text [] rfl (by simp), ?_⟩
  intro place hplace
  refine h.untouched place fun d hd => ?_
  rw [List.mem_singleton.mp hd]
  exact hplace

/-- Two texts that went to two files can both be read. -/
theorem read?_pair {other report : String}
    (h : Delivers before [⟨some path, text⟩, ⟨some other, report⟩] output after)
    (hne : before.locate? other ≠ before.locate? path) :
    after.read? path = some text ∧ after.read? other = some report := by
  constructor
  · refine h.written [] path text [⟨some other, report⟩] rfl fun d hd => ?_
    rw [List.mem_singleton.mp hd]
    exact hne
  · exact h.written [⟨some path, text⟩] other report [] rfl (by simp)

end Delivers

/-! ## Making deliveries -/

section deliver

variable {files : FileTree} {deliveries : List Delivery}

/-- **Deliveries that are all made** can be seen, behind what was printed before. -/
theorem delivers_deliver {output : String} (h : (deliver files output deliveries).refused = none) :
    ∃ printed, (deliver files output deliveries).output = output ++ printed ∧
      Delivers files deliveries printed (deliver files output deliveries).files := by
  fun_induction deliver files output deliveries with
  | case1 files output => exact ⟨"", by simp, .nil files⟩
  | case2 files output text rest ih =>
      obtain ⟨printed, houtput, hrest⟩ := ih h
      exact ⟨text ++ printed, by rw [houtput, String.append_assoc], hrest.print text⟩
  | case3 files output path text rest next hwrite ih =>
      obtain ⟨printed, houtput, hrest⟩ := ih h
      exact ⟨printed, houtput, hrest.write hwrite⟩
  | case4 files output path text rest hwrite => cases h

/-- **A delivery that cannot be made** ends the deliveries: those in front of it were made, and
nothing else was done. -/
theorem deliver_of_refused {output path : String}
    (h : (deliver files output deliveries).refused = some path) :
    ∃ front text rest, deliveries = front ++ ⟨some path, text⟩ :: rest ∧ ¬ files.Writable path ∧
      (deliver files output front).refused = none ∧
      deliver files output deliveries =
        { deliver files output front with refused := some path } := by
  fun_induction deliver files output deliveries with
  | case1 files output => cases h
  | case2 files output text rest ih =>
      obtain ⟨front, text', rest', rfl, hwritable, hmade, hresult⟩ := ih h
      exact ⟨⟨none, text⟩ :: front, text', rest', rfl, hwritable, hmade, hresult⟩
  | case3 files output path' text rest next hwrite ih =>
      obtain ⟨front, text', rest', rfl, hwritable, hmade, hresult⟩ := ih h
      rw [(FileTree.sameLayout_of_write? hwrite).writable_iff] at hwritable
      refine ⟨⟨some path', text⟩ :: front, text', rest', rfl, hwritable, ?_, ?_⟩
      · rw [deliver, hwrite]
        exact hmade
      · rw [hresult]
        conv => rhs; rw [deliver, hwrite]
  | case4 files output path' text rest hwrite =>
      cases h
      exact ⟨[], text, rest, rfl, FileTree.write?_eq_none_iff.mp hwrite, rfl, rfl⟩

/-- **All deliveries are made** exactly when every file can be written. -/
theorem refused_eq_none_iff {output : String} :
    (deliver files output deliveries).refused = none ↔
      ∀ d ∈ deliveries, ∀ path, d.destination = some path → files.Writable path := by
  constructor
  · intro h
    obtain ⟨printed, -, hdelivers⟩ := delivers_deliver h
    exact hdelivers.writable
  · intro h
    refine Option.eq_none_iff_forall_ne_some.mpr fun path hrefused => ?_
    obtain ⟨front, text, rest, rfl, hwritable, -⟩ := deliver_of_refused hrefused
    exact hwritable (h ⟨some path, text⟩ (by simp) path rfl)

end deliver

/-! ## Preparing -/

/-- The configuration of an assembly: blank lines advance unless a file for it is named, and that
file has to be readable and valid. -/
def AssembleOptions.Configured (o : AssembleOptions) (files : FileTree) (config : Config) : Prop :=
  match o.config with
  | none => config = { blankLines := .advance }
  | some path => ∃ text, files.read? path = some text ∧ Config.parse? text = some config

/-- What assembling comes to in a tree: the source and the configuration can be read, and under the
policy of the command line, or else of the configuration, the source has an assembly. -/
def AssembleOptions.Yields (o : AssembleOptions) (files : FileTree) (a : Assembly) : Prop :=
  ∃ source config, files.read? o.input = some source ∧ o.Configured files config ∧
    assemble (o.blankLines.getD config.blankLines) source = .ok a

/-- What disassembling comes to in a tree: the listing can be read. -/
def DisassembleOptions.Yields (o : DisassembleOptions) (files : FileTree) (d : Disassembly) :
    Prop :=
  ∃ text, files.read? o.input = some text ∧ Disassembly.ofText text = d

/-- There is a configuration if no file for it is named, or one that is readable and valid. -/
theorem AssembleOptions.exists_configured {o : AssembleOptions} {files : FileTree}
    (h : ∀ path, o.config = some path → ∃ text config, files.read? path = some text ∧
      Config.parse? text = some config) : ∃ config, o.Configured files config := by
  unfold AssembleOptions.Configured
  cases hconfig : o.config with
  | none => exact ⟨_, rfl⟩
  | some path =>
      obtain ⟨text, config, hread, hparse⟩ := h path hconfig
      exact ⟨config, text, hread, hparse⟩

/-- There is at most one configuration. -/
theorem AssembleOptions.Configured.unique {o : AssembleOptions} {files : FileTree}
    {config other : Config} (h : o.Configured files config) (hother : o.Configured files other) :
    config = other := by
  unfold AssembleOptions.Configured at h hother
  cases hconfig : o.config with
  | none =>
      rw [hconfig] at h hother
      exact h.trans hother.symm
  | some path =>
      rw [hconfig] at h hother
      obtain ⟨text, hread, hparse⟩ := h
      obtain ⟨text', hread', hparse'⟩ := hother
      cases hread.symm.trans hread'
      exact Option.some.inj (hparse.symm.trans hparse')

/-- Assembling comes to one result. -/
theorem AssembleOptions.Yields.unique {o : AssembleOptions} {files : FileTree} {a b : Assembly}
    (ha : o.Yields files a) (hb : o.Yields files b) : a = b := by
  obtain ⟨source, config, hsource, hconfig, ha⟩ := ha
  obtain ⟨source', config', hsource', hconfig', hb⟩ := hb
  cases hsource.symm.trans hsource'
  cases hconfig.unique hconfig'
  exact Except.ok.inj (ha.symm.trans hb)

/-- Disassembling comes to one result. -/
theorem DisassembleOptions.Yields.unique {o : DisassembleOptions} {files : FileTree}
    {d e : Disassembly} (hd : o.Yields files d) (he : o.Yields files e) : d = e := by
  obtain ⟨text, htext, rfl⟩ := hd
  obtain ⟨other, hother, rfl⟩ := he
  cases htext.symm.trans hother
  rfl

/-- The endings of runs that deliver nothing. -/
def Ending.IsEarly : Ending → Prop
  | done => False
  | failed (.reading _) => True
  | failed (.parsing _) => True
  | failed (.writing _) => False
  | failed (.denied _) => False
  | badArguments => True
  | faulted _ => True

namespace Command

/-- **The policy for blank lines**: the configuration has to be readable and valid if there is one,
whatever the command line says. -/
theorem policy_cases (read : String → Option String) (o : AssembleOptions) :
    (o.config = none ∧ policy read o = .ok (o.blankLines.getD .advance)) ∨
    ∃ path, o.config = some path ∧
      ((read path = none ∧ policy read o = .error (.failed (.reading path))) ∨
        ∃ text, read path = some text ∧
          ((Config.parse? text = none ∧ policy read o = .error (.failed (.parsing path))) ∨
            ∃ config, Config.parse? text = some config ∧
              policy read o = .ok (o.blankLines.getD config.blankLines))) := by
  unfold policy load
  cases hconfig : o.config with
  | none => exact .inl ⟨rfl, rfl⟩
  | some path =>
      refine .inr ⟨path, rfl, ?_⟩
      cases hread : read path with
      | none => exact .inl ⟨rfl, by simp [hread, bind, Except.bind]⟩
      | some text =>
          refine .inr ⟨text, rfl, ?_⟩
          cases hparse : Config.parse? text with
          | none => exact .inl ⟨rfl, by simp [hread, hparse, bind, Except.bind]⟩
          | some config =>
              refine .inr ⟨config, rfl, ?_⟩
              simp [hread, hparse, bind, Except.bind, pure, Except.pure]

/-- **There is a policy** exactly when there is a configuration, and then it is the one of the
command line or else of the configuration. -/
theorem policy_eq_ok_iff {o : AssembleOptions} {files : FileTree} {chosen : BlankLines} :
    policy files.read? o = .ok chosen ↔
      ∃ config, o.Configured files config ∧ o.blankLines.getD config.blankLines = chosen := by
  unfold AssembleOptions.Configured
  rcases policy_cases files.read? o with ⟨hnone, hok⟩ | ⟨path, hpath, ⟨hread, herror⟩ |
    ⟨text, hread, ⟨hparse, herror⟩ | ⟨config, hparse, hok⟩⟩⟩
  · simp [hnone, hok]
  · simp [hpath, hread, herror]
  · simp [hpath, hread, hparse, herror]
  · simp [hpath, hread, hparse, hok]

/-- A run without a policy ends early. -/
theorem isEarly_of_policy_eq_error {read : String → Option String} {o : AssembleOptions}
    {ending : Ending} (h : policy read o = .error ending) : ending.IsEarly := by
  rcases policy_cases read o with ⟨-, hok⟩ |
    ⟨path, -, ⟨-, herror⟩ | ⟨text, -, ⟨-, herror⟩ | ⟨config, -, hok⟩⟩⟩
  · simp [h] at hok
  · cases h.symm.trans herror
    trivial
  · cases h.symm.trans herror
    trivial
  · simp [h] at hok

variable {files : FileTree}

/-- What assembling comes to is delivered as the options say. -/
theorem prepare_of_yields {o : AssembleOptions} {a : Assembly} (h : o.Yields files a) :
    prepare files.read? (.assemble o) =
      .ok ⟨assemblyDeliveries o a, a.diagnostics, o.denyWarnings⟩ := by
  obtain ⟨source, config, hsource, hconfig, hassembly⟩ := h
  have hpolicy := policy_eq_ok_iff.mpr ⟨config, hconfig, rfl⟩
  simp [prepare, load, hsource, hpolicy, hassembly, bind, Except.bind]

/-- Where assembling comes to nothing, nothing is delivered. -/
theorem yields_or_isEarly (o : AssembleOptions) (files : FileTree) :
    (∃ a, o.Yields files a) ∨
      ∃ ending : Ending, ending.IsEarly ∧ prepare files.read? (.assemble o) = .error ending := by
  cases hsource : files.read? o.input with
  | none =>
      exact .inr ⟨.failed (.reading o.input), trivial,
        by simp [prepare, load, hsource, bind, Except.bind]⟩
  | some source =>
      have hload : load files.read? o.input = .ok source := by simp [load, hsource]
      cases hpolicy : policy files.read? o with
      | error ending =>
          exact .inr ⟨ending, isEarly_of_policy_eq_error hpolicy,
            by simp [prepare, hload, hpolicy, bind, Except.bind]⟩
      | ok policy =>
          cases hassembly : BasicComputer.assemble policy source with
          | error fault =>
              refine .inr ⟨.faulted fault, trivial, ?_⟩
              simp [prepare, hload, hpolicy, hassembly, bind, Except.bind]
          | ok a =>
              obtain ⟨config, hconfig, rfl⟩ := policy_eq_ok_iff.mp hpolicy
              exact .inl ⟨a, source, config, hsource, hconfig, hassembly⟩

/-- What disassembling comes to is delivered as the options say. -/
theorem prepare_of_yields_disassembly {o : DisassembleOptions} {d : Disassembly}
    (h : o.Yields files d) :
    prepare files.read? (.disassemble o) =
      .ok ⟨[disassemblyDelivery o d], d.diagnostics, o.denyWarnings⟩ := by
  obtain ⟨text, htext, rfl⟩ := h
  simp [prepare, load, htext, bind, Except.bind, pure, Except.pure]

/-- Where disassembling comes to nothing, nothing is delivered. -/
theorem disassembly_yields_or_isEarly (o : DisassembleOptions) (files : FileTree) :
    (∃ d, o.Yields files d) ∨
      ∃ ending : Ending, ending.IsEarly ∧ prepare files.read? (.disassemble o) = .error ending := by
  cases htext : files.read? o.input with
  | none =>
      exact .inr ⟨.failed (.reading o.input), trivial,
        by simp [prepare, load, htext, bind, Except.bind]⟩
  | some text => exact .inl ⟨_, text, htext, rfl⟩

/-- **A command that cannot be prepared** ends its run early. -/
theorem isEarly_of_prepare_eq_error {command : Command} {ending : Ending}
    (h : command.prepare files.read? = .error ending) : ending.IsEarly := by
  cases command with
  | version => cases h
  | assemble o =>
      rcases yields_or_isEarly o files with ⟨a, ha⟩ | ⟨early, hearly, herror⟩
      · cases (prepare_of_yields ha).symm.trans h
      · cases herror.symm.trans h
        exact hearly
  | disassemble o =>
      rcases disassembly_yields_or_isEarly o files with ⟨d, hd⟩ | ⟨early, hearly, herror⟩
      · cases (prepare_of_yields_disassembly hd).symm.trans h
      · cases herror.symm.trans h
        exact hearly

/-- A prepared assembly is what assembling comes to. -/
theorem exists_of_prepare_assemble {o : AssembleOptions} {job : Job}
    (h : prepare files.read? (.assemble o) = .ok job) :
    ∃ a, o.Yields files a ∧ job = ⟨assemblyDeliveries o a, a.diagnostics, o.denyWarnings⟩ := by
  rcases yields_or_isEarly o files with ⟨a, ha⟩ | ⟨early, -, herror⟩
  · cases (prepare_of_yields ha).symm.trans h
    exact ⟨a, ha, rfl⟩
  · cases herror.symm.trans h

/-- A prepared disassembly is what disassembling comes to. -/
theorem exists_of_prepare_disassemble {o : DisassembleOptions} {job : Job}
    (h : prepare files.read? (.disassemble o) = .ok job) :
    ∃ d, o.Yields files d ∧ job = ⟨[disassemblyDelivery o d], d.diagnostics, o.denyWarnings⟩ := by
  rcases disassembly_yields_or_isEarly o files with ⟨d, hd⟩ | ⟨early, -, herror⟩
  · cases (prepare_of_yields_disassembly hd).symm.trans h
    exact ⟨d, hd, rfl⟩
  · cases herror.symm.trans h

/-- **Where the results of an assembly go**: with `--save` to files that have the stem of the input,
whatever other files were named. -/
theorem destinations_assemble (o : AssembleOptions) :
    o.destinations =
      (if o.save then some (Path.stem o.input ++ ".mc") else o.out,
        if o.save then some (Path.stem o.input ++ ".sym") else o.symbolsOut) := by
  unfold AssembleOptions.destinations
  split
  · simp [Path.withExtension, String.append_assoc]
  · rfl

/-- **Where the result of a disassembly goes**: with `--save` to the file that has the stem of the
input. -/
theorem destination_disassemble (o : DisassembleOptions) :
    o.destination = if o.save then some (Path.stem o.input ++ ".asm") else o.out := by
  simp [DisassembleOptions.destination, Path.withExtension, String.append_assoc]

/-- As text an assembly is a listing, and behind it a symbol report if that goes anywhere. -/
theorem assemblyDeliveries_text {o : AssembleOptions} (h : o.format = .text) (a : Assembly) :
    assemblyDeliveries o a = ⟨o.destinations.1, a.listing.render⟩ ::
      (o.destinations.2.map fun path => ⟨some path, a.symbols.render⟩).toList := by
  simp [assemblyDeliveries, h]

/-- As JSON an assembly is one text. -/
theorem assemblyDeliveries_json {o : AssembleOptions} (h : o.format = .json) (a : Assembly) :
    assemblyDeliveries o a = [⟨o.destinations.1, a.toJson.render ++ "\n"⟩] := by
  simp [assemblyDeliveries, jsonDelivery, h]

/-- As text a disassembly is a source text. -/
theorem disassemblyDelivery_text {o : DisassembleOptions} (h : o.format = .text) (d : Disassembly) :
    disassemblyDelivery o d = ⟨o.destination, d.render⟩ := by
  simp [disassemblyDelivery, h]

/-- As JSON a disassembly is one text. -/
theorem disassemblyDelivery_json {o : DisassembleOptions} (h : o.format = .json) (d : Disassembly) :
    disassemblyDelivery o d = ⟨o.destination, d.toJson.render ++ "\n"⟩ := by
  simp [disassemblyDelivery, jsonDelivery, h]

/-- **There is one delivery**, or there are two: a listing and behind it a symbol report. -/
theorem deliveries_of_prepare {command : Command} {job : Job}
    (h : command.prepare files.read? = .ok job) :
    (∃ delivery, job.deliveries = [delivery]) ∨
      ∃ o a path, command = .assemble o ∧ o.Yields files a ∧ o.format = .text ∧
        o.destinations.2 = some path ∧
        job.deliveries = [⟨o.destinations.1, a.listing.render⟩, ⟨some path, a.symbols.render⟩] := by
  cases command with
  | version =>
      cases h
      exact .inl ⟨_, rfl⟩
  | disassemble o =>
      obtain ⟨d, -, rfl⟩ := exists_of_prepare_disassemble h
      exact .inl ⟨_, rfl⟩
  | assemble o =>
      obtain ⟨a, ha, rfl⟩ := exists_of_prepare_assemble h
      cases hformat : o.format with
      | json => exact .inl ⟨_, assemblyDeliveries_json hformat a⟩
      | text =>
          cases hsymbols : o.destinations.2 with
          | none => exact .inl ⟨_, by rw [assemblyDeliveries_text hformat, hsymbols]; rfl⟩
          | some path =>
              refine .inr ⟨o, a, path, rfl, ha, hformat, hsymbols, ?_⟩
              rw [assemblyDeliveries_text hformat, hsymbols]
              rfl

end Command

/-! ## Endings -/

/-- The endings of runs that deliver nothing, by their exit codes. -/
theorem Ending.isEarly_iff {ending : Ending} :
    ending.IsEarly ↔ ending.exitCode = 2 ∨ ending.exitCode = 101 ∨
      ∃ path, ending = .failed (.reading path) ∨ ending = .failed (.parsing path) := by
  cases ending with
  | failed failure => cases failure <;> simp [IsEarly, exitCode]
  | _ => simp [IsEarly, exitCode]

/-- A run succeeds by being done. -/
theorem Ending.exitCode_eq_zero_iff {ending : Ending} : ending.exitCode = 0 ↔ ending = .done := by
  cases ending <;> simp [exitCode]

/-- A run that made all its deliveries is done or was denied its diagnostics. -/
theorem Job.verdict_cases (job : Job) :
    job.verdict = .done ∨ ∃ count, job.verdict = .failed (.denied count) := by
  unfold verdict
  split
  · exact .inr ⟨_, rfl⟩
  · exact .inl rfl

/-- **How a job is carried out**: all its deliveries are made and the diagnostics are reported, or
some delivery cannot be made and nothing is reported. -/
theorem Job.carryOut_cases (job : Job) (files : FileTree) :
    (∃ output after, Delivers files job.deliveries output after ∧
      job.carryOut files = ⟨job.verdict, output, job.diagnostics, after⟩) ∨
    ∃ front path text rest, job.deliveries = front ++ ⟨some path, text⟩ :: rest ∧
      ¬ files.Writable path ∧ (deliver files "" front).refused = none ∧
      job.carryOut files = ⟨.failed (.writing path), (deliver files "" front).output, [],
        (deliver files "" front).files⟩ := by
  unfold carryOut
  cases hrefused : (deliver files "" job.deliveries).refused with
  | none =>
      obtain ⟨printed, houtput, hdelivers⟩ := delivers_deliver hrefused
      rw [String.empty_append] at houtput
      exact .inl ⟨printed, _, hdelivers, by simp [hrefused, houtput]⟩
  | some path =>
      obtain ⟨front, text, rest, hsplit, hwritable, hmade, hresult⟩ := deliver_of_refused hrefused
      exact .inr ⟨front, path, text, rest, hsplit, hwritable, hmade, by simp [hresult]⟩

/-- **What a job does to the files** it does by deliveries that are made, all of them or the first
ones. -/
theorem Job.exists_delivers (job : Job) (files : FileTree) :
    ∃ made rest output, job.deliveries = made ++ rest ∧
      Delivers files made output (job.carryOut files).files := by
  rcases job.carryOut_cases files with ⟨output, after, hdelivers, hjob⟩ |
    ⟨front, path, text, rest, hsplit, -, hmade, hjob⟩
  · rw [hjob]
    exact ⟨job.deliveries, [], output, (List.append_nil _).symm, hdelivers⟩
  · rw [hjob]
    obtain ⟨printed, -, hdelivers⟩ := delivers_deliver hmade
    exact ⟨front, _, printed, hsplit, hdelivers⟩

/-- **A job is done** when all its files can be written, and it has no diagnostics if they are
denied. -/
theorem Job.carryOut_done_iff {job : Job} {files : FileTree} :
    (job.carryOut files).ending = .done ↔ (job.denyWarnings = true → job.diagnostics = []) ∧
      ∀ d ∈ job.deliveries, ∀ path, d.destination = some path → files.Writable path := by
  have hmade : (deliver files "" job.deliveries).refused = none ↔ _ := refused_eq_none_iff
  rw [← hmade, carryOut]
  cases hrefused : (deliver files "" job.deliveries).refused with
  | some path => simp
  | none => simp [verdict]

/-- A command line asks for a command exactly when it is read as one. -/
theorem Command.ofArguments?_eq_some_iff {arguments : List String} {command : Command} :
    ofArguments? arguments = some command ↔ scan arguments = .ok command := by
  unfold ofArguments?
  cases scan arguments <;> simp [Except.toOption]

/-- A command line that asks for a command runs it. -/
theorem run_of_ofArguments? {arguments : List String} {command : Command}
    (h : Command.ofArguments? arguments = some command) (files : FileTree) (w : Wording) :
    run arguments files w = command.run files := by
  rw [run, Command.ofArguments?_eq_some_iff.mp h]

/-- **How a run goes**: it ends early and leaves everything as it is, or it only answers a question
for help, or its command is prepared and the job is carried out. -/
theorem run_cases (arguments : List String) (files : FileTree) (w : Wording) :
    (∃ ending : Ending, ending.IsEarly ∧ run arguments files w = ⟨ending, "", [], files⟩) ∨
    (Command.ofArguments? arguments = none ∧
      run arguments files w = ⟨.done, w.help, [], files⟩) ∨
    ∃ command job, Command.ofArguments? arguments = some command ∧
      command.prepare files.read? = .ok job ∧ run arguments files w = job.carryOut files := by
  cases hscan : Command.scan arguments with
  | error interruption =>
      cases interruption with
      | refused => exact .inl ⟨.badArguments, trivial, by rw [run, hscan]⟩
      | help => exact .inr (.inl ⟨by rw [Command.ofArguments?, hscan]; rfl, by rw [run, hscan]⟩)
  | ok command =>
      have hcommand := Command.ofArguments?_eq_some_iff.mpr hscan
      have hrun := run_of_ofArguments? hcommand files w
      cases hprepare : command.prepare files.read? with
      | error ending =>
          refine .inl ⟨ending, Command.isEarly_of_prepare_eq_error hprepare, ?_⟩
          rw [hrun, Command.run, hprepare]
      | ok job =>
          refine .inr (.inr ⟨command, job, hcommand, hprepare, ?_⟩)
          rw [hrun, Command.run, hprepare]

/-! ## Runs -/

section run

variable {arguments : List String} {files : FileTree} {w : Wording}

/-- A run that made all its deliveries does not end early. -/
theorem Job.not_isEarly_verdict (job : Job) : ¬ job.verdict.IsEarly := by
  rcases job.verdict_cases with h | ⟨count, h⟩
  · rw [h]
    exact id
  · rw [h]
    exact id

/-- A run that ends early leaves everything as it is. -/
theorem run_of_isEarly (h : (run arguments files w).ending.IsEarly) :
    (run arguments files w).output = "" ∧ (run arguments files w).reported = [] ∧
      (run arguments files w).files = files := by
  rcases run_cases arguments files w with ⟨ending, -, hrun⟩ | ⟨-, hrun⟩ |
    ⟨command, job, -, -, hrun⟩
  · rw [hrun]
    exact ⟨rfl, rfl, rfl⟩
  · rw [hrun] at h
    exact h.elim
  · rw [hrun] at h
    rcases job.carryOut_cases files with ⟨output, after, -, hjob⟩ |
      ⟨front, path, text, rest, -, -, -, hjob⟩
    · rw [hjob] at h
      exact absurd h job.not_isEarly_verdict
    · rw [hjob] at h
      exact h.elim

/-- **A run that fails to write** failed at its first delivery or at its second, the symbol
report. -/
theorem run_of_writing {path : String}
    (h : (run arguments files w).ending = .failed (.writing path)) :
    (run arguments files w).reported = [] ∧
      (((run arguments files w).output = "" ∧ (run arguments files w).files = files) ∨
        ∃ o a, Command.ofArguments? arguments = some (.assemble o) ∧ o.Yields files a ∧
          o.format = .text ∧ o.destinations.2 = some path ∧
          Delivers files [⟨o.destinations.1, a.listing.render⟩] (run arguments files w).output
            (run arguments files w).files) := by
  rcases run_cases arguments files w with ⟨ending, hearly, hrun⟩ | ⟨-, hrun⟩ |
    ⟨command, job, hcommand, hprepare, hrun⟩
  · rw [hrun] at h
    cases h
    exact hearly.elim
  · rw [hrun] at h
    cases h
  · rcases job.carryOut_cases files with ⟨output, after, -, hjob⟩ |
      ⟨front, refused, text, rest, hsplit, -, hmade, hjob⟩
    · rw [hrun, hjob] at h
      rcases job.verdict_cases with hverdict | ⟨count, hverdict⟩
      · cases hverdict.symm.trans h
      · cases hverdict.symm.trans h
    · rw [hrun, hjob] at h ⊢
      cases h
      refine ⟨rfl, ?_⟩
      rcases Command.deliveries_of_prepare hprepare with ⟨delivery, hone⟩ |
        ⟨o, a, report, rfl, ha, hformat, hreport, htwo⟩
      · -- nothing was in front of the only delivery
        rw [hone] at hsplit
        obtain ⟨rfl, -⟩ | ⟨front, rfl, hrest⟩ := List.cons_eq_append_iff.mp hsplit
        · exact .inl ⟨rfl, rfl⟩
        · simp at hrest
      · rw [htwo] at hsplit
        rcases front with _ | ⟨first, _ | ⟨second, front⟩⟩
        · exact .inl ⟨rfl, rfl⟩
        · simp only [List.cons_append, List.nil_append, List.cons.injEq] at hsplit
          obtain ⟨rfl, hsecond, -⟩ := hsplit
          cases hsecond
          obtain ⟨printed, houtput, hdelivers⟩ := delivers_deliver hmade
          rw [String.empty_append] at houtput
          rw [houtput]
          exact .inr ⟨o, a, hcommand, ha, hformat, hreport, hdelivers⟩
        · simp at hsplit

/-- **A run that ends in a verdict** made all deliveries of its command. -/
theorem run_of_verdict
    (h : (run arguments files w).ending = .done ∨
      ∃ count, (run arguments files w).ending = .failed (.denied count))
    {command : Command} (hcommand : Command.ofArguments? arguments = some command) :
    ∃ job, command.prepare files.read? = .ok job ∧
      (run arguments files w).reported = job.diagnostics ∧
      Delivers files job.deliveries (run arguments files w).output
        (run arguments files w).files := by
  rcases run_cases arguments files w with ⟨ending, hearly, hrun⟩ | ⟨hnone, -⟩ |
    ⟨command', job, hcommand', hprepare, hrun⟩
  · rw [hrun] at h
    rcases h with rfl | ⟨count, rfl⟩
    · exact hearly.elim
    · exact hearly.elim
  · cases hcommand.symm.trans hnone
  · cases hcommand.symm.trans hcommand'
    rcases job.carryOut_cases files with ⟨output, after, hdelivers, hjob⟩ |
      ⟨front, path, text, rest, -, -, -, hjob⟩
    · rw [hrun, hjob]
      exact ⟨job, hprepare, rfl, hdelivers⟩
    · rw [hrun, hjob] at h
      simp at h

end run

/-- **A failed run leaves the files alone.** A run that is refused its arguments, comes to a fault
or fails to read prints nothing, reports nothing and changes no file. A run that fails to write
reports nothing, and it changed nothing either, unless what it could not write is the symbol report:
then the listing went where it goes, in full. Any other run of a command delivered all that it was
asked for and touched no other file. With `--save` the files are named for the input, and otherwise
they are those that the command line names. -/
theorem failed_runs_leave_files_alone (arguments : List String) (files : FileTree) (w : Wording) :
    let r := run arguments files w
    let listing (o : AssembleOptions) :=
      if o.save then some (Path.stem o.input ++ ".mc") else o.out
    let report (o : AssembleOptions) :=
      if o.save then some (Path.stem o.input ++ ".sym") else o.symbolsOut
    let source (o : DisassembleOptions) :=
      if o.save then some (Path.stem o.input ++ ".asm") else o.out
    (r.ending.exitCode = 2 ∨ r.ending.exitCode = 101 ∨
        (∃ path, r.ending = .failed (.reading path) ∨ r.ending = .failed (.parsing path)) →
      r.output = "" ∧ r.reported = [] ∧ r.files = files) ∧
    (∀ path, r.ending = .failed (.writing path) →
      r.reported = [] ∧
        ((r.output = "" ∧ r.files = files) ∨
          ∃ o a, Command.ofArguments? arguments = some (.assemble o) ∧ o.Yields files a ∧
            o.format = .text ∧ report o = some path ∧
            Delivers files [⟨listing o, a.listing.render⟩] r.output r.files)) ∧
    (r.ending = .done ∨ (∃ count, r.ending = .failed (.denied count)) →
      (∀ o, Command.ofArguments? arguments = some (.assemble o) →
        ∃ a, o.Yields files a ∧ r.reported = a.diagnostics ∧
          (o.format = .text → Delivers files (⟨listing o, a.listing.render⟩ ::
            ((report o).map fun path => ⟨some path, a.symbols.render⟩).toList)
            r.output r.files) ∧
          (o.format = .json → Delivers files [⟨listing o, a.toJson.render ++ "\n"⟩]
            r.output r.files)) ∧
      ∀ o, Command.ofArguments? arguments = some (.disassemble o) →
        ∃ d, o.Yields files d ∧ r.reported = d.diagnostics ∧
          (o.format = .text → Delivers files [⟨source o, d.render⟩] r.output r.files) ∧
          (o.format = .json → Delivers files [⟨source o, d.toJson.render ++ "\n"⟩]
            r.output r.files)) := by
  intro r listing report source
  have hdestinations : ∀ o : AssembleOptions, o.destinations = (listing o, report o) :=
    Command.destinations_assemble
  have hdestination : ∀ o : DisassembleOptions, o.destination = source o :=
    Command.destination_disassemble
  rw [← Ending.isEarly_iff]
  refine ⟨run_of_isEarly, fun path hwriting => ?_, fun h => ⟨fun o ho => ?_, fun o ho => ?_⟩⟩
  · have hcases := run_of_writing hwriting
    simp only [hdestinations] at hcases
    exact hcases
  · obtain ⟨job, hprepare, hreported, hdelivers⟩ := run_of_verdict h ho
    obtain ⟨a, ha, rfl⟩ := Command.exists_of_prepare_assemble hprepare
    refine ⟨a, ha, hreported, fun hformat => ?_, fun hformat => ?_⟩
    · rwa [Command.assemblyDeliveries_text hformat, hdestinations] at hdelivers
    · rwa [Command.assemblyDeliveries_json hformat, hdestinations] at hdelivers
  · obtain ⟨job, hprepare, hreported, hdelivers⟩ := run_of_verdict h ho
    obtain ⟨d, hd, rfl⟩ := Command.exists_of_prepare_disassemble hprepare
    refine ⟨d, hd, hreported, fun hformat => ?_, fun hformat => ?_⟩
    · rwa [Command.disassemblyDelivery_text hformat, hdestination] at hdelivers
    · rwa [Command.disassemblyDelivery_json hformat, hdestination] at hdelivers

/-- A source beside the working directory whose symbol report may not be written behind a listing
that may, in spite of the other file that was named; a fault behind which nothing is written; and a
symbol report that goes to the file of the listing under its path from the root, in a directory that
was empty. -/
theorem failed_runs_leave_files_alone_behind_listing :
    let files : FileTree := {
      files := [(["s", "p.asm"], "ABC, HLT\n".toUTF8), (["w", "q.asm"], "ISZ FFFFFFFF".toUTF8)]
      directories := [["w", "d"]]
      workingDirectory := ["w"]
      mayWrite := (· ≠ ["w", "p.sym"]) }
    let blocked := run ["assemble", "--save", "--out", "o.mc", "/s/p.asm"] files {}
    let faulted := run ["assemble", "--save", "q.asm"] files {}
    let replaced :=
      run ["assemble", "../s/p.asm", "--out", "d/p", "--symbols-out", "/w/d/p"] files {}
    (blocked.ending = .failed (.writing "p.sym") ∧ blocked.reported = [] ∧
      ∃ a : Assembly, Delivers files [⟨some "p.mc", a.listing.render⟩] blocked.output
        blocked.files) ∧
    (faulted.ending.exitCode = 101 ∧ faulted.files = files) ∧
    replaced.ending = .done ∧ ∃ a : Assembly, Delivers files
      [⟨some "d/p", a.listing.render⟩, ⟨some "/w/d/p", a.symbols.render⟩]
      replaced.output replaced.files := by
  intro files blocked faulted replaced
  have hblocked : blocked.ending = .failed (.writing "p.sym") := by decide +kernel
  have hfaulted : faulted.ending.exitCode = 101 := by decide +kernel
  have hreplaced : replaced.ending = .done := by decide +kernel
  refine ⟨⟨hblocked, ?_⟩, ⟨hfaulted, ?_⟩, hreplaced, ?_⟩
  · obtain ⟨hreported, hcases⟩ := (failed_runs_leave_files_alone _ files {}).2.1 "p.sym" hblocked
    refine ⟨hreported, ?_⟩
    rcases hcases with ⟨-, hfiles⟩ | ⟨o, a, ho, -, -, -, hdelivers⟩
    · have hread : blocked.files.read? "p.mc" ≠ files.read? "p.mc" := by decide +kernel
      exact absurd (congrArg (·.read? "p.mc") hfiles) hread
    · have ho' : Command.ofArguments? ["assemble", "--save", "--out", "o.mc", "/s/p.asm"] =
          some (.assemble { input := "/s/p.asm", out := "o.mc", save := true }) := by
        decide +kernel
      have hstem : Path.stem "/s/p.asm" ++ ".mc" = "p.mc" := by decide +kernel
      cases ho.symm.trans ho'
      simp only [if_true, hstem] at hdelivers
      exact ⟨a, hdelivers⟩
  · exact ((failed_runs_leave_files_alone _ files {}).1 (.inr (.inl hfaulted))).2.2
  · obtain ⟨a, -, -, htext, -⟩ :=
      ((failed_runs_leave_files_alone _ files {}).2.2 (.inl hreplaced)).1
        { input := "../s/p.asm", out := "d/p", symbolsOut := "/w/d/p" } (by decide +kernel)
    exact ⟨a, htext rfl⟩

end BasicComputer
