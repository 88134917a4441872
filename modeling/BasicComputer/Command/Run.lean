import BasicComputer.Command.Options
import BasicComputer.Config
import BasicComputer.Files.Tree
import BasicComputer.Json.Report

/-!
# Running commands

A command is carried out in two steps. `Command.prepare` reads files and works out a `Job`: the
texts to deliver, each to a file or to standard output, and the diagnostics to report behind
them. `Job.carryOut` then delivers and reports. Everything that can go wrong with reading goes
wrong in the first step, so a command that fails there has written nothing.

Deliveries are made in order. One that cannot be made ends the run without a report, and those
before it stay. Whether diagnostics make a run fail is decided at the very end and changes
nothing that was written.

Some of what can be seen of a run is not worded here: help and the refusal of arguments come from
the reader of command lines, the cause of a failure from the system or the reader of JSON, and the
lines around a fault from whatever runs the program. A `Wording` holds these texts.
-/

namespace BasicComputer

/-- Why a run fails. -/
inductive Failure where
  | reading (path : String)
  | parsing (path : String)
  | writing (path : String)
  /-- So many diagnostics were reported, and none was to be. -/
  | denied (count : Nat)
  deriving DecidableEq, Repr

/-- The text of a failure. -/
def Failure.message : Failure → String
  | reading path => "reading " ++ path
  | parsing path => "parsing " ++ path
  | writing path => "writing " ++ path
  | denied count => Numeral.write .decimal count ++ " diagnostic(s) reported"

/-- The texts in a run that others word. -/
structure Wording where
  /-- The answer to a question for help. -/
  help : String := ""
  /-- What is said of arguments that are refused. -/
  usage : String := ""
  /-- Why a file could not be read, understood or written, as the files are then. -/
  cause : FileTree → Failure → String := fun _ _ => ""
  /-- What stands in front of the message of a fault. -/
  faultHead : Fault → String := fun _ => ""
  /-- What stands behind the message of a fault. -/
  faultNote : String := ""

/-- What stands behind the text of a failure: its cause, if something else failed first. -/
def Failure.causeText (cause : Failure → String) : Failure → String
  | denied _ => ""
  | failure => "\n\nCaused by:\n    " ++ cause failure

/-- How a run ends. -/
inductive Ending where
  | done
  | failed (failure : Failure)
  | badArguments
  | faulted (fault : Fault)
  deriving DecidableEq, Repr

/-- The exit code of an ending. -/
def Ending.exitCode : Ending → Nat
  | done => 0
  | failed _ => 1
  | badArguments => 2
  | faulted _ => 101

/-- A text and the file it goes to; without a file it goes to standard output. -/
structure Delivery where
  destination : Option String
  text : String
  deriving DecidableEq, Repr

/-- What is left to do once everything is worked out. -/
structure Job where
  deliveries : List Delivery
  diagnostics : List Diagnostic := []
  denyWarnings : Bool := false
  deriving DecidableEq, Repr

/-- All that a run leaves behind. -/
structure RunResult where
  ending : Ending
  output : String
  /-- The diagnostics that were reported on standard error. -/
  reported : List Diagnostic
  files : FileTree

/-- What a run writes to standard error: its diagnostics, a line for each, and behind them why
it failed. -/
def RunResult.errorOutput (r : RunResult) (w : Wording := {}) : String :=
  Text.unlines (r.reported.map Diagnostic.text) ++
    match r.ending with
    | .done => ""
    | .failed failure =>
      "Error: " ++ failure.message ++ failure.causeText (w.cause r.files) ++ "\n"
    | .badArguments => w.usage
    | .faulted fault => w.faultHead fault ++ fault.message ++ "\n" ++ w.faultNote

/-! ## Preparing -/

namespace Command

/-- Reads a file of the tree, or ends the run. -/
def load (read : String → Option String) (path : String) : Except Ending String :=
  match read path with
  | some text => .ok text
  | none => .error (.failed (.reading path))

/-- The policy for blank lines: the one given on the command line if there is one, else the one
of the configuration, which has to be readable in either case. -/
def policy (read : String → Option String) (o : AssembleOptions) : Except Ending BlankLines := do
  let config ← match o.config with
    | none => .ok {}
    | some path =>
      match Config.parse? (← load read path) with
      | some config => .ok config
      | none => .error (.failed (.parsing path))
  return o.blankLines.getD config.blankLines

/-- A report in JSON, as a delivery. -/
def jsonDelivery (destination : Option String) (report : Json) : Delivery :=
  ⟨destination, report.render ++ "\n"⟩

/-- The texts that an assembly is delivered as. -/
def assemblyDeliveries (o : AssembleOptions) (a : Assembly) : List Delivery :=
  let (listing, symbols) := o.destinations
  match o.format with
  | .json => [jsonDelivery listing a.toJson]
  | .text =>
    ⟨listing, a.listing.render⟩ :: (symbols.map fun path => ⟨some path, a.symbols.render⟩).toList

/-- The text that a disassembly is delivered as. -/
def disassemblyDelivery (o : DisassembleOptions) (d : Disassembly) : Delivery :=
  match o.format with
  | .json => jsonDelivery o.destination d.toJson
  | .text => ⟨o.destination, d.render⟩

/-- The answer to a question for the version. -/
def versionText : String := "mano-cli 0.1.0\n"

/-- The files that a command reads. -/
def inputs : Command → List String
  | assemble o => o.input :: o.config.toList
  | disassemble o => [o.input]
  | version => []

/-- Reads what a command needs and works out what is to be delivered. -/
def prepare (read : String → Option String) : Command → Except Ending Job
  | version => .ok { deliveries := [⟨none, versionText⟩] }
  | assemble o => do
    let source ← load read o.input
    match BasicComputer.assemble (← policy read o) source with
    | .error fault => .error (.faulted fault)
    | .ok a => .ok ⟨assemblyDeliveries o a, a.diagnostics, o.denyWarnings⟩
  | disassemble o => do
    let d := Disassembly.ofText (← load read o.input)
    return ⟨[disassemblyDelivery o d], d.diagnostics, o.denyWarnings⟩

end Command

/-! ## Carrying out -/

/-- What deliveries have come to. -/
structure Delivered where
  files : FileTree
  output : String
  /-- The file that could not be written. -/
  refused : Option String

/-- Makes deliveries in order until one cannot be made. -/
def deliver (files : FileTree) (output : String) : List Delivery → Delivered
  | [] => ⟨files, output, none⟩
  | ⟨none, text⟩ :: rest => deliver files (output ++ text) rest
  | ⟨some path, text⟩ :: rest =>
    match files.write? path text with
    | some files => deliver files output rest
    | none => ⟨files, output, some path⟩

/-- How a run ends that made all its deliveries. -/
def Job.verdict (job : Job) : Ending :=
  if job.denyWarnings ∧ job.diagnostics ≠ [] then .failed (.denied job.diagnostics.length)
  else .done

/-- Delivers and reports. -/
def Job.carryOut (job : Job) (files : FileTree) : RunResult :=
  let delivered := deliver files "" job.deliveries
  match delivered.refused with
  | some path => ⟨.failed (.writing path), delivered.output, [], delivered.files⟩
  | none => ⟨job.verdict, delivered.output, job.diagnostics, delivered.files⟩

/-- Runs a command in a tree of files. -/
def Command.run (command : Command) (files : FileTree) : RunResult :=
  match command.prepare files.read? with
  | .error ending => ⟨ending, "", [], files⟩
  | .ok job => job.carryOut files

/-- Runs a command line in a tree of files. -/
def run (arguments : List String) (files : FileTree) (w : Wording := {}) : RunResult :=
  match Command.scan arguments with
  | .ok command => command.run files
  | .error .help => ⟨.done, w.help, [], files⟩
  | .error .refused => ⟨.badArguments, "", [], files⟩

end BasicComputer
