import BasicComputer.Assembly.Counter
import BasicComputer.Command.Arguments
import BasicComputer.Files.Path

/-!
# Command lines

A command line names a command and goes on with the arguments of that command. In place of a
command it may ask for the version, and anywhere for help.

The options of a command are a structure, and `Command.scan` gives it with every option in its
place, or says why there is no command. The results of a command go where its options say: with
`--save` to files in the working directory that are named for the input, and otherwise to the files
that were named.
-/

namespace BasicComputer

/-- The form in which results are written. -/
inductive Format where
  | text
  | json
  deriving DecidableEq, Repr

namespace Format

/-- The name of the form. -/
def name : Format → String
  | text => "text"
  | json => "json"

/-- The form of a name. -/
def ofName? (name : String) : Option Format :=
  [text, json].find? (·.name = name)

end Format

/-- What `assemble` is asked to do. -/
structure AssembleOptions where
  input : String
  blankLines : Option BlankLines := none
  config : Option String := none
  format : Format := .text
  out : Option String := none
  symbolsOut : Option String := none
  save : Bool := false
  denyWarnings : Bool := false
  deriving DecidableEq, Repr

/-- What `disassemble` is asked to do. -/
structure DisassembleOptions where
  input : String
  format : Format := .text
  out : Option String := none
  save : Bool := false
  denyWarnings : Bool := false
  deriving DecidableEq, Repr

/-- Where the listing goes, and where the symbol report goes if anywhere. -/
def AssembleOptions.destinations (o : AssembleOptions) : Option String × Option String :=
  if o.save then
    let stem := Path.stem o.input
    (some (Path.withExtension stem "mc"), some (Path.withExtension stem "sym"))
  else (o.out, o.symbolsOut)

/-- Where the source text goes. -/
def DisassembleOptions.destination (o : DisassembleOptions) : Option String :=
  if o.save then some (Path.withExtension (Path.stem o.input) "asm") else o.out

/-- What a command line asks for. -/
inductive Command where
  | assemble (options : AssembleOptions)
  | disassemble (options : DisassembleOptions)
  | version
  deriving DecidableEq, Repr

/-! ## From arguments to commands -/

namespace Command

/-- The values of an option that names a file. -/
def isPath (value : String) : Bool :=
  value ≠ ""

/-- The options of `assemble`. -/
def assembleGrammar : Grammar where
  flags := ["save", "deny-warnings"]
  valued :=
    [("blank-lines", (BlankLines.ofName? · |>.isSome)), ("config", isPath),
     ("format", (Format.ofName? · |>.isSome)), ("out", isPath), ("symbols-out", isPath)]

/-- The options of `disassemble`. -/
def disassembleGrammar : Grammar where
  flags := ["save", "deny-warnings"]
  valued := [("format", (Format.ofName? · |>.isSome)), ("out", isPath)]

/-- The form that was asked for. -/
def formatOf (g : Given) : Format :=
  ((g.value? "format").bind Format.ofName?).getD .text

/-- The command of the options given to `assemble`, if there is a file among them. -/
def ofAssemble (g : Given) : Except Interruption Command :=
  match g.file with
  | none => .error .refused
  | some input => .ok <| .assemble {
      input
      blankLines := (g.value? "blank-lines").bind BlankLines.ofName?
      config := g.value? "config"
      format := formatOf g
      out := g.value? "out"
      symbolsOut := g.value? "symbols-out"
      save := g.hasFlag "save"
      denyWarnings := g.hasFlag "deny-warnings" }

/-- The command of the options given to `disassemble`, if there is a file among them. -/
def ofDisassemble (g : Given) : Except Interruption Command :=
  match g.file with
  | none => .error .refused
  | some input => .ok <| .disassemble {
      input
      format := formatOf g
      out := g.value? "out"
      save := g.hasFlag "save"
      denyWarnings := g.hasFlag "deny-warnings" }

/-- What help can be about: a command, and `help` itself is one. -/
def topics : List String := ["assemble", "disassemble", "help"]

/-- Help in general, or on one topic; there is none on anything else. -/
def scanHelp : List String → Except Interruption Command
  | [] => .error .help
  | [topic] => if topic ∈ topics then .error .help else .error .refused
  | _ => .error .refused

/-- The command of a command line; help may be asked for anywhere in it. -/
def scan : List String → Except Interruption Command
  | "assemble" :: rest => do ofAssemble (← assembleGrammar.scan {} rest)
  | "disassemble" :: rest => do ofDisassemble (← disassembleGrammar.scan {} rest)
  | "help" :: rest => scanHelp rest
  | first :: _ =>
    match Argument.ofText first with
    | .long "version" none => .ok .version
    | .long "help" none => .error .help
    | .short ('V' :: _) => .ok .version
    | .short ('h' :: _) => .error .help
    | _ => .error .refused
  | [] => .error .refused

/-- The command that a command line asks for, unless it asks for help or is refused. -/
def ofArguments? (arguments : List String) : Option Command :=
  (scan arguments).toOption

end Command

end BasicComputer
