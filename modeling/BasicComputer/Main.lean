import BasicComputer.Command.Run

/-!
# The program

The command line on real files. The work is `Command.prepare` and `Job.verdict`; this module
reads the files that a command names, makes its deliveries and prints what there is to print. Where
the system refuses something, its own words are the cause that is reported. Texts that the reader of
command lines would word, such as help, are left out.
-/

namespace BasicComputer.Main

/-- The text of a file, or why there is none. -/
def readText (path : String) : IO (Except String String) := do
  try
    match String.fromUTF8? (← IO.FS.readBinFile path) with
    | some text => return .ok text
    | none => return .error "stream did not contain valid UTF-8"
  catch cause => return .error (toString cause)

/-- Writes a file, or says why that was not possible. -/
def writeText (path text : String) : IO (Except String Unit) := do
  try
    IO.FS.writeFile path text
    return .ok ()
  catch cause => return .error (toString cause)

/-- The files that a command reads, with their texts. -/
def readInputs (command : Command) : IO (List (String × Except String String)) :=
  command.inputs.mapM fun path => return (path, ← readText path)

/-- Makes deliveries in order, and gives the file that could not be written, with the cause. -/
def makeDeliveries : List Delivery → IO (Option (String × String))
  | [] => return none
  | ⟨none, text⟩ :: rest => do
    IO.print text
    makeDeliveries rest
  | ⟨some path, text⟩ :: rest => do
    match ← writeText path text with
    | .ok () => makeDeliveries rest
    | .error cause => return some (path, cause)

/-- Reports how a run ends, and gives its exit code. -/
def finish (ending : Ending) (reported : List Diagnostic) (cause : String := "") : IO UInt32 := do
  let r : RunResult := ⟨ending, "", reported, .empty⟩
  IO.eprint (r.errorOutput { cause := fun _ _ => cause })
  return .ofNat ending.exitCode

/-- Why the file of a failure could not be read. -/
def readingCause (texts : List (String × Except String String)) : Ending → String
  | .failed (.reading path) =>
    match texts.lookup path with
    | some (.error cause) => cause
    | _ => ""
  | _ => ""

/-- Carries out a command. -/
def carryOut (command : Command) : IO UInt32 := do
  let texts ← readInputs command
  match command.prepare fun path => (texts.lookup path).bind Except.toOption with
  | .error ending => finish ending [] (readingCause texts ending)
  | .ok job =>
    match ← makeDeliveries job.deliveries with
    | some (path, cause) => finish (.failed (.writing path)) [] cause
    | none => finish job.verdict job.diagnostics

end BasicComputer.Main

/-- Runs the command line. -/
def main (arguments : List String) : IO UInt32 := do
  match BasicComputer.Command.scan arguments with
  | .ok command => BasicComputer.Main.carryOut command
  | .error .help => BasicComputer.Main.finish .done []
  | .error .refused => BasicComputer.Main.finish .badArguments []
