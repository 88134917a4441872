/-!
# Arguments

A command takes one file and options, which may stand on either side of the file. An option with
a value is written as `--name value` or `--name=value`, and a text that starts with a dash is no
value unless it is the dash alone. Behind `--` everything is a file. A file and an option can be
given once.

Which options there are, and what each can be given, is a `Grammar`. Arguments are taken from
left to right and the first that does not fit decides: it refuses all of them, or it asks for
help. That there is a file at all is for the command to check.
-/

namespace BasicComputer

/-! ## Single arguments -/

/-- What an argument in front of `--` is. -/
inductive Argument where
  | file (path : String)
  /-- The end of the options. -/
  | dashes
  /-- A name behind two dashes, and the text behind an equality sign. -/
  | long (name : String) (value : Option String)
  /-- Letters behind one dash. -/
  | short (letters : List Char)
  deriving DecidableEq, Repr

namespace Argument

/-- What a text is as an argument. -/
def ofText (text : String) : Argument :=
  match text.toList with
  | ['-', '-'] => .dashes
  | '-' :: '-' :: body =>
    let name := String.ofList (body.takeWhile (· ≠ '='))
    match body.dropWhile (· ≠ '=') with
    | [] => .long name none
    | _ :: value => .long name (some (String.ofList value))
  | ['-'] => .file text
  | '-' :: letters => .short letters
  | _ => .file text

/-- Whether a text can be the value of an option in front of it. -/
def isValue (text : String) : Bool :=
  match ofText text with
  | .file _ => true
  | _ => false

end Argument

/-! ## Collecting arguments -/

/-- The options of a command. -/
structure Grammar where
  flags : List String
  /-- The options with a value, each with the values it can be given. -/
  valued : List (String × (String → Bool))

/-- What was given so far. -/
structure Given where
  file : Option String := none
  flags : List String := []
  values : List (String × String) := []
  deriving DecidableEq, Repr

/-- Why a command line is not carried out as the command it names. -/
inductive Interruption where
  | refused
  | help
  deriving DecidableEq, Repr

namespace Given

/-- One more file; there can be one, and it has a name. -/
def addFile (g : Given) (path : String) : Except Interruption Given :=
  if g.file.isSome ∨ path = "" then .error .refused else .ok { g with file := some path }

/-- One more flag, which must not have been given before. -/
def addFlag (g : Given) (name : String) : Except Interruption Given :=
  if name ∈ g.flags then .error .refused else .ok { g with flags := g.flags ++ [name] }

/-- One more value, of an option that must not have been given before. -/
def addValue (g : Given) (name value : String) : Except Interruption Given :=
  if name ∈ g.values.map (·.1) then .error .refused
  else .ok { g with values := g.values ++ [(name, value)] }

/-- Whether a flag was given. -/
def hasFlag (g : Given) (name : String) : Bool :=
  name ∈ g.flags

/-- The value that an option was given. -/
def value? (g : Given) (name : String) : Option String :=
  g.values.lookup name

end Given

namespace Grammar

/-- Takes the value of an option. -/
def takeValue (grammar : Grammar) (g : Given) (name value : String) :
    Except Interruption Given :=
  match grammar.valued.lookup name with
  | some allowed => if allowed value then g.addValue name value else .error .refused
  | none => .error .refused

/-- Takes arguments from left to right, after those that came to `g`. -/
def scan (grammar : Grammar) (g : Given) : List String → Except Interruption Given
  | [] => .ok g
  | argument :: rest =>
    match Argument.ofText argument with
    | .file path => do grammar.scan (← g.addFile path) rest
    | .dashes => rest.foldlM Given.addFile g
    | .short letters => if letters.head? = some 'h' then .error .help else .error .refused
    | .long "help" none => .error .help
    | .long name none =>
      if name ∈ grammar.flags then do grammar.scan (← g.addFlag name) rest
      else
        match rest with
        | [] => .error .refused
        | value :: rest =>
          if Argument.isValue value then do
            grammar.scan (← grammar.takeValue g name value) rest
          else .error .refused
    | .long name (some value) => do grammar.scan (← grammar.takeValue g name value) rest

end Grammar

end BasicComputer
