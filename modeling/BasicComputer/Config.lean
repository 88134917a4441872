import BasicComputer.Assembly.Counter
import BasicComputer.Json.Scan

/-!
# Configuration

A configuration is a JSON document with the settings of the assembler. It is an object of
settings by name, in which unknown names are passed over and a setting may be given once, or an
array of the settings in order. A setting that is not given has its default.

The policy for blank lines is written as its name, or as an object whose only field has that
name and the value `null`.
-/

namespace BasicComputer

/-- The settings of the assembler. -/
structure Config where
  blankLines : BlankLines := .advance
  deriving DecidableEq, Repr

namespace Config

open Json

/-- Reads the name of a policy for blank lines. -/
def scanPolicyName (cs : List Char) : Option (BlankLines × List Char) := do
  let (name, rest) ← scanText cs
  return (← BlankLines.ofName? name, rest)

/-- Reads a policy for blank lines. -/
def scanPolicy (cs : List Char) : Option (BlankLines × List Char) :=
  match expect ['\x7b'] cs with
  | none => scanPolicyName cs
  | some cs => do
    let (policy, cs) ← scanPolicyName cs
    let cs ← expect ['n', 'u', 'l', 'l'] (← expect [':'] cs)
    return (policy, ← expect ['\x7d'] cs)

/-- Reads one setting or more and the brace that closes them. `found` is the policy that was
given before; every setting takes one unit of fuel. -/
def scanSettings : Nat → Option BlankLines → List Char → Option (Option BlankLines × List Char)
  | 0, _, _ => none
  | fuel + 1, found, cs => do
    let (name, cs) ← scanText cs
    let cs ← expect [':'] cs
    let (found, cs) ←
      if name = "blank_lines" then
        if found.isSome then none
        else (scanPolicy cs).map fun (policy, cs) => (some policy, cs)
      else (skipValue cs).map fun cs => (found, cs)
    match expect [','] cs with
    | some cs => scanSettings fuel found cs
    | none => (expect ['\x7d'] cs).map fun cs => (found, cs)

/-- Reads settings by name, behind the opening brace. -/
def scanObject (cs : List Char) : Option (Config × List Char) :=
  match expect ['\x7d'] cs with
  | some cs => some (⟨.advance⟩, cs)
  | none => do
    -- A setting holds a character at least, so there are fewer settings than characters.
    let (found, cs) ← scanSettings cs.length none cs
    return (⟨found.getD .advance⟩, cs)

/-- Reads settings in order, behind the opening bracket. -/
def scanArray (cs : List Char) : Option (Config × List Char) :=
  match expect [']'] cs with
  | some cs => some (⟨.advance⟩, cs)
  | none => do
    let (policy, cs) ← scanPolicy cs
    return (⟨policy⟩, ← expect [']'] cs)

/-- The configuration that a document describes. -/
def parse? (text : String) : Option Config := do
  let cs := skipSpace text.toList
  let (config, rest) ←
    match cs with
    | '\x7b' :: rest => scanObject rest
    | '[' :: rest => scanArray rest
    | _ => none
  if skipSpace rest = [] then some config else none

end Config

end BasicComputer
