import BasicComputer.Line.Basic

/-!
# The location counter

Each line of a program stands at an address, the value of the **location counter** when the line
is reached. The counter starts at 0 and goes on by one behind every line, an `ORG` apart: an
`ORG` line takes no address and puts the counter where it says, or leaves it alone if it says
nothing that can be used. Whether a blank line takes an address is a matter of policy.

The counter wraps from `FFFF` to 0. Both passes over a program move it by `BlankLines.next`; they
differ only in what an `ORG` line says to them.
-/

namespace BasicComputer

/-- What a blank line does to the location counter. -/
inductive BlankLines where
  /-- A blank line takes an address, like any other line. -/
  | advance
  /-- A blank line is as good as absent. -/
  | skip
  deriving DecidableEq, Repr

namespace BlankLines

/-- The name of the policy, in options and configuration. -/
def name : BlankLines → String
  | advance => "advance"
  | skip => "skip"

/-- The policy of a name. -/
def ofName? (name : String) : Option BlankLines :=
  [advance, skip].find? (·.name = name)

/-- Whether a line that is no `ORG` takes an address. -/
def takesAddress (policy : BlankLines) (line : Line) : Bool :=
  !(line.isBlank && policy = skip)

/-- The counter behind a line that stands at `counter`; `target` is where the line moves it, if
it is an `ORG` and says so. -/
def next (policy : BlankLines) (line : Line) (target : Option Word) (counter : Word) : Word :=
  if line.isOrg then target.getD counter
  else if policy.takesAddress line then counter + 1
  else counter

end BlankLines

end BasicComputer
