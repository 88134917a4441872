import BasicComputer.Association
import BasicComputer.Numeral.Write
import BasicComputer.Text.Lines

/-!
# The symbol table

A **symbol** is a name for an address. A table remembers every definition in the order they were
made, for the report, and beside them one current address for each name, for resolving: a
second definition of a name replaces its current address and stays in the report as another
line.

The two parts are kept in step by `SymbolTable.define`, which is the only way to grow a table.
-/

namespace BasicComputer

/-- One definition: a name and the address it was given. -/
structure Symbol where
  name : String
  address : Word
  deriving DecidableEq, Repr

namespace Symbol

/-- The definition as one line of the report, its address in hexadecimal. -/
def text (s : Symbol) : String :=
  s.name ++ " " ++ Numeral.hex s.address

end Symbol

/-- The names of a program and their addresses. -/
structure SymbolTable where
  /-- Every definition, redefinitions included, in order. -/
  definitions : Array Symbol
  /-- Each defined name once, with its latest address. -/
  current : List (String × Word)
  deriving DecidableEq, Repr

namespace SymbolTable

/-- The table before any definition. -/
def empty : SymbolTable := ⟨#[], []⟩

/-- The table after one more definition. -/
def define (t : SymbolTable) (name : String) (address : Word) : SymbolTable where
  definitions := t.definitions.push ⟨name, address⟩
  current := Association.assign name address t.current

/-- The table of the given definitions, made in order. -/
def ofList (definitions : List Symbol) : SymbolTable :=
  definitions.foldl (fun t s => t.define s.name s.address) empty

/-- The address that a name stands for. -/
def resolve (t : SymbolTable) (name : String) : Option Word :=
  t.current.lookup name

/-- The number of distinct names. -/
def size (t : SymbolTable) : Nat :=
  t.current.length

/-- Whether nothing is defined. -/
def isEmpty (t : SymbolTable) : Bool :=
  t.current.isEmpty

/-- Every definition, redefinitions included, in order. -/
def toList (t : SymbolTable) : List Symbol :=
  t.definitions.toList

/-- The symbol report, a line for each definition. -/
def render (t : SymbolTable) : String :=
  Text.unlines (t.toList.map Symbol.text)

/-! ## One more definition -/

/-- A definition is listed behind the earlier ones. -/
@[simp] theorem toList_define (t : SymbolTable) (name : String) (address : Word) :
    (t.define name address).toList = t.toList ++ [⟨name, address⟩] := by
  simp [toList, define]

/-- The last definition of a name is the one that counts. -/
theorem resolve_define (t : SymbolTable) (name other : String) (address : Word) :
    (t.define name address).resolve other =
      if other = name then some address else t.resolve other := by
  simp [resolve, define, Association.lookup_assign]

/-- A definition adds a name unless the name was there. -/
theorem size_define (t : SymbolTable) (name : String) (address : Word) :
    (t.define name address).size = t.size + if (t.resolve name).isSome then 0 else 1 :=
  Association.length_assign name address t.current

end SymbolTable

end BasicComputer
