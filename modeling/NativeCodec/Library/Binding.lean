import NativeCodec.Library.Declaration
import NativeCodec.Library.Loader

set_option autoImplicit false
set_option relaxedAutoImplicit false

namespace NativeCodec.Library

/-- A function that was bound: the number of its library, its name and its declaration. -/
structure Bound where
  library : Nat
  name : String
  declaration : String
  deriving DecidableEq, Repr

def Bound.describe (b : Bound) : String := s!"BoundFunction<{b.declaration}>"

/-- A library, the symbols it exports, and the functions bound on it. -/
structure Table where
  library : Opened
  exports : List String
  bound : List Bound := []
  deriving DecidableEq, Repr

namespace Table

def get? (t : Table) (name : String) : Option Bound := t.bound.find? (·.name == name)

/-- What binding came to: the outcome, the table, and a note. -/
structure Change where
  outcome : Except Error Bound
  table : Table
  notes : List Note := []

def bind (t : Table) (name declaration : String) : Change :=
  if declares declaration name = false then
    { outcome := .error (.undeclared (Text.quote declaration) (Text.quote name)), table := t }
  else
    match t.get? name with
    | some b => { outcome := .ok b, table := t }
    | none =>
      if t.exports.contains name then
        let b : Bound := ⟨t.library.number, name, declaration⟩
        { outcome := .ok b
          table := { t with bound := t.bound ++ [b] }
          notes := [⟨.debug, s!"Bound {name} from {t.library.name}"⟩] }
      else
        { outcome := .error (.unresolved name t.library.name (showPath t.library.path))
          table := t }

/-- The declaration that binding a name gives to the reader of declarations, if it gets so far. -/
def declared? (t : Table) (name declaration : String) : Option String :=
  if declares declaration name && (t.get? name).isNone then some declaration else none

end Table

structure Declarations where
  read : List String := []
  deriving DecidableEq, Repr

def Declarations.add (d : Declarations) (declaration : String) : Declarations :=
  if d.read.contains declaration then d else ⟨d.read ++ [declaration]⟩

end NativeCodec.Library
