import NativeCodec.Text.Blank
import NativeCodec.Text.LowerCase

/-!
Where libraries are looked for.

A configuration names directories to search, files for single libraries, and whether libraries of
the system may be used. It is read from the variables of an environment whose names start with a
common stem. `Configuration.ofEnvironment` reads no other variables.
-/

set_option autoImplicit false
set_option relaxedAutoImplicit false

namespace NativeCodec

/-- Variables and their values, in order. -/
abbrev Environment := List (String × String)

namespace Environment

/-- Sets a variable; one that was set before keeps its place. -/
def set (name value : String) : Environment → Environment
  | [] => [(name, value)]
  | (n, v) :: rest => if n = name then (n, value) :: rest else (n, v) :: set name value rest

def ofPairs (pairs : List (String × String)) : Environment :=
  pairs.foldl (fun e (name, value) => e.set name value) []

def value (e : Environment) (name : String) : String := (e.lookup name).getD ""

end Environment

namespace Library

/-- Directories to search, files for single libraries by small-letter names, and whether libraries
of the system may be used. -/
structure Configuration where
  searchPaths : List String := []
  overrides : List (String × String) := []
  useSystem : Bool := false
  deriving DecidableEq, Repr

namespace Configuration

/-- What the name of a variable ends in that gives the file of a library. -/
def fileSuffix : String := "_LIBRARY"

def pathVariable : String := "LIBRARY_PATH"

def systemVariable : String := "USE_SYSTEM_LIBRARY"

/-- The values that mean yes. -/
def yes : List String := ["1", "true", "yes", "on"]

/-- The library whose file a variable gives, in small letters. -/
def libraryOf? (stem key : String) : Option String :=
  let suffix := fileSuffix.toList
  let stem := stem.toList
  let name := key.toList
  if stem.isPrefixOf name && suffix.isSuffixOf name &&
      name != stem ++ systemVariable.toList then
    let inner := (name.take (name.length - suffix.length)).drop stem.length
    if inner.isEmpty then none else some (Text.lower (String.ofList inner))
  else none

def filesOf (stem : String) (e : Environment) : List (String × String) :=
  e.filterMap fun (key, file) =>
    if file.isEmpty then none else (libraryOf? stem key).map fun name => (name, file)

def trimBlanks (text : String) : String :=
  let blank (c : Char) : Bool := Text.blanks.contains c
  String.ofList ((text.toList.dropWhile blank).reverse.dropWhile blank).reverse

/-- The configuration that an environment describes, with paths listed between separators. Of
several files for one library the last counts. -/
def ofEnvironment (stem separator : String) (e : Environment) : Configuration where
  searchPaths := ((e.value (stem ++ pathVariable)).splitOn separator).filter (!·.isEmpty)
  overrides := Environment.ofPairs (filesOf stem e)
  useSystem := yes.contains (Text.lower (trimBlanks (e.value (stem ++ systemVariable))))

/-- The file that is given for a library. -/
def overrideFor (c : Configuration) (name : String) : Option String :=
  c.overrides.lookup (Text.lower name)

end Configuration

end Library

end NativeCodec
