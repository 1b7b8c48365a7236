import NativeCodec.Error
import NativeCodec.Library.Configuration
import NativeCodec.Library.Host
import NativeCodec.Note
import NativeCodec.Text.Quoted

/-!
Loading libraries by name.

`choose` finds the file of a library: the one that is configured for it, else the first in the
directories to search, else the one that a package brings, else one of the system. The file that is
chosen is opened, and no other is tried if that fails. A loader settles each name once: a library is
given again, and so is what is said of the error that loading it ended in, without looking at the
host.
-/

set_option autoImplicit false
set_option relaxedAutoImplicit false

namespace NativeCodec.Library

inductive Origin
  | explicit
  | override
  | searchPath
  | bundled
  | system
  deriving DecidableEq, Repr

def Origin.name : Origin → String
  | explicit => "explicit"
  | override => "override"
  | searchPath => "search path"
  | bundled => "bundled"
  | system => "system"

/-- A file that may hold a library. -/
structure Candidate where
  path : String
  origin : Origin
  deriving DecidableEq, Repr

/-- A library that was opened; each opening has a number of its own. -/
structure Opened where
  number : Nat
  name : String
  path : Option String
  origin : Origin
  deriving DecidableEq, Repr

def showPath (path : Option String) : String := path.getD "None"

def Opened.describe (l : Opened) : String :=
  s!"NativeLibrary<name={l.name}, path={showPath l.path}, source={l.origin.name}>"

def resourceDirectory : String := "_native"

def pathsIn (h : Host) (file directory : String) : List String :=
  [Host.joinPath (Host.joinPath directory h.identifier) file, Host.joinPath directory file]

def searchCandidates (h : Host) (c : Configuration) (file : String) : List Candidate :=
  (c.searchPaths.flatMap (pathsIn h file)).map fun path => ⟨path, .searchPath⟩

/-- Where a package should bring a file, as it is said in errors. -/
def resourcePath (h : Host) (package file : String) : String :=
  s!"{package}/{resourceDirectory}/{h.identifier}/{file}"

def resourceAt (h : Host) (place : List String) (file : String) : String :=
  let directory := "/".intercalate (h.root :: place ++ [resourceDirectory])
  Host.shortened (Host.joinPath (Host.joinPath directory h.identifier) file)

def bundled (h : Host) (package file : String) : Except Error (Option Candidate) :=
  match h.package package with
  | .absent => .ok none
  | .plain => .error (.notPackage package)
  | .failing e => .error e
  | .directory place =>
    let path := resourceAt h place file
    .ok (if h.isFile path then some ⟨path, .bundled⟩ else none)

def systemCandidate (h : Host) (c : Configuration) (name missing : String) :
    Except Error Candidate :=
  if c.useSystem then
    match h.systemLibraries.lookup name with
    | some path => .ok ⟨path, .system⟩
    | none => .error (.libraryMissingOnSystem missing (Text.quote name))
  else .error (.libraryMissing missing)

def choose (h : Host) (c : Configuration) (package name : String) : Except Error Candidate :=
  match c.overrideFor name with
  | some path => if h.isFile path then .ok ⟨path, .override⟩ else .error (.libraryMissing path)
  | none =>
    let file := h.fileName name
    match (searchCandidates h c file).find? fun candidate => h.isFile candidate.path with
    | some candidate => .ok candidate
    | none =>
      match bundled h package file with
      | .error e => .error e
      | .ok (some candidate) => .ok candidate
      | .ok none => systemCandidate h c name (resourcePath h package file)

/-- The paths that are given to the dynamic linker, and whether a candidate can be opened. A file
that a package brings has to be extracted first. -/
def openCandidate (h : Host) (name : String) (candidate : Candidate) :
    List String × Except Error Candidate :=
  match candidate.origin, h.extractionError with
  | .bundled, some reason => ([], .error (.extractionFailed (Text.quote name) reason))
  | _, _ =>
    match h.refused.lookup candidate.path with
    | some reason => ([candidate.path], .error (.openingFailed candidate.path reason))
    | none => ([candidate.path], .ok candidate)

/-- The paths that are given to the dynamic linker for a library, and what becomes of it. -/
def resolve (h : Host) (c : Configuration) (package name : String) :
    List String × Except Error Candidate :=
  match choose h c package name with
  | .error e => ([], .error e)
  | .ok candidate => openCandidate h name candidate

/-- A loader: its configuration, the package that brings files, the libraries that were opened, and
the errors that loading ended in. -/
structure Loader where
  configuration : Configuration
  package : String
  libraries : List (String × Opened) := []
  failures : List (String × Error) := []

/-- What loading a name came to: the outcome, the error behind it where one is given again, whether
the name was settled before, the paths given to the dynamic linker, and a note. -/
structure Loading where
  outcome : Except Error Opened
  behind : Option Error := none
  again : Bool := false
  opened : List String := []
  notes : List Note := []

/-- The kind of what is behind the error of a loading, where something else is. -/
def Loading.cause (l : Loading) : Option Kind :=
  match l.outcome, l.behind with
  | .ok _, _ => none
  | .error _, some e => some e.kind
  | .error e, none => e.cause

def loadedNote (l : Opened) : Note :=
  ⟨.info, s!"Loaded native library {Text.quote l.name} from {showPath l.path} ({l.origin.name})"⟩

def failedNote (name : String) (e : Error) : Note :=
  ⟨.error, s!"Unable to load native library {Text.quote name}: {e.text}"⟩

def Loading.known (library : Opened) : Loading := { outcome := .ok library, again := true }

/-- An error that is given again: a new one with its text, which it is behind. -/
def Loading.refused (e : Error) : Loading :=
  { outcome := .error (.made .libraryLoad e.text none none), behind := some e, again := true }

/-- Looks for a library and opens it; `number` is the next opening's. A library is kept, and so is
an error of loading, but no other. -/
def Loader.attempt (l : Loader) (h : Host) (number : Nat) (name : String) : Loading × Loader :=
  let (opened, outcome) := resolve h l.configuration l.package name
  match outcome with
  | .ok candidate =>
    let library : Opened := ⟨number, name, some candidate.path, candidate.origin⟩
    ({ outcome := .ok library, opened, notes := [loadedNote library] },
      { l with libraries := (name, library) :: l.libraries })
  | .error e =>
    if e.kind = .libraryLoad then
      ({ outcome := .error e, opened, notes := [failedNote name e] },
        { l with failures := (name, e) :: l.failures })
    else ({ outcome := .error e, opened }, l)

/-- Loads a library. -/
def Loader.load (l : Loader) (h : Host) (number : Nat) (name : String) : Loading × Loader :=
  match l.libraries.lookup name with
  | some library => (.known library, l)
  | none =>
    match l.failures.lookup name with
    | some e => (.refused e, l)
    | none => l.attempt h number name

end NativeCodec.Library
