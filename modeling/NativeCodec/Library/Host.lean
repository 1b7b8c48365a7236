import NativeCodec.Error

/-!
The machine that libraries are loaded on.

A host has a platform, files, libraries of its own, and a dynamic linker that refuses some paths.
Work is done in one directory, the root. A path starts at the top if it begins with a slash or with
the name of the root, and in the root otherwise; so do the paths of the files that are listed. A
directory with a marker file in it is a package, and so is one without, unless a plain module has
its name.
-/

set_option autoImplicit false
set_option relaxedAutoImplicit false

namespace NativeCodec.Library

/-- A described machine. -/
structure Host where
  marker : String
  moduleSuffix : String
  platform : String := "linux"
  system : String := "Linux"
  machine : String := "x86_64"
  files : List String := []
  directories : List String := []
  root : String := "$ROOT"
  installed : List String := []
  systemLibraries : List (String × String) := []
  refused : List (String × String) := []
  extractionError : Option String := none
  /-- The modules that cannot be imported: what importing one raises, unless it is that a module is
  not found. -/
  failing : List (String × Option Error) := []
  deriving DecidableEq, Repr

namespace Host

/-- The name of the platform: the system and the machine, without blanks. -/
def identifier (h : Host) : String :=
  String.ofList ((s!"{h.system}-{h.machine}").toList.map fun c => if c = ' ' then '_' else c)

def fileName (h : Host) (name : String) : String :=
  if h.platform = "win32" then s!"{name}.dll"
  else if h.platform = "darwin" then s!"lib{name}.dylib"
  else s!"lib{name}.so"

/-- The pieces of a text between the places where a character stands. -/
def split (mark : Char) : List Char → List (List Char)
  | [] => [[]]
  | c :: rest =>
    if c = mark then [] :: split mark rest
    else (c :: (split mark rest).headD []) :: (split mark rest).tail

def pieces (mark : Char) (text : String) : List String :=
  (split mark text.toList).map String.ofList

def steps (path : String) : List String := (pieces '/' path).filter fun s => s ≠ "" ∧ s ≠ "."

def isAbsolute (path : String) : Bool := path.toList.head? == some '/'

def above (steps : List String) : List (List String) :=
  (List.range steps.length).map fun n => steps.take n

def home (h : Host) : List String := steps h.root

def placeOf (h : Host) (path : String) : List String :=
  if isAbsolute path then steps path else h.home ++ steps path

def filePlaces (h : Host) : List (List String) := h.files.map h.placeOf

/-- The places of directories: those listed, the root, and all above them or above a file. -/
def directoryPlaces (h : Host) : List (List String) :=
  let listed := h.home :: h.directories.map h.placeOf
  [] :: listed ++ (h.filePlaces ++ listed).flatMap above

/-- Follows steps from a directory; a step back leads to the directory above, and from the top
nowhere else. Every place that is left again has to be a directory. -/
def follow (h : Host) : List String → List String → Option (List String)
  | place, [] => some place
  | place, s :: rest =>
    if h.directoryPlaces.contains place then
      if s = ".." then follow h place.dropLast rest else follow h (place ++ [s]) rest
    else none

def fromTop (h : Host) (path : String) : Bool :=
  isAbsolute path || path == h.root || (h.root.toList ++ ['/']).isPrefixOf path.toList

def isFile (h : Host) (path : String) : Bool :=
  !(["", "."].contains ((pieces '/' path).getLastD "")) &&
    match h.follow (if h.fromTop path then [] else h.home) (steps path) with
    | none => false
    | some place => h.filePlaces.contains place

def joinPath (first second : String) : String :=
  if isAbsolute second then second
  else if first.isEmpty ∨ first.toList.getLast? = some '/' then first ++ second
  else s!"{first}/{second}"

def shortened (path : String) : String :=
  (if isAbsolute path then "/" else "") ++ "/".intercalate (steps path)

/-- What importing a package comes to. A directory is given by its place in the root. -/
inductive Package
  | absent
  | directory (place : List String)
  | plain
  | failing (e : Error)
  deriving DecidableEq, Repr

/-- What importing the module at a place comes to; `rest` is what it comes to if the module is run
to its end. -/
def importing (h : Host) (place : List String) (rest : Package) : Package :=
  match h.failing.lookup (".".intercalate place) with
  | none => rest
  | some none => .absent
  | some (some e) => .failing e

/-- What importing a package comes to whose name has the given parts. A directory without a marker
has nothing to run. -/
def packageAt (h : Host) : List String → List String → Package
  | place, [] => .directory place
  | place, part :: rest =>
    let inner := place ++ [part]
    if h.filePlaces.contains (h.home ++ inner ++ [h.marker]) then
      h.importing inner (packageAt h inner rest)
    else if h.filePlaces.contains (h.home ++ place ++ [part ++ h.moduleSuffix]) then
      h.importing inner (if rest.isEmpty then .plain else .absent)
    else if h.directoryPlaces.contains (h.home ++ inner) then packageAt h inner rest
    else .absent

/-- What importing the package of the given name comes to. One that is installed is not in the root,
and brings no libraries. -/
def package (h : Host) (name : String) : Package :=
  if name.isEmpty then .failing .moduleUnnamed
  else if name.toList.head? = some '.' then .failing (.moduleRelative name)
  else if h.installed.contains name then .absent
  else packageAt h [] (pieces '.' name)

end Host

end NativeCodec.Library
