import NativeCodec.Library.Standard
import NativeCodec.Session.Basic

set_option autoImplicit false
set_option relaxedAutoImplicit false

namespace NativeCodec

open Native Library

def placeIn {α : Type} [BEq α] (a : α) (list : List α) : Nat × List α :=
  match list.findIdx? (· == a) with
  | some n => (n, list)
  | none => (list.length, list ++ [a])

namespace Act

variable {σ : Type}

def nextOpening : Act σ Nat :=
  of fun s => (.ok s.openings, { s with openings := s.openings + 1 })

def newLibrary (L : Libraries σ) (name library : String) (path : Option String)
    (exports : List String) : Act σ Opened := do
  let opened : Opened := ⟨← nextOpening, library, path, .explicit⟩
  keep L (some name) (.library { library := opened, exports } false)
  return opened

def newStandard (L : Libraries σ) (name : String) : Act σ Opened := do
  let opened : Opened := ⟨← nextOpening, "c", none, .explicit⟩
  keep L (some name) (.library { library := opened, exports := standardNames } true)
  return opened

def showFunction (b : Bound) : Act σ Nat := of fun s =>
  let (n, shown) := placeIn b s.shownFunctions
  (.ok n, { s with shownFunctions := shown })

def showLibrary (l : Opened) : Act σ Nat := of fun s =>
  let (n, shown) := placeIn l.number s.shownLibraries
  (.ok n, { s with shownLibraries := shown })

def declare (declaration : String) : Act σ Unit :=
  of fun s => (.ok (), { s with declarations := s.declarations.add declaration })

/-- Binds a name on a library: the function, its number, and the names bound then. -/
def bindFunction (L : Libraries σ) (name : Option String) (library symbol declaration : String) :
    Act σ (Bound × Nat × List String) := do
  let place ← place library
  match ← thingAt place with
  | .library t standard =>
    let change := t.bind symbol declaration
    match t.declared? symbol declaration with
    | none => pure ()
    | some d => declare d
    put place (.library change.table standard)
    leave change.notes
    let b ← ofExcept change.outcome
    keep L name (.bound b standard)
    let names := (change.table.bound.map (·.name)).mergeSort fun a b => decide (a ≤ b)
    return (b, ← showFunction b, names)
  | _ => wrongThing

def boundFunction (name : String) : Act σ (Bound × Bool) := do
  match ← thing name with
  | .bound b standard => return (b, standard)
  | _ => wrongThing

def configuration (environment : Option Environment) : Act σ Configuration := of fun s =>
  let around := s.surroundings
  (.ok (Configuration.ofEnvironment around.stem around.separator
    (environment.getD around.environment)), s)

def newLoader (L : Libraries σ) (name : String) (c : Option Configuration)
    (package : Option String) : Act σ Loader := do
  let c ← match c with
    | some c => pure c
    | none => configuration none
  let package := package.getD (← get).surroundings.package
  let loader : Loader := { configuration := c, package }
  keep L (some name) (.loader loader)
  return loader

def loadThrough (l : Loader) (name : String) : Act σ (Loading × Loader) := do
  let number ← nextOpening
  let (loading, l) := l.load (← get).surroundings.host number name
  leave loading.notes
  return (loading, l)

def load (loader name : String) : Act σ Loading := do
  let place ← place loader
  match ← thingAt place with
  | .loader l =>
    let (loading, l) ← loadThrough l name
    put place (.loader l)
    return loading
  | _ => wrongThing

def loadShared (name : String) : Act σ Loading := do
  let l ← match (← get).shared with
    | some l => pure l
    | none => do
      pure { configuration := ← configuration none, package := (← get).surroundings.package }
  let (loading, l) ← loadThrough l name
  of fun s => (.ok (), { s with shared := some l })
  return loading

end Act

end NativeCodec
