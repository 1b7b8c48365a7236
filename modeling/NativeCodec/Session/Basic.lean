import NativeCodec.Codec.Facade
import NativeCodec.Library.Binding
import NativeCodec.Memory.Copy

/-!
Sessions.

A session keeps things under names. Several names may stand for one thing; a thing that no name
stands for any more gives back what it owns. An `Act` is an operation on a session that may end in
an error, and what it has done by then stays done.
-/

set_option autoImplicit false
set_option relaxedAutoImplicit false

namespace NativeCodec

open Native

inductive Thing
  | view (v : View) (growable : Bool)
  | direct (b : DirectBuffer)
  | range (r : Range)
  | other (type : String)
  | codec (f : Codec.Facade)
  | context (c : Context) (faulty : Bool)
  | once (settled : Once String) (outcomes : List (Except Error String)) (runs : Nat)
  | library (t : Library.Table) (standard : Bool)
  | bound (b : Library.Bound) (standard : Bool)
  | loader (l : Library.Loader)

def Thing.argument : Thing → Argument
  | view v _ => .view v
  | direct b => .direct b
  | range r => .range r
  | other type => .other type
  | codec f => .other f.name
  | _ => .other "object"

/-- The handles of a pool, numbered from 1: how many were created, and which were freed in turn. -/
structure Handles where
  created : Nat := 0
  freed : List Nat := []
  deriving DecidableEq, Repr

def Handles.create (h : Handles) : Nat × Handles :=
  (h.created + 1, { h with created := h.created + 1 })

def Handles.free (h : Handles) (handle : Nat) : Handles := { h with freed := h.freed ++ [handle] }

/-- What a session is started with: the machine, its environment, the stem of the variables that
configure loading, the separator of paths, and the package that brings libraries if none is
named. -/
structure Surroundings where
  host : Library.Host
  environment : Environment
  stem : String
  separator : String
  package : String

/-- Names, the things they stand for, and all that the things share. The storages in `pins` are held
on to by views that are open. -/
structure Session (σ : Type) where
  world : World σ
  surroundings : Surroundings
  names : List (String × Nat) := []
  things : List Thing := []
  pins : List Nat := []
  handles : Handles := {}
  shared : Option Library.Loader := none
  openings : Nat := 0
  declarations : Library.Declarations := {}
  shownFunctions : List Library.Bound := []
  shownLibraries : List Nat := []

abbrev Act (σ α : Type) := ExceptT Error (StateM (Session σ)) α

namespace Act

variable {σ α : Type}

def of (f : Session σ → Except Error α × Session σ) : Act σ α := f

/-- Runs an act. -/
def run (x : Act σ α) (s : Session σ) : Except Error α × Session σ := ExceptT.run x s

def ofExcept (x : Except Error α) : Act σ α := of fun s => (x, s)

def ofOp (x : Op σ α) : Act σ α := of fun s =>
  let (outcome, w) := x.run s.world
  (outcome, { s with world := w })

def memory : Act σ Memory := of fun s => (.ok s.world.memory, s)

def setMemory (m : Memory) : Act σ Unit :=
  of fun s => (.ok (), { s with world := { s.world with memory := m } })

def leave (notes : List Note) : Act σ Unit := of fun s =>
  (.ok (), { s with world :=
    { s.world with events := (notes.map Event.noted).reverse ++ s.world.events } })

def add (t : Thing) : Act σ Nat :=
  of fun s => (.ok s.things.length, { s with things := s.things ++ [t] })

def put (place : Nat) (t : Thing) : Act σ Unit :=
  of fun s => (.ok (), { s with things := s.things.set place t })

def place (name : String) : Act σ Nat := of fun s =>
  match s.names.lookup name with
  | some place => (.ok place, s)
  | none => (.error (.made .key name none none), s)

def thingAt (place : Nat) : Act σ Thing :=
  of fun s => (.ok (s.things.getD place (.other "object")), s)

def thing (name : String) : Act σ Thing := do thingAt (← place name)

def wrongThing : Act σ α := ofExcept (.error .wrongArgument)

/-- Does something, and then something else whatever became of the first. An error of the second
replaces what became of the first. -/
def ensuring (x : Act σ α) (closing : Act σ Unit) : Act σ α := of fun s =>
  let (outcome, s) := x.run s
  let (last, s) := closing.run s
  (last.bind fun _ => outcome, s)

def attempt (x : Act σ α) : Act σ (Except Error α) := of fun s =>
  let (outcome, s) := x.run s
  (.ok outcome, s)

def failIf (fail : Bool) : Act σ Unit :=
  if fail then throw (.made .runtime "boom" none none) else pure ()

end Act

namespace Session

variable {σ : Type}

def abandon (L : Libraries σ) (s : Session σ) : Thing → Session σ
  | .codec f => { s with world := ((f.close L).run s.world).2 }
  | .context c _ =>
    match c.release.1 with
    | none => s
    | some handle => { s with handles := s.handles.free handle }
  | _ => s

/-- Takes a name away. The thing it stood for is abandoned if no other name stands for it. -/
def forget (L : Libraries σ) (s : Session σ) (name : String) : Session σ :=
  match s.names.lookup name with
  | none => s
  | some place =>
    let names := s.names.filter (·.1 != name)
    let s := { s with names }
    if names.any (·.2 == place) then s
    else s.abandon L (s.things.getD place (.other "object"))

def assign (L : Libraries σ) (s : Session σ) (name : String) (place : Nat) : Session σ :=
  if s.names.lookup name = some place then s
  else
    let s := s.forget L name
    { s with names := (name, place) :: s.names }

end Session

namespace Act

variable {σ : Type}

def forget (L : Libraries σ) (name : String) : Act σ Unit := of fun s => (.ok (), s.forget L name)

def assign (L : Libraries σ) (name : String) (place : Nat) : Act σ Unit :=
  of fun s => (.ok (), s.assign L name place)

/-- Lets a name, if one is given, stand for a new thing. -/
def keep (L : Libraries σ) (name : Option String) (t : Thing) : Act σ Unit := do
  match name with
  | none => pure ()
  | some name => assign L name (← add t)

end Act

end NativeCodec
