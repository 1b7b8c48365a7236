import NativeCodec.Session.Basic

set_option autoImplicit false
set_option relaxedAutoImplicit false

namespace NativeCodec.Act

open Native

variable {σ : Type}

inductive Creation
  | fine
  | null
  | fails
  deriving DecidableEq, Repr

def createHandle : Creation → Act σ (Option Nat)
  | .fine => of fun s =>
    let (handle, handles) := s.handles.create
    (.ok (some handle), { s with handles })
  | .null => pure none
  | .fails => throw (.made .value "create failed" none none)

def freeHandle (handle : Nat) (faulty : Bool) : Act σ Unit := do
  of fun s => (.ok (), { s with handles := s.handles.free handle })
  if faulty then throw (.made .system "free failed" none none)

def context (name : String) : Act σ (Nat × Context × Bool) := do
  let place ← place name
  match ← thingAt place with
  | .context c faulty => return (place, c, faulty)
  | _ => wrongThing

def counts : Act σ Handles := of fun s => (.ok s.handles, s)

def addContext (kind : String) (creation : Creation) (faulty : Bool) : Act σ (Nat × Context) := do
  let c ← ofExcept (Context.create kind (← createHandle creation))
  return (← add (.context c faulty), c)

def newContext (L : Libraries σ) (name kind : String) (creation : Creation) (faulty : Bool) :
    Act σ Context := do
  let (place, c) ← addContext kind creation faulty
  assign L name place
  return c

def releaseAt (place : Nat) : Act σ Unit := do
  match ← thingAt place with
  | .context c faulty =>
    let (handle, c) := c.release
    put place (.context c faulty)
    match handle with
    | none => pure ()
    | some handle => freeHandle handle faulty
  | _ => wrongThing

def useContext (name : String) (fail : Bool) : Act σ Nat := do
  let (place, c, _) ← context name
  ensuring (do
    let handle ← ofExcept c.use
    failIf fail
    return handle) (releaseAt place)

/-- Makes a context for one use: its handle, and its text in between. -/
def useNewContext (L : Libraries σ) (name : Option String) (kind : String) (creation : Creation)
    (faulty release fail : Bool) : Act σ (Nat × String) := do
  let (place, c) ← addContext kind creation faulty
  ensuring (do
    match name with
    | none => pure ()
    | some name => assign L name place
    let handle ← ofExcept c.use
    if release then releaseAt place
    failIf fail
    return (handle, c.describe)) (releaseAt place)

def outcomeAt (outcomes : List (Except Error String)) (run : Nat) : Except Error String :=
  match outcomes[run]? with
  | some outcome => outcome
  | none => outcomes.getLast?.getD (.error .endless)

/-- Calls a function whose outcome is settled once: the outcome, and whether an error is behind
it. -/
def callOnce (name : String) : Act σ (Except Error String × Bool) := do
  let place ← place name
  match ← thingAt place with
  | .once o outcomes runs =>
    let (answer, after, runs) := o.call (Once.nth (outcomeAt outcomes)) runs
    put place (.once after outcomes runs)
    return (answer.outcome, answer.cause.isSome)
  | _ => wrongThing

def runsOf (name : String) : Act σ Nat := do
  match ← thing name with
  | .once _ _ runs => return runs
  | _ => wrongThing

end NativeCodec.Act
