import NativeCodec.Session.Objects

set_option autoImplicit false
set_option relaxedAutoImplicit false

namespace NativeCodec.Act

open Native

variable {σ : Type}

def direct (name : String) : Act σ (Nat × DirectBuffer) := do
  let place ← place name
  match ← thingAt place with
  | .direct b => return (place, b)
  | _ => wrongThing

def putDirect (place : Nat) (b : DirectBuffer) (m : Memory) : Act σ Unit := do
  setMemory m
  put place (.direct b)

/-- Names a new direct buffer of zeros. The name is taken away first. -/
def newDirect (L : Libraries σ) (name : String) (size : Int) : Act σ DirectBuffer := do
  forget L name
  let (b, m) ← ofExcept (DirectBuffer.create (← memory) size)
  setMemory m
  keep L (some name) (.direct b)
  return b

/-- Names a new direct buffer with the bytes of an object. The name is taken away first. -/
def directOf (L : Libraries σ) (name : String) (d : Description) : Act σ DirectBuffer := do
  forget L name
  let a ← argument d
  let (b, m) ← ofExcept (DirectBuffer.ofArgument (← memory) a)
  setMemory m
  keep L (some name) (.direct b)
  return b

def directWrite (name : String) (d : Description) : Act σ Nat := do
  let (place, b) ← direct name
  let a ← argument d
  let (count, b, m) ← ofExcept (b.writeFrom (← memory) a)
  putDirect place b m
  return count

def directRead (name : String) (count : Option Int) : Act σ Bytes := do
  let (place, b) ← direct name
  let (bytes, b) := b.read (← memory) count
  put place (.direct b)
  return bytes

/-- Reads at the cursor into an object, and gives the count and the content of the object. -/
def directReadInto (name : String) (d : Description) : Act σ (Nat × Bytes) := do
  let (place, b) ← direct name
  let a ← argument d
  let (count, b, m) ← ofExcept (b.readInto (← memory) a)
  putDirect place b m
  return (count, a.content m)

def directSeek (name : String) (offset whence : Int) : Act σ Nat := do
  let (place, b) ← direct name
  let b ← ofExcept (b.seek offset whence)
  put place (.direct b)
  return b.position

/-- The bytes of the buffer. -/
def directBytes (name : String) : Act σ Bytes := do
  return (← direct name).2.contents (← memory)

/-- The position of the cursor, if there is such a buffer. -/
def cursor? (s : Session σ) (name : String) : Option Nat :=
  match (s.names.lookup name).bind fun place => s.things[place]? with
  | some (.direct b) => some b.position
  | _ => none

end NativeCodec.Act
