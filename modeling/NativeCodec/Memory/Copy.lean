import NativeCodec.Memory.Argument

set_option autoImplicit false
set_option relaxedAutoImplicit false

namespace NativeCodec

structure ByteRun where
  place : Nat
  offset : Nat
  length : Nat
  deriving DecidableEq, Repr

def ByteRun.bytes (p : ByteRun) (m : Memory) : Bytes := (m.get p.place).read p.offset p.length

/-- Copies a run of bytes to the start of a range, if it fits there. -/
def ByteRun.copyTo (p : ByteRun) (m : Memory) (r : Range) : Except Error (Nat × Memory) :=
  if r.length < p.length then .error (.doesNotFit p.length r.length)
  else .ok (p.length, m.write r.start (p.bytes m))

/-- Where bytes are copied from: an object, or a part of what a view shows, as far as there is
one. -/
inductive ByteSource
  | object (a : Argument)
  | part (v : View) (offset length : Nat)
  deriving DecidableEq, Repr

def ByteSource.run? (m : Memory) : ByteSource → Except Error ByteRun
  | object a => a.flatView?.map fun v => ⟨v.place, 0, m.size v.place⟩
  | part v offset length => (Argument.view v).flatView?.map fun v =>
    ⟨v.place, offset, min length (m.size v.place - offset)⟩

def copyInto (m : Memory) (r : Range) (data : ByteSource) : Except Error (Nat × Memory) := do
  let p ← data.run? m
  p.copyTo m (← r.writable?)

/-- Makes a direct buffer of the bytes of an object. -/
def DirectBuffer.ofArgument (m : Memory) (data : Argument) :
    Except Error (DirectBuffer × Memory) := do
  let bytes ← data.flat? m
  let (b, m) ← DirectBuffer.create m bytes.length
  return (b, m.write b.start bytes)

def DirectBuffer.writeFrom (b : DirectBuffer) (m : Memory) (data : Argument) :
    Except Error (Nat × DirectBuffer × Memory) := do
  b.write m (← data.flat? m)

def DirectBuffer.readInto (b : DirectBuffer) (m : Memory) (out : Argument) :
    Except Error (Nat × DirectBuffer × Memory) := do
  let v ← out.flatView?
  if v.readOnly then throw .notFlat
  let (bytes, b) := b.take m (m.size v.place)
  return (bytes.length, b, m.write ⟨.managed v.place, 0⟩ bytes)

def Argument.content (m : Memory) : Argument → Bytes
  | .view v => (m.get v.place).bytes
  | .direct b => b.contents m
  | .range r => (m.read? r.start r.length).getD []
  | .other _ => []

/-- Stores single bytes at places counted from a pointer. -/
def Memory.poke (m : Memory) (p : Pointer) (stores : List (Nat × UInt8)) : Memory :=
  stores.foldl (fun m (offset, b) => m.write (p.advance offset) [b]) m

end NativeCodec
