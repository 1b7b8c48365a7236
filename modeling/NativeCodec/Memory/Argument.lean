import NativeCodec.Memory.DirectBuffer
import NativeCodec.Memory.Item

set_option autoImplicit false
set_option relaxedAutoImplicit false

namespace NativeCodec

/-- A view of a whole storage: the type of the object that gives it, whether it must not be
written, whether it is without gaps, the form of its items and how many each dimension has; a view
of plain bytes has as many as the storage. -/
structure View where
  type : String
  place : Nat
  readOnly : Bool
  contiguous : Bool := true
  item : Item := .byte
  shape : Option (List Nat) := none
  deriving DecidableEq, Repr

/-- What an operation is handed. -/
inductive Argument
  | view (v : View)
  | direct (b : DirectBuffer)
  | range (r : Range)
  | other (type : String)
  deriving DecidableEq, Repr

namespace Argument

/-- The range of a part of an object. -/
def range? (m : Memory) (offset : Int) (length : Option Int) : Argument → Except Error Range
  | range r => r.slice? offset length
  | direct b =>
    (checkBounds offset length b.size).map fun (offset, length) =>
      { start := ⟨.near b.place 0, offset⟩, length, owner := DirectBuffer.type, readOnly := false }
  | other type => .error (.notMemory type)
  | view v =>
    if v.contiguous = false then .error (.gaps v.type)
    else
      (checkBounds offset length (m.size v.place)).map fun (offset, length) =>
        { start := ⟨.managed v.place, offset⟩, length, owner := v.type, readOnly := v.readOnly }

/-- The range of a whole object. -/
def source? (m : Memory) : Argument → Except Error Range
  | range r => .ok r
  | a => a.range? m 0 none

/-- The range of a whole object that is to be written. -/
def destination? (m : Memory) (a : Argument) : Except Error Range :=
  (a.source? m).bind Range.writable?

def flatView? : Argument → Except Error View
  | view v => if v.contiguous then .ok v else .error .notFlat
  | _ => .error .notFlat

def flat? (m : Memory) (a : Argument) : Except Error Bytes :=
  a.flatView?.map fun v => (m.get v.place).bytes

end Argument

end NativeCodec
