import NativeCodec.Memory.Argument
import NativeCodec.Native.World

set_option autoImplicit false
set_option relaxedAutoImplicit false

namespace NativeCodec.Native.Op

variable {σ : Type}

def input (a : Argument) : Op σ Range := do ofExcept (a.source? (← memory))

def output (a : Argument) : Op σ Range := do ofExcept (a.destination? (← memory))

def source (r : Range) : Op σ Source := do
  return ⟨r.length, (← memory).read? r.start r.length⟩

def bytes (r : Range) : Op σ Bytes := do return (← source r).content

def store (r : Range) (capacity : Nat) (written : Bytes) : Op σ Unit :=
  write r.start (written.take capacity)

def scratch (size : Int) : Op σ Range := do
  let place ← allocate size
  return ⟨⟨.managed place, 0⟩, size.toNat, "scratch", false⟩

def firstBytes (r : Range) (count : Nat) : Op σ Bytes := do
  return ((← memory).read? r.start (min count r.length)).getD []

end NativeCodec.Native.Op
