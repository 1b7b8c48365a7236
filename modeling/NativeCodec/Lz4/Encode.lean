import NativeCodec.Lz4.Block
import NativeCodec.Period

set_option autoImplicit false
set_option relaxedAutoImplicit false

namespace NativeCodec.Lz4

/-- The longest period that the encoder looks for. -/
def periodLimit : Nat := 512

/-- The bytes that end a block as literals after a match. -/
def tailLength : Nat := 5

/-- The bytes from the start of the last match to the end of the block. -/
def lastMatchMargin : Nat := 12

def periodicBlock (period : Nat) (bytes : Bytes) : Block :=
  let length := bytes.length
  { sequences := [⟨bytes.take period, period, length - period - tailLength⟩]
    tail := bytes.drop (length - tailLength) }

def Block.ofBytes (bytes : Bytes) : Block :=
  if bytes.length < lastMatchMargin + 1 then { sequences := [], tail := bytes }
  else
    match Period.shortest? periodLimit bytes with
    | none => { sequences := [], tail := bytes }
    | some period =>
      if period + lastMatchMargin ≤ bytes.length then periodicBlock period bytes
      else { sequences := [], tail := bytes }

/-- Compresses into a destination of `capacity` bytes, if the block fits there. -/
def compress? (capacity : Nat) (bytes : Bytes) : Option Bytes :=
  let block := (Block.ofBytes bytes).encode
  if block.length ≤ capacity then some block else none

end NativeCodec.Lz4
