import NativeCodec.Algorithm
import NativeCodec.Bytes

/-!
Calls of native functions.

A `Call` names a function of a native library and holds its arguments in their order, with the
content of the memory that the function reads in place of a pointer. `Call.Reply` is the type of
its answer: a result, and what the function wrote.
-/

set_option autoImplicit false
set_option relaxedAutoImplicit false

namespace NativeCodec.Native

inductive Direction
  | compression
  | decompression
  deriving DecidableEq, Repr

/-- What contexts of a kind are called. -/
def Direction.contextName : Direction → String
  | .compression => "compression context"
  | .decompression => "decompression context"

/-- Memory that a function reads: how long it is, and its content where that can be looked at. -/
structure Source where
  length : Nat
  bytes : Option Bytes
  deriving DecidableEq, Repr

def Source.content (s : Source) : Bytes := s.bytes.getD []

def Source.drop (s : Source) (position : Nat) : Source :=
  ⟨s.length - position, s.bytes.map (List.drop position)⟩

/-- A call of a native function. -/
inductive Call
  | lz4Bound (size : Int)
  | lz4Compress (stateWords : Int) (source : Source) (capacity : Nat) (acceleration : Int)
  | lz4Decompress (source : Source) (capacity : Nat)
  | snappyBound (size : Int)
  | snappyCompress (source : Source) (capacity cell : Nat)
  | snappyDecompress (source : Source) (capacity cell : Nat)
  | snappyLength (source : Source) (cell : Nat)
  | snappyValidate (source : Source)
  | zstdBound (size : Int)
  | createContext (direction : Direction)
  | freeContext (direction : Direction) (handle : Nat)
  | zstdCompress (context capacity : Nat) (source : Source) (level : Int)
  | zstdDecompress (context capacity : Nat) (source : Source)
  | zstdStream (context room written : Nat) (source : Source) (consumed : Nat)
  | zstdStreamRoom
  | zstdContentSize (source : Source)
  | zstdFrameSize (source : Source)
  deriving DecidableEq, Repr

/-- A result, and the bytes that were written to the destination. -/
structure Written (ρ : Type) where
  result : ρ
  bytes : Bytes := []

/-- A status, the bytes that were written, and what was put into the length cell. -/
structure Counted where
  status : Int
  bytes : Bytes := []
  cell : Option Nat := none

/-- A result word, and the two positions after a call of a stream decoder. -/
structure Advanced where
  word : Nat
  written : Nat
  consumed : Nat

/-- The type of the answer to a call. -/
def Call.Reply : Call → Type
  | lz4Bound _ => Int
  | lz4Compress .. => Written Int
  | lz4Decompress .. => Written Int
  | snappyBound _ => Int
  | snappyCompress .. => Counted
  | snappyDecompress .. => Counted
  | snappyLength .. => Counted
  | snappyValidate _ => Int
  | zstdBound _ => Nat
  | createContext _ => Option Nat
  | freeContext .. => Unit
  | zstdCompress .. => Written Nat
  | zstdDecompress .. => Written Nat
  | zstdStream .. => Advanced
  | zstdStreamRoom => Nat
  | zstdContentSize _ => Nat
  | zstdFrameSize _ => Nat

end NativeCodec.Native
