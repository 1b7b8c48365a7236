import NativeCodec.Lz4.Length
import NativeCodec.Native.Access

/-!
LZ4 blocks through the native library.

A compressor has an acceleration and a working state; a decompressor has nothing of its own beside
the bindings. A block can be preceded by the size that it decompresses to, in four bytes.
-/

set_option autoImplicit false
set_option relaxedAutoImplicit false

namespace NativeCodec.Codec.Lz4

open Native NativeCodec.Lz4

variable {σ : Type}

/-- The largest number that the library takes. -/
def intMax : Nat := 0x7FFFFFFF

/-- The acceleration that is used if none is given. -/
def usualAcceleration : Int := 1

/-- An LZ4 compressor: its acceleration, and the words of its working state. -/
structure Compressor where
  acceleration : Int
  stateWords : Int
  deriving DecidableEq, Repr

def create (L : Libraries σ) (acceleration : Int) : Op σ Compressor := do
  if acceleration < 1 then throw (.acceleration acceleration)
  let constants ← Op.bind L .lz4
  return ⟨acceleration, Int.fdiv (constants.stateSize + 7) 8⟩

def checkInput (length : Int) : Except Error Unit :=
  if maxInputSize < length then .error (.inputTooLong length maxInputSize) else .ok ()

/-- The largest compressed size of an input of the given length, as the library says. -/
def bound (L : Libraries σ) (length : Int) : Op σ Int := do
  Op.ofExcept (checkInput length)
  let _ ← Op.bind L .lz4
  Op.call L (.lz4Bound length) {}

def compressRange (L : Libraries σ) (c : Compressor) (src dst : Range) : Op σ Int := do
  Op.ofExcept (checkInput src.length)
  let capacity := min dst.length intMax
  let source ← Op.source src
  let reply ← Op.call L (.lz4Compress c.stateWords source capacity c.acceleration)
    ⟨some src.start, some dst.start⟩
  Op.store dst capacity reply.bytes
  if 0 < reply.result then return reply.result
  let most ← bound L src.length
  if capacity < most then throw (.compressionRoom capacity src.length)
  throw (.failed "compression" reply.result)

def decodingError (capacity : Nat) (block : Bytes) (status : Int) : Error :=
  match blockLength? block with
  | none => .malformedBlock status
  | some expected =>
    if capacity < expected then .blockRoom capacity expected else .malformedBlock status

/-- Decompresses a block into a range, and gives the number of bytes written. A block that is
refused is looked at after the call, which may have written over a part of it. -/
def decompressRange (L : Libraries σ) (src dst : Range) : Op σ Int := do
  if intMax < src.length then throw (.blockTooLong src.length intMax)
  let capacity := min dst.length intMax
  let source ← Op.source src
  let reply ← Op.call L (.lz4Decompress source capacity) ⟨some src.start, some dst.start⟩
  Op.store dst capacity reply.bytes
  if 0 ≤ reply.result then return reply.result
  let block ← Op.bytes src
  Op.note .debug s!"LZ4_decompress_safe failed with {reply.result}"
  throw (decodingError capacity block reply.result)

def compress (L : Libraries σ) (c : Compressor) (input output : Argument) : Op σ Int := do
  let src ← Op.input input
  let dst ← Op.output output
  compressRange L c src dst

/-- Decompresses an object into another. -/
def decompress (L : Libraries σ) (input output : Argument) : Op σ Int := do
  let src ← Op.input input
  let dst ← Op.output output
  decompressRange L src dst

/-- The bytes of a stored size. -/
def sizeWidth : Nat := 4

def sizeHeader (size : Nat) : Except Error Bytes :=
  if size < 0x100000000 then .ok (Bytes.ofNat sizeWidth size) else .error .tooLarge

/-- The most bytes that a byte of a block can stand for. -/
def maxExpansion : Nat := 255

/-- The size of a destination that any compression of an object fits. -/
def blockBound (L : Libraries σ) (input : Argument) (sized : Bool) : Op σ Int := do
  let src ← Op.input input
  let n ← Op.ofExcept src.count?
  let most ← bound L n
  return most + (if sized then (sizeWidth : Int) else 0)

def compressBlockRange (L : Libraries σ) (src dst : Range) (acceleration : Option Int)
    (sized : Bool) : Op σ Int := do
  let c ← create L (acceleration.getD usualAcceleration)
  if sized = false then compressRange L c src dst
  else
    let room ← Op.ofExcept dst.count?
    if room < sizeWidth then throw (.room room)
    let body ← Op.ofExcept (dst.slice? sizeWidth none)
    let n ← compressRange L c src body
    Op.write dst.start (← Op.ofExcept (sizeHeader src.length))
    return n + sizeWidth

/-- Compresses an object into another, with the size in front if it is to be stored. -/
def compressBlockInto (L : Libraries σ) (input output : Argument) (acceleration : Option Int)
    (sized : Bool) : Op σ Int := do
  let src ← Op.input input
  let dst ← Op.output output
  compressBlockRange L src dst acceleration sized

/-- Compresses an object. -/
def compressBlock (L : Libraries σ) (input : Argument) (acceleration : Option Int)
    (sized : Bool) : Op σ Bytes := do
  let most ← blockBound L input sized
  let dst ← Op.scratch most
  let src ← Op.input input
  let n ← compressBlockRange L src dst acceleration sized
  Op.firstBytes dst n.toNat

/-- The size stored in front of a block, if a block of that length can stand for so much. -/
def storedSize (src : Range) : Op σ Nat := do
  let length ← Op.ofExcept src.count?
  if length < sizeWidth then throw .sizeMissing
  let header ← Op.ofExcept (src.slice? 0 (some sizeWidth))
  let size := Bytes.toNat (← Op.bytes header)
  if maxExpansion * (length - sizeWidth) + maxExpansion < size then
    throw (.sizeUnlikely size length)
  return size

/-- What an error means for a block with a stored size: there was room for that size, so a
destination that is too small refutes it. -/
def refute (size : Nat) (e : Error) : Error :=
  if e.kind = .bufferTooSmall then .sizeRefuted size e else e

def decompressSized (L : Libraries σ) (src dst : Range) : Op σ Int := do
  let size ← storedSize src
  let room ← Op.ofExcept dst.count?
  if room < size then throw (.storedRoom room size)
  let _ ← create L usualAcceleration
  let body ← Op.ofExcept (src.slice? sizeWidth none)
  let part ← Op.ofExcept (dst.slice? 0 (some size))
  let n ← tryCatch (decompressRange L body part) fun e => throw (refute size e)
  if n ≠ size then throw (.sizeWrong size n)
  return n

def decompressBlockRange (L : Libraries σ) (src dst : Range) (sized : Bool) : Op σ Int := do
  if sized then decompressSized L src dst
  else
    let _ ← create L usualAcceleration
    decompressRange L src dst

/-- Decompresses a block from one object into another. -/
def decompressBlockInto (L : Libraries σ) (input output : Argument) (sized : Bool) :
    Op σ Int := do
  let src ← Op.input input
  let dst ← Op.output output
  decompressBlockRange L src dst sized

/-- Decompresses a block whose decompressed length is given or else stored in front. -/
def decompressBlock (L : Libraries σ) (input : Argument) (length : Option Int) : Op σ Bytes := do
  let src ← Op.input input
  match length with
  | none =>
    let dst ← Op.scratch (← storedSize src)
    let n ← decompressBlockRange L src dst true
    Op.firstBytes dst n.toNat
  | some length =>
    let dst ← Op.scratch length
    let n ← decompressBlockRange L src dst false
    Op.firstBytes dst n.toNat

end NativeCodec.Codec.Lz4
