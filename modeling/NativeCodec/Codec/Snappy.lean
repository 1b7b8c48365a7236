import NativeCodec.Native.Access

set_option autoImplicit false
set_option relaxedAutoImplicit false

namespace NativeCodec.Codec.Snappy

open Native

variable {σ : Type}

/-- The status of a call that did what was asked. -/
def done : Int := 0

/-- The status of a stream that cannot be read. -/
def invalidInput : Int := 1

/-- The status of a destination that is too small. -/
def tooSmall : Int := 2

structure Coder where
  cell : Nat
  deriving DecidableEq, Repr

def create (L : Libraries σ) : Op σ Coder := do
  let _ ← Op.bind L .snappy
  return ⟨← Op.newCell⟩

/-- The largest compressed size of an input of the given length, as the library says. -/
def bound (L : Libraries σ) (length : Int) : Op σ Int := do
  let _ ← Op.bind L .snappy
  Op.call L (.snappyBound length) {}

/-- Takes over what a call left in the length cell. -/
def Coder.leave (c : Coder) (reply : Counted) : Op σ Unit :=
  match reply.cell with
  | none => pure ()
  | some n => Op.setCell c.cell n

def compressRange (L : Libraries σ) (c : Coder) (src dst : Range) : Op σ Nat := do
  let source ← Op.source src
  Op.setCell c.cell dst.length
  let reply ← Op.call L (.snappyCompress source dst.length (← Op.cell c.cell))
    ⟨some src.start, some dst.start⟩
  Op.store dst dst.length reply.bytes
  c.leave reply
  if reply.status = tooSmall then
    let required ← bound L src.length
    throw (.requiredRoom dst.length required src.length)
  if reply.status ≠ done then throw (.failedWith "compression" reply.status)
  Op.cell c.cell

def decompressRange (L : Libraries σ) (c : Coder) (src dst : Range) : Op σ Nat := do
  let source ← Op.source src
  Op.setCell c.cell dst.length
  let reply ← Op.call L (.snappyDecompress source dst.length (← Op.cell c.cell))
    ⟨some src.start, some dst.start⟩
  Op.store dst dst.length reply.bytes
  c.leave reply
  if reply.status = invalidInput then throw .malformedStream
  if reply.status = tooSmall then throw (.room dst.length)
  if reply.status ≠ done then throw (.failedWith "decompression" reply.status)
  Op.cell c.cell

def lengthOfRange (L : Libraries σ) (c : Coder) (src : Range) : Op σ Nat := do
  let source ← Op.source src
  Op.setCell c.cell 0
  let reply ← Op.call L (.snappyLength source (← Op.cell c.cell)) ⟨some src.start, none⟩
  c.leave reply
  if reply.status = invalidInput then throw .malformedStream
  if reply.status ≠ done then throw (.failedWith "decompressed length calculation" reply.status)
  Op.cell c.cell

def validateRange (L : Libraries σ) (src : Range) : Op σ Bool := do
  let source ← Op.source src
  let status : Int ← Op.call L (.snappyValidate source) ⟨some src.start, none⟩
  return status == done

def compress (L : Libraries σ) (c : Coder) (input output : Argument) : Op σ Nat := do
  let src ← Op.input input
  let dst ← Op.output output
  compressRange L c src dst

def decompress (L : Libraries σ) (c : Coder) (input output : Argument) : Op σ Nat := do
  let src ← Op.input input
  let dst ← Op.output output
  decompressRange L c src dst

def decompressedLength (L : Libraries σ) (c : Coder) (input : Argument) : Op σ Nat := do
  lengthOfRange L c (← Op.input input)

/-- Whether an object holds a well-formed stream. -/
def validate (L : Libraries σ) (input : Argument) : Op σ Bool := do
  validateRange L (← Op.input input)

/-- The size of a destination that any compression of an object fits. -/
def rawBound (L : Libraries σ) (input : Argument) : Op σ Int := do
  let src ← Op.input input
  bound L (← Op.ofExcept src.count?)

def compressRaw (L : Libraries σ) (input : Argument) : Op σ Bytes := do
  let src ← Op.input input
  let most ← bound L (← Op.ofExcept src.count?)
  let dst ← Op.scratch most
  let c ← create L
  let n ← compressRange L c src dst
  Op.firstBytes dst n

/-- Decompresses an object into a destination of the length that the stream says. -/
def decompressRaw (L : Libraries σ) (input : Argument) : Op σ Bytes := do
  let src ← Op.input input
  let c ← create L
  let dst ← Op.scratch (← lengthOfRange L c src)
  let n ← decompressRange L c src dst
  Op.firstBytes dst n

end NativeCodec.Codec.Snappy
