import NativeCodec.Context
import NativeCodec.Native.Access
import NativeCodec.Zstd.Frame

/-!
zstd frames through the native library.

Calls work in a native context. A compressor or decompressor either owns one, which lives until it
is closed, or has one created and freed around every call. Result words of the library are errors
or sizes; `failure` says what error each error word is.
-/

set_option autoImplicit false
set_option relaxedAutoImplicit false

namespace NativeCodec.Codec.Zstd

open Native NativeCodec.Zstd

variable {σ : Type}

/-- The level that is used if none is given. -/
def usualLevel : Int := 3

/-- The codes of errors that say something about the input. -/
def inputCodes : List Nat := [10, 12, 14, 16, 20, 22, 24, 72]

/-- The code of a destination that is too small. -/
def roomCode : Nat := 70

/-- The error that a result word is when an operation ends with it. -/
def failure (operation : String) (code : Nat) (name : String) (decoding : Bool) : Error :=
  if code = roomCode then .frameRoom operation name
  else if decoding ∧ code ∈ inputCodes then .malformedFrame operation name
  else .failedFrame operation code name

def fail {α : Type} (L : Libraries σ) (operation : String) (word : Nat) (decoding : Bool) :
    Op σ α := do
  let code := errorCode word
  let name := L.errorName code
  Op.note .debug s!"zstd {operation} failed: {name} ({code})"
  throw (failure operation code name decoding)

def sized (L : Libraries σ) (operation : String) (word : Nat) (decoding : Bool) : Op σ Nat := do
  if isError word then fail L operation word decoding
  return word

/-- The largest compressed size of an input of the given length, as the library says. -/
def bound (L : Libraries σ) (length : Int) : Op σ Nat := do
  let word ← Op.call L (.zstdBound length) {}
  sized L "compression bound" word false

def acquire (L : Libraries σ) (d : Direction) : Op σ Context := do
  let handle ← Op.call L (.createContext d) {}
  Op.ofExcept (Context.create d.contextName handle)

def free (L : Libraries σ) (d : Direction) (handle : Nat) : Op σ Unit :=
  Op.call L (.freeContext d handle) {}

def release (L : Libraries σ) (d : Direction) (c : Context) : Op σ Context := do
  match c.release with
  | (none, c) => return c
  | (some handle, c) =>
    free L d handle
    return c

/-- Does something with a context of its own, which is freed whatever becomes of that. -/
def withContext {α : Type} (L : Libraries σ) (d : Direction) (body : Nat → Op σ α) : Op σ α := do
  let c ← acquire L d
  Op.ensuring (body c.handle) (free L d c.handle)

def compressRange (L : Libraries σ) (context : Nat) (src dst : Range) (level : Int) :
    Op σ Nat := do
  let source ← Op.source src
  let reply ← Op.call L (.zstdCompress context dst.length source level)
    ⟨some src.start, some dst.start⟩
  Op.store dst dst.length reply.bytes
  sized L "compression" reply.result false

def decompressRange (L : Libraries σ) (context : Nat) (src dst : Range) : Op σ Nat := do
  let source ← Op.source src
  let reply ← Op.call L (.zstdDecompress context dst.length source)
    ⟨some src.start, some dst.start⟩
  Op.store dst dst.length reply.bytes
  sized L "decompression" reply.result true

/-- Adds up the content sizes of the frames from a position on, up to the end of the source; no
size at all if a frame does not record its own. -/
def probeFrom (L : Libraries σ) (source : Source) (start : Pointer) :
    Nat → Nat → Nat → Op σ (Option Nat)
  | 0, _, _ => throw .endless
  | patience + 1, position, total => do
    let rest := source.drop position
    let site : Site := ⟨some (start.advance position), none⟩
    let content : Nat ← Op.call L (.zstdContentSize rest) site
    if content = unknownSize then return none
    if content = invalidSize then throw .malformedHeader
    let word ← Op.call L (.zstdFrameSize rest) site
    let extent ← sized L "decompressed length calculation" word true
    let position := position + extent
    if source.length ≤ position then return some (total + content)
    probeFrom L source start patience position (total + content)

/-- The content size of all frames in a range, if every frame records its own. -/
def lengthOfRange (L : Libraries σ) (src : Range) : Op σ (Option Nat) := do
  let source ← Op.source src
  probeFrom L source src.start (source.length + L.patience) 0 0

/-- Decodes a source from a position on and forgets the output: whether decoding comes to the end
of a frame at the end of the source. -/
def drainFrom (L : Libraries σ) (context room : Nat) (source : Source) (site : Site) :
    Nat → Nat → Op σ Bool
  | 0, _ => throw .endless
  | patience + 1, consumed => do
    let reply : Advanced ← Op.call L (.zstdStream context room 0 source consumed) site
    if isError reply.word then
      if errorCode reply.word = allocationCode then fail L "validation" reply.word true
      return false
    if reply.word = 0 ∧ reply.consumed = source.length then return true
    if reply.consumed = consumed ∧ reply.written = 0 then return false
    drainFrom L context room source site patience reply.consumed

/-- Whether decoding a range takes all of it without an error. -/
def validateRange (L : Libraries σ) (src : Range) : Op σ Bool := do
  if src.length = 0 then return false
  let room : Nat ← Op.call L .zstdStreamRoom {}
  let _ ← Op.checkSize room
  withContext L .decompression fun context => do
    let source ← Op.source src
    if wordLimit ≤ source.length then throw .tooLarge
    drainFrom L context room source ⟨some src.start, none⟩ (source.length + L.patience) 0

structure Compressor where
  level : Int
  context : Option Context
  deriving DecidableEq, Repr

/-- A decompressor: the context that it owns, if it does. -/
structure Decompressor where
  context : Option Context
  deriving DecidableEq, Repr

def ownContext (L : Libraries σ) (d : Direction) (own : Bool) : Op σ (Option Context) := do
  if own then return some (← acquire L d)
  return none

def releaseOwn (L : Libraries σ) (d : Direction) : Option Context → Op σ (Option Context)
  | none => pure none
  | some c => some <$> release L d c

/-- Does something in the context that is owned, or else in one of its own. -/
def within {α : Type} (L : Libraries σ) (d : Direction) (context : Option Context)
    (body : Nat → Op σ α) : Op σ α :=
  match context with
  | none => withContext L d body
  | some c => do body (← Op.ofExcept c.use)

def isClosed : Option Context → Bool
  | none => false
  | some c => c.released

def Compressor.create (L : Libraries σ) (level : Option Int) (own : Bool) : Op σ Compressor := do
  let constants ← Op.bind L .zstd
  let level := level.getD usualLevel
  if level < constants.minLevel ∨ constants.maxLevel < level then
    throw (.level level constants.minLevel constants.maxLevel)
  return ⟨level, ← ownContext L .compression own⟩

def Decompressor.create (L : Libraries σ) (own : Bool) : Op σ Decompressor := do
  let _ ← Op.bind L .zstd
  return ⟨← ownContext L .decompression own⟩

def Compressor.close (L : Libraries σ) (c : Compressor) : Op σ Compressor := do
  return { c with context := ← releaseOwn L .compression c.context }

def Decompressor.close (L : Libraries σ) (d : Decompressor) : Op σ Decompressor := do
  return { d with context := ← releaseOwn L .decompression d.context }

def Compressor.compress (L : Libraries σ) (c : Compressor) (input output : Argument) :
    Op σ Nat := do
  let src ← Op.input input
  let dst ← Op.output output
  within L .compression c.context fun context => compressRange L context src dst c.level

/-- Decompresses an object into another. -/
def Decompressor.decompress (L : Libraries σ) (d : Decompressor) (input output : Argument) :
    Op σ Nat := do
  let src ← Op.input input
  let dst ← Op.output output
  within L .decompression d.context fun context => decompressRange L context src dst

/-- The content size of all frames in an object, if every frame records its own. -/
def decompressedLength (L : Libraries σ) (input : Argument) : Op σ (Option Nat) := do
  lengthOfRange L (← Op.input input)

/-- Whether decoding an object takes all of it without an error. -/
def validate (L : Libraries σ) (input : Argument) : Op σ Bool := do
  validateRange L (← Op.input input)

def withCompressor {α : Type} (L : Libraries σ) (level : Option Int)
    (body : Compressor → Op σ α) : Op σ α := do
  let c ← Compressor.create L level true
  Op.ensuring (body c) (discard (c.close L))

def withDecompressor {α : Type} (L : Libraries σ) (body : Decompressor → Op σ α) : Op σ α := do
  let d ← Decompressor.create L true
  Op.ensuring (body d) (discard (d.close L))

/-- The size of a destination that any compression of an object fits. -/
def boundOf (L : Libraries σ) (input : Argument) : Op σ Nat := do
  let _ ← Op.bind L .zstd
  let src ← Op.input input
  bound L (← Op.ofExcept src.count?)

/-- The content size of all frames in an object; the library is bound first. -/
def lengthOf (L : Libraries σ) (input : Argument) : Op σ (Option Nat) := do
  let _ ← Op.bind L .zstd
  decompressedLength L input

def compressInto (L : Libraries σ) (input output : Argument) (level : Option Int) : Op σ Nat :=
  withCompressor L level fun c => c.compress L input output

/-- Decompresses an object into another with a decompressor made for it. -/
def decompressInto (L : Libraries σ) (input output : Argument) : Op σ Nat :=
  withDecompressor L fun d => d.decompress L input output

/-- Compresses an object. -/
def compress (L : Libraries σ) (input : Argument) (level : Option Int) : Op σ Bytes := do
  let src ← Op.input input
  withCompressor L level fun c => do
    let dst ← Op.scratch (← bound L (← Op.ofExcept src.count?))
    let n ← c.compress L (.range src) (.range dst)
    Op.firstBytes dst n

/-- Decompresses an object into a destination of the given length, or else of the size that its
frames record. -/
def decompress (L : Libraries σ) (input : Argument) (length : Option Int) : Op σ Bytes := do
  let src ← Op.input input
  withDecompressor L fun d => do
    let length : Int ←
      match length with
      | some n => pure n
      | none =>
        match ← lengthOfRange L src with
        | some n => pure (n : Int)
        | none => throw .contentSizeUnknown
    let dst ← Op.scratch length
    let n ← d.decompress L (.range src) (.range dst)
    Op.firstBytes dst n

/-- Whether decoding an object takes all of it without an error, with a decompressor made for it. -/
def validateOnce (L : Libraries σ) (input : Argument) : Op σ Bool :=
  withDecompressor L fun _ => validate L input

end NativeCodec.Codec.Zstd
