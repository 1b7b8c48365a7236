import NativeCodec.Codec.Lz4
import NativeCodec.Codec.Snappy
import NativeCodec.Codec.Zstd

/-!
One face for all codecs.

A `Facade` is a compressor or a decompressor of some algorithm, and offers the same operations
whatever the algorithm. Only some decompressors know the length of what they will give, and only
those can say whether their input is well formed.
-/

set_option autoImplicit false
set_option relaxedAutoImplicit false

namespace NativeCodec.Codec

open Native

variable {σ : Type}

inductive Role
  | compressor
  | decompressor
  deriving DecidableEq, Repr

inductive OptionValue
  | absent
  | number (n : Int)
  | flag (b : Bool)
  | other (truth : Bool)
  deriving DecidableEq, Repr

def OptionValue.truth : OptionValue → Bool
  | absent => false
  | number n => n != 0
  | flag b => b
  | other truth => truth

def OptionValue.number? : OptionValue → Option Int
  | number n => some n
  | flag b => some b.toNat
  | _ => none

/-- A compressor or a decompressor. -/
inductive Facade
  | lz4Compressor (c : Lz4.Compressor)
  | lz4Decompressor
  | snappyCompressor (c : Snappy.Coder)
  | snappyDecompressor (c : Snappy.Coder)
  | zstdCompressor (c : Zstd.Compressor)
  | zstdDecompressor (d : Zstd.Decompressor)
  deriving DecidableEq, Repr

namespace Facade

def options : Algorithm → Role → List String
  | .lz4, .compressor => ["acceleration"]
  | .zstd, .compressor => ["level", "reuse_context"]
  | .zstd, .decompressor => ["reuse_context"]
  | _, _ => []

def accelerationOf (given : List (String × OptionValue)) : Except Error Int :=
  match given.lookup "acceleration" with
  | none => .ok Lz4.usualAcceleration
  | some v =>
    match v.number? with
    | some n => .ok n
    | none => .error .wrongArgument

def levelOf (given : List (String × OptionValue)) : Except Error (Option Int) :=
  match given.lookup "level" with
  | none => .ok none
  | some .absent => .ok none
  | some v =>
    match v.number? with
    | some n => .ok (some n)
    | none => .error .wrongArgument

/-- Whether some options ask for a context of the codec's own. -/
def ownOf (given : List (String × OptionValue)) : Bool :=
  match given.lookup "reuse_context" with
  | none => true
  | some v => v.truth

/-- Makes a codec with options that it knows. -/
def create (L : Libraries σ) (a : Algorithm) (role : Role) (given : List (String × OptionValue)) :
    Op σ Facade := do
  if given.any fun (name, _) => !(options a role).contains name then throw .wrongArgument
  match a, role with
  | .lz4, .compressor => lz4Compressor <$> Lz4.create L (← Op.ofExcept (accelerationOf given))
  | .lz4, .decompressor => do
    let _ ← Lz4.create L Lz4.usualAcceleration
    return lz4Decompressor
  | .snappy, .compressor => snappyCompressor <$> Snappy.create L
  | .snappy, .decompressor => snappyDecompressor <$> Snappy.create L
  | .zstd, .compressor => do
    let _ ← Op.bind L .zstd
    let level ← Op.ofExcept (levelOf given)
    zstdCompressor <$> Zstd.Compressor.create L level (ownOf given)
  | .zstd, .decompressor => zstdDecompressor <$> Zstd.Decompressor.create L (ownOf given)

def name : Facade → String
  | lz4Compressor _ => "Lz4Compressor"
  | lz4Decompressor => "Lz4Decompressor"
  | snappyCompressor _ => "SnappyCompressor"
  | snappyDecompressor _ => "SnappyDecompressor"
  | zstdCompressor _ => "ZstdCompressor"
  | zstdDecompressor _ => "ZstdDecompressor"

def algorithm : Facade → Algorithm
  | lz4Compressor _ | lz4Decompressor => .lz4
  | snappyCompressor _ | snappyDecompressor _ => .snappy
  | zstdCompressor _ | zstdDecompressor _ => .zstd

/-- Whether a decompressor knows lengths and can validate. -/
def probes : Facade → Option Bool
  | lz4Decompressor => some false
  | snappyDecompressor _ | zstdDecompressor _ => some true
  | _ => none

def level : Facade → Option Int
  | zstdCompressor c => some c.level
  | _ => none

def acceleration : Facade → Option Int
  | lz4Compressor c => some c.acceleration
  | _ => none

def checkSize (size : Int) : Except Error Int :=
  if size < 0 then .error (.negativeInput size) else .ok size

/-- The largest compressed size of an input of the given size. -/
def bound (L : Libraries σ) (f : Facade) (size : Int) : Op σ Int := do
  let size ← Op.ofExcept (checkSize size)
  match f.algorithm with
  | .lz4 => Lz4.bound L size
  | .snappy => Snappy.bound L size
  | .zstd => return (← Zstd.bound L size : Nat)

/-- Compresses an object into another, and gives the number of bytes written. -/
def compress (L : Libraries σ) (f : Facade) (input output : Argument) : Op σ Int :=
  match f with
  | lz4Compressor c => Lz4.compress L c input output
  | snappyCompressor c => (fun n : Nat => (n : Int)) <$> Snappy.compress L c input output
  | zstdCompressor c => (fun n : Nat => (n : Int)) <$> c.compress L input output
  | _ => throw .wrongArgument

/-- Decompresses an object into another, and gives the number of bytes written. -/
def decompress (L : Libraries σ) (f : Facade) (input output : Argument) : Op σ Int :=
  match f with
  | lz4Decompressor => Lz4.decompress L input output
  | snappyDecompressor c => (fun n : Nat => (n : Int)) <$> Snappy.decompress L c input output
  | zstdDecompressor d => (fun n : Nat => (n : Int)) <$> d.decompress L input output
  | _ => throw .wrongArgument

def length (L : Libraries σ) (f : Facade) (input : Argument) : Op σ (Option Nat) :=
  match f with
  | snappyDecompressor c => some <$> Snappy.decompressedLength L c input
  | zstdDecompressor _ => Zstd.decompressedLength L input
  | _ => throw (.noProbe f.name)

def validate (L : Libraries σ) (f : Facade) (input : Argument) : Op σ Bool :=
  match f with
  | snappyDecompressor _ => Snappy.validate L input
  | zstdDecompressor _ => Zstd.validate L input
  | _ => throw (.noValidation f.name)

def close (L : Libraries σ) (f : Facade) : Op σ Facade :=
  match f with
  | zstdCompressor c => zstdCompressor <$> c.close L
  | zstdDecompressor d => zstdDecompressor <$> d.close L
  | f => pure f

/-- Whether a codec has freed what it owned. -/
def closed : Facade → Bool
  | zstdCompressor c => Zstd.isClosed c.context
  | zstdDecompressor d => Zstd.isClosed d.context
  | _ => false

/-- Compresses an object and decompresses the result: the number of bytes that came back, and
whether they are those of the object. -/
def pipe (L : Libraries σ) (compressor decompressor : Facade) (input : Argument) :
    Op σ (Int × Bool) := do
  let src ← Op.input input
  let length ← Op.ofExcept src.count?
  let middle ← Op.scratch (← compressor.bound L length)
  let n ← compressor.compress L (.range src) (.range middle)
  let back ← Op.scratch length
  let part ← Op.ofExcept (middle.slice? 0 (some n))
  let m ← decompressor.decompress L (.range part) (.range back)
  return (m, (← Op.firstBytes back m.toNat) == (← Op.bytes src))

end Facade

/-- Whether the library of an algorithm loads and has every symbol. -/
def isAvailable (L : Libraries σ) (a : Algorithm) : Op σ Bool :=
  tryCatch (do
    let _ ← Op.bind L a
    return true)
  fun e =>
    if e.kind = .libraryLoad ∨ e.kind = .symbolResolution then return false else throw e

end NativeCodec.Codec
