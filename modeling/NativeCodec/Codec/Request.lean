import NativeCodec.Codec.Facade

set_option autoImplicit false
set_option relaxedAutoImplicit false

namespace NativeCodec.Codec

open Native

variable {σ : Type}

/-- An operation from one object into another: of a codec, or of an algorithm with a codec made for
it. -/
inductive Transfer
  | compress (f : Facade)
  | decompress (f : Facade)
  | lz4Compress (acceleration : Option Int) (sized : Bool)
  | lz4Decompress (sized : Bool)
  | snappyCompress
  | snappyDecompress
  | zstdCompress (level : Option Int)
  | zstdDecompress
  deriving DecidableEq, Repr

/-- Carries out a transfer. -/
def Transfer.op (L : Libraries σ) (t : Transfer) (input output : Argument) : Op σ Int :=
  match t with
  | .compress f => f.compress L input output
  | .decompress f => f.decompress L input output
  | .lz4Compress acceleration sized => Lz4.compressBlockInto L input output acceleration sized
  | .lz4Decompress sized => Lz4.decompressBlockInto L input output sized
  | .snappyCompress => do
    let c ← Snappy.create L
    (fun n : Nat => (n : Int)) <$> Snappy.compress L c input output
  | .snappyDecompress => do
    let c ← Snappy.create L
    (fun n : Nat => (n : Int)) <$> Snappy.decompress L c input output
  | .zstdCompress level =>
    (fun n : Nat => (n : Int)) <$> Zstd.compressInto L input output level
  | .zstdDecompress => (fun n : Nat => (n : Int)) <$> Zstd.decompressInto L input output

/-- An operation that looks at one object: of a codec, or of an algorithm with a codec made for
it. -/
inductive Query
  | length (f : Facade)
  | validate (f : Facade)
  | lz4Bound (sized : Bool)
  | lz4Compress (acceleration : Option Int) (sized : Bool)
  | lz4Decompress (size : Option Int)
  | snappyBound
  | snappyLength
  | snappyValidate
  | snappyCompress
  | snappyDecompress
  | zstdBound
  | zstdLength
  | zstdValidate
  | zstdCompress (level : Option Int)
  | zstdDecompress (size : Option Int)
  deriving DecidableEq, Repr

/-- What a query comes to. -/
inductive Answer
  | number (n : Int)
  | extent (n : Option Nat)
  | truth (b : Bool)
  | bytes (b : Bytes)
  deriving DecidableEq, Repr

/-- Carries out a query. -/
def Query.op (L : Libraries σ) (q : Query) (input : Argument) : Op σ Answer :=
  match q with
  | .length f => .extent <$> f.length L input
  | .validate f => .truth <$> f.validate L input
  | .lz4Bound sized => .number <$> Lz4.blockBound L input sized
  | .lz4Compress acceleration sized => .bytes <$> Lz4.compressBlock L input acceleration sized
  | .lz4Decompress size => .bytes <$> Lz4.decompressBlock L input size
  | .snappyBound => .number <$> Snappy.rawBound L input
  | .snappyLength => do
    let c ← Snappy.create L
    (fun n : Nat => .extent (some n)) <$> Snappy.decompressedLength L c input
  | .snappyValidate => do
    let _ ← Snappy.create L
    .truth <$> Snappy.validate L input
  | .snappyCompress => .bytes <$> Snappy.compressRaw L input
  | .snappyDecompress => .bytes <$> Snappy.decompressRaw L input
  | .zstdBound => (fun n : Nat => .number n) <$> Zstd.boundOf L input
  | .zstdLength => .extent <$> Zstd.lengthOf L input
  | .zstdValidate => .truth <$> Zstd.validateOnce L input
  | .zstdCompress level => .bytes <$> Zstd.compress L input level
  | .zstdDecompress size => .bytes <$> Zstd.decompress L input size

end NativeCodec.Codec
