import NativeCodec.Native.World
import NativeCodec.Zstd.Status

set_option autoImplicit false
set_option relaxedAutoImplicit false

namespace NativeCodec.Native

/-- A prepared reply: the result, or the code of an error word in its place; the bytes to write,
the length to put into a length cell, whether no context is created, and how far a stream decoder
moves its two positions. -/
structure Reply where
  result : Option Int := none
  code : Option Nat := none
  bytes : Bytes := []
  cell : Option Nat := none
  null : Bool := false
  consumed : Nat := 0
  written : Nat := 0
  deriving DecidableEq, Repr

structure Script where
  loadError : Option String := none
  missing : List String := []
  replies : List (String × List Reply) := []
  constants : Constants := {}
  deriving DecidableEq, Repr

/-- Described libraries in use: the replies that each symbol has left, and the contexts created. -/
structure Scripted where
  left : List (String × List Reply)
  created : Nat := 0
  deriving DecidableEq, Repr

def symbols : Algorithm → List String
  | .lz4 =>
    ["LZ4_sizeofState", "LZ4_versionString", "LZ4_compressBound", "LZ4_compress_fast_extState",
      "LZ4_decompress_safe"]
  | .snappy =>
    ["snappy_max_compressed_length", "snappy_compress", "snappy_uncompress",
      "snappy_uncompressed_length", "snappy_validate_compressed_buffer"]
  | .zstd =>
    ["ZSTD_minCLevel", "ZSTD_maxCLevel", "ZSTD_versionString", "ZSTD_compressBound",
      "ZSTD_createCCtx", "ZSTD_freeCCtx", "ZSTD_compressCCtx", "ZSTD_createDCtx", "ZSTD_freeDCtx",
      "ZSTD_decompressDCtx", "ZSTD_decompressStream", "ZSTD_DStreamOutSize",
      "ZSTD_getFrameContentSize", "ZSTD_findFrameCompressedSize", "ZSTD_isError",
      "ZSTD_getErrorName", "ZSTD_getErrorCode"]

def Call.symbol : Call → String
  | .lz4Bound _ => "LZ4_compressBound"
  | .lz4Compress .. => "LZ4_compress_fast_extState"
  | .lz4Decompress .. => "LZ4_decompress_safe"
  | .snappyBound _ => "snappy_max_compressed_length"
  | .snappyCompress .. => "snappy_compress"
  | .snappyDecompress .. => "snappy_uncompress"
  | .snappyLength .. => "snappy_uncompressed_length"
  | .snappyValidate _ => "snappy_validate_compressed_buffer"
  | .zstdBound _ => "ZSTD_compressBound"
  | .createContext .compression => "ZSTD_createCCtx"
  | .createContext .decompression => "ZSTD_createDCtx"
  | .freeContext .compression _ => "ZSTD_freeCCtx"
  | .freeContext .decompression _ => "ZSTD_freeDCtx"
  | .zstdCompress .. => "ZSTD_compressCCtx"
  | .zstdDecompress .. => "ZSTD_decompressDCtx"
  | .zstdStream .. => "ZSTD_decompressStream"
  | .zstdStreamRoom => "ZSTD_DStreamOutSize"
  | .zstdContentSize _ => "ZSTD_getFrameContentSize"
  | .zstdFrameSize _ => "ZSTD_findFrameCompressedSize"

def Reply.resultOr (r : Reply) (usual : Int) : Int :=
  match r.code with
  | some code => (Zstd.errorWord code : Int)
  | none => r.result.getD usual

def Reply.wordOr (r : Reply) (usual : Nat) : Nat := (r.resultOr usual).toNat

def Reply.counted (r : Reply) : Counted :=
  { status := r.resultOr 0, bytes := r.bytes, cell := r.cell }

/-- What a reply means as the answer to a call, and how many contexts there are then. -/
def Reply.answer (r : Reply) (created : Nat) : (c : Call) → c.Reply × Nat
  | .lz4Bound n => (r.resultOr (n + Int.fdiv n 255 + 16), created)
  | .lz4Compress .. => ({ result := r.resultOr 0, bytes := r.bytes }, created)
  | .lz4Decompress .. => ({ result := r.resultOr 0, bytes := r.bytes }, created)
  | .snappyBound n => (r.resultOr (32 + n + Int.fdiv n 6), created)
  | .snappyCompress .. => (r.counted, created)
  | .snappyDecompress .. => (r.counted, created)
  | .snappyLength .. => (r.counted, created)
  | .snappyValidate _ => (r.resultOr 0, created)
  | .zstdBound n => (r.wordOr (n + Int.fdiv n 256 + 64).toNat, created)
  | .createContext _ => if r.null then (none, created) else (some (created + 1), created + 1)
  | .freeContext .. => ((), created)
  | .zstdCompress .. => ({ result := r.wordOr 0, bytes := r.bytes }, created)
  | .zstdDecompress .. => ({ result := r.wordOr 0, bytes := r.bytes }, created)
  | .zstdStream _ _ written _ consumed =>
    (⟨r.wordOr 0, written + r.written, consumed + r.consumed⟩, created)
  | .zstdStreamRoom => (r.wordOr 16, created)
  | .zstdContentSize _ => (r.wordOr 0, created)
  | .zstdFrameSize source => (r.wordOr source.length, created)

def nextReply (symbol : String) : List (String × List Reply) →
    Reply × List (String × List Reply)
  | [] => ({}, [])
  | (name, replies) :: rest =>
    if name = symbol then
      match replies with
      | [] => ({}, (name, replies) :: rest)
      | [r] => (r, (name, replies) :: rest)
      | r :: later => (r, (name, later) :: rest)
    else
      let (r, rest) := nextReply symbol rest
      (r, (name, replies) :: rest)

def Script.path (a : Algorithm) : String := s!"scripted/{a.name}"

/-- What comes of binding a described library: its symbols are looked up in order. -/
def Script.bind (s : Script) (a : Algorithm) : Binding :=
  match s.loadError with
  | some text => { found := [], outcome := .error (.made .libraryLoad text none none) }
  | none =>
    let found := (symbols a).takeWhile fun symbol => symbol ∉ s.missing
    match (symbols a).drop found.length with
    | [] => { found, outcome := .ok s.constants }
    | symbol :: _ => { found, outcome := .error (.unresolved symbol a.name (Script.path a)) }

def Scripted.start (scripts : Algorithm → Script) : Scripted :=
  { left := Algorithm.all.flatMap fun a => (scripts a).replies }

def scripted (scripts : Algorithm → Script) : Libraries Scripted where
  bind a s := ((scripts a).bind a, s)
  answer c s :=
    let (reply, left) := nextReply c.symbol s.left
    let (answer, created) := reply.answer s.created c
    (.ok answer, { left, created })
  errorName code := s!"E{code}"
  word n := .ok n.toNat
  patience := manyCalls

end NativeCodec.Native
