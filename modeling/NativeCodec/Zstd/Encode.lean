import NativeCodec.Period
import NativeCodec.Zstd.Sequences

set_option autoImplicit false
set_option relaxedAutoImplicit false

namespace NativeCodec.Zstd

/-- The largest compressed size of `n` bytes; sizes close to the end of the range have none. -/
def compressBound (n : Nat) : Option Nat :=
  if 0xFF00FF00FF00FF00 ≤ n then none
  else some (n + n / 256 + (if n < maxBlock then (maxBlock - n) / 2048 else 0))

/-- The smallest destination that the library compresses into. -/
def smallestDestination : Nat := 18

/-- The longest period that the encoder looks for. -/
def periodLimit : Nat := 512

/-- Inputs of at most this size are written as they are. -/
def plainLimit : Nat := 7

def encodeBlockHeader (last : Bool) (kind size : Nat) : Bytes :=
  Bytes.ofNat 3 (last.toNat + 2 * kind + 8 * size)

def encodeRawHeader (count : Nat) : Bytes :=
  if count < 32 then Bytes.ofNat 1 (count * 8)
  else if count < 4096 then Bytes.ofNat 2 (count * 16 + 4)
  else Bytes.ofNat 3 (count * 16 + 12)

/-- The last code whose base value is not above a value. -/
def codeOf (codes : Array (Nat × Nat)) (value : Nat) : Nat :=
  (codes.toList.filter (·.1 ≤ value)).length - 1

def extraBits (codes : Array (Nat × Nat)) (code value : Nat) : List Bool :=
  let (base, bits) := codes.getD code (0, 0)
  digitsDown bits (value - base)

/-- One sequence with tables of one state each: the count, the modes, three codes and the extra
bits. -/
def encodeSequence (s : Sequence) : Bytes :=
  let offset := Nat.log2 (s.offset + 3)
  let copy := codeOf matchCodes s.length
  let literal := codeOf literalCodes s.literals
  [1, 0x54, UInt8.ofNat literal, UInt8.ofNat offset, UInt8.ofNat copy] ++
    packBackward (digitsDown offset (s.offset + 3 - (1 <<< offset)) ++
      extraBits matchCodes copy s.length ++ extraBits literalCodes literal s.literals)

/-- One period of literals and the match that repeats it up to `length` bytes. -/
def encodePeriodic (period : Bytes) (length : Nat) : Bytes :=
  let count := period.length
  encodeRawHeader count ++ period ++ encodeSequence ⟨count, count, length - count⟩

def compressBlock? (bytes : Bytes) : Option Bytes :=
  (Period.shortest? periodLimit bytes).bind fun period =>
    let length := bytes.length
    if period + 3 ≤ length then some (encodePeriodic (bytes.take period) length) else none

def encodeBlock (last : Bool) (bytes : Bytes) : Bytes :=
  let length := bytes.length
  let plain := encodeBlockHeader last 0 length ++ bytes
  if length ≤ plainLimit then plain
  else
    match bytes with
    | [] => plain
    | b :: rest =>
      if rest.all (· == b) then encodeBlockHeader last 1 length ++ [b]
      else
        match compressBlock? bytes with
        | none => plain
        | some content =>
          let size := content.length
          if size < length then encodeBlockHeader last 2 size ++ content else plain

def encodeBlocks : Nat → Bytes → Bytes
  | 0, bytes => encodeBlock true bytes
  | fuel + 1, bytes =>
    if Bytes.holds (maxBlock + 1) bytes then
      let (now, later) := bytes.splitAt maxBlock
      encodeBlock false now ++ encodeBlocks fuel later
    else encodeBlock true bytes

/-- The descriptor and the fields of a header that records a size. A content of one block makes a
frame of one segment; a longer one has a window of one block. -/
def encodeFields (size : Nat) : Bytes :=
  if size < 256 then [0x20, UInt8.ofNat size]
  else if size < 65536 + 256 then 0x60 :: Bytes.ofNat 2 (size - 256)
  else if size ≤ maxBlock then 0xA0 :: Bytes.ofNat 4 size
  else if size < 0x100000000 then 0x80 :: 0x38 :: Bytes.ofNat 4 size
  else 0xC0 :: 0x38 :: Bytes.ofNat 8 size

def encode (bytes : Bytes) : Bytes :=
  let length := bytes.length
  Bytes.ofNat 4 frameMagic ++ encodeFields length ++ encodeBlocks (length / maxBlock) bytes

/-- Compresses into a destination of `capacity` bytes, if the frame fits there. -/
def compress? (capacity : Nat) (bytes : Bytes) : Option Bytes :=
  if capacity < smallestDestination then none
  else
    let frame := encode bytes
    if frame.length ≤ capacity then some frame else none

end NativeCodec.Zstd
