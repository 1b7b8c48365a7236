import NativeCodec.Zstd.Huffman
import NativeCodec.Zstd.Frame

set_option autoImplicit false
set_option relaxedAutoImplicit false

namespace NativeCodec.Zstd

/-- The fewest literals that are split into four bit strings. -/
def fourStreamLimit : Nat := 6

/-- The smallest compressed block. -/
def smallestBlock : Nat := 2

abbrev LiteralResult := Except Fault (Bytes × Option Huffman.Tree × Bytes)

/-- Plain or repeated literals: the number of header bytes and of literals, by the size format. -/
def plainSize (header format : Nat) : Nat × Nat :=
  if format = 1 then (2, header % 0x10000 / 16)
  else if format = 3 then (3, header % 0x1000000 / 16)
  else (1, header % 0x100 / 8)

def readRaw (code : Option Huffman.Tree) (room header format : Nat) (src : Bytes) :
    LiteralResult :=
  let (width, count) := plainSize header format
  if Bytes.holds width src = false then .error .corrupted
  else if min maxBlock room < count then .error .destinationTooSmall
  else
    match Bytes.split? count (src.drop width) with
    | none => .error .corrupted
    | some (literals, rest) => .ok (literals, code, rest)

def readRepeated (code : Option Huffman.Tree) (room header format : Nat) (src : Bytes) :
    LiteralResult :=
  let (width, count) := plainSize header format
  match src.drop width with
  | [] => .error .corrupted
  | b :: rest =>
    if maxBlock < count then .error .corrupted
    else if min maxBlock room < count then .error .destinationTooSmall
    else .ok (List.replicate count b, code, rest)

/-- Coded literals: the number of header bytes, of literals and of bytes they take. -/
def codedSize (header format : Nat) : Nat × Nat × Nat :=
  if format = 3 then (5, header / 16 % 0x40000, header / 0x400000 % 0x40000)
  else if format = 2 then (4, header / 16 % 0x4000, header / 0x40000 % 0x4000)
  else (3, header / 16 % 0x400, header / 0x4000 % 0x400)

/-- Literals of a known code, in one bit string or in four. -/
def decodeLiterals (code : Huffman.Tree) (format count : Nat) (bytes : Bytes) : Option Bytes :=
  (if format = 0 then code.stream count [] bytes else code.fourStreams count bytes).map
    List.reverse

def readCoded (code : Option Huffman.Tree) (fresh : Bool) (room header format : Nat)
    (src : Bytes) : LiteralResult :=
  if fresh = false ∧ code = none then .error .dictionaryCorrupted
  else if Bytes.holds 5 src = false then .error .corrupted
  else
    let (width, count, size) := codedSize header format
    if maxBlock < count then .error .corrupted
    else if format ≠ 0 ∧ count < fourStreamLimit then .error .literalsHeader
    else
      match Bytes.split? size (src.drop width) with
      | none => .error .corrupted
      | some (coded, rest) =>
        if min maxBlock room < count then .error .destinationTooSmall
        else
          let described :=
            if fresh then Huffman.Tree.read? coded else code.map fun t => (t, coded)
          match described with
          | none => .error .corrupted
          | some (t, coded) =>
            match decodeLiterals t format count coded with
            | none => .error .corrupted
            | some literals => .ok (literals, some t, rest)

/-- The literals at the front of a compressed block with `room` bytes left in the destination. -/
def readLiterals (code : Option Huffman.Tree) (room : Nat) (src : Bytes) : LiteralResult :=
  if Bytes.holds smallestBlock src = false then .error .corrupted
  else
    let header := Bytes.toNat (src.take 5)
    let format := header / 4 % 4
    match header % 4 with
    | 0 => readRaw code room header format src
    | 1 => readRepeated code room header format src
    | 2 => readCoded code true room header format src
    | _ => readCoded code false room header format src

end NativeCodec.Zstd
