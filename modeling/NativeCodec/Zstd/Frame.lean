import NativeCodec.Zstd.Status

/-!
The outer layout of zstd frames.

A frame starts with a header and is a chain of blocks, each with a header that says how many bytes
it takes; the last one is marked. A skippable frame only says how long it is. Everything here looks
at headers alone: `Start.read` reads the header of a frame, `Chain.read` walks its blocks, and
`afterFrame` finds where the frame ends.
-/

set_option autoImplicit false
set_option relaxedAutoImplicit false

namespace NativeCodec.Zstd

/-- The number that starts a frame. -/
def frameMagic : Nat := 0xFD2FB528

/-- The numbers that start a skippable frame agree with this one but for the lowest half-byte. -/
def skippableMagic : Nat := 0x184D2A50

def isSkippableMagic (magic : Nat) : Bool := magic / 16 == skippableMagic / 16

/-- The bytes of a skippable frame before its content. -/
def skippableHeader : Nat := 8

/-- The bytes of a block header. -/
def blockHeader : Nat := 3

/-- The fewest bytes of a frame header. -/
def smallestHeader : Nat := 6

/-- The largest logarithm of a window. -/
def maxWindowLog : Nat := 31

/-- The most bytes that a block may stand for. -/
def maxBlock : Nat := 131072

/-- The recorded size that means that none is. -/
def unknownSize : Nat := wordLimit - 1

/-- The size that the library gives for a header it cannot read. -/
def invalidSize : Nat := wordLimit - 2

/-- What the header of a data frame says: the size of its content, if that is recorded, how far
back its matches reach, the dictionary it needs, and whether a checksum follows it. -/
structure Header where
  contentSize : Option Nat
  window : Nat
  dictionary : Nat
  checksum : Bool
  deriving DecidableEq, Repr

def Header.blockLimit (h : Header) : Nat := min h.window maxBlock

inductive Start
  | skippable (length : Nat)
  | data (header : Header)
  deriving DecidableEq, Repr

/-- Why the start of a frame cannot be read. -/
inductive Unread
  | incomplete
  | refused (fault : Fault)
  deriving DecidableEq, Repr

/-- A frame descriptor: the byte that says which fields a header has. -/
structure Descriptor where
  sizeCode : Nat
  single : Bool
  reserved : Bool
  checksum : Bool
  dictionaryCode : Nat
  deriving DecidableEq, Repr

def Descriptor.ofByte (b : UInt8) : Descriptor :=
  { sizeCode := b.toNat / 64
    single := b.toNat.testBit 5
    reserved := b.toNat.testBit 3
    checksum := b.toNat.testBit 2
    dictionaryCode := b.toNat % 4 }

def Descriptor.windowWidth (d : Descriptor) : Nat := if d.single then 0 else 1

def Descriptor.dictionaryWidth (d : Descriptor) : Nat :=
  match d.dictionaryCode with
  | 0 => 0
  | 1 => 1
  | 2 => 2
  | _ => 4

def Descriptor.sizeWidth (d : Descriptor) : Nat :=
  match d.sizeCode with
  | 0 => if d.single then 1 else 0
  | 1 => 2
  | 2 => 4
  | _ => 8

def Descriptor.fieldWidth (d : Descriptor) : Nat :=
  d.windowWidth + d.dictionaryWidth + d.sizeWidth

def Descriptor.headerWidth (d : Descriptor) : Nat := 5 + d.fieldWidth

/-- The size that a size field records; two bytes count from 256 on. -/
def Descriptor.readSize (d : Descriptor) (field : Bytes) : Option Nat :=
  let n := Bytes.toNat field
  if d.sizeWidth = 0 ∨ n = unknownSize then none
  else if d.sizeWidth = 2 then some (n + 256)
  else some n

/-- The window that a window byte describes: a power of two and some eighths of it. -/
def windowSize (b : UInt8) : Nat :=
  let base := 1 <<< (b.toNat / 8 + 10)
  base + base / 8 * (b.toNat % 8)

def Descriptor.readFields (d : Descriptor) (fields : Bytes) : Except Unread Header :=
  let (window, fields) := fields.splitAt d.windowWidth
  let (dictionary, size) := fields.splitAt d.dictionaryWidth
  let contentSize := d.readSize size
  let header (window : Nat) : Header :=
    { contentSize, window, dictionary := Bytes.toNat dictionary, checksum := d.checksum }
  if d.reserved then .error (.refused .unsupportedParameter)
  else
    match window with
    | [] => .ok (header (contentSize.getD unknownSize))
    | b :: _ =>
      if maxWindowLog < b.toNat / 8 + 10 then .error (.refused .windowTooLarge)
      else .ok (header (windowSize b))

/-- Reads how a frame starts, and gives what follows the header; a skippable frame keeps its
content. -/
def Start.read (bytes : Bytes) : Except Unread (Start × Bytes) :=
  match bytes with
  | a :: b :: c :: d :: e :: rest =>
    let magic := Bytes.toNat [a, b, c, d]
    if magic = frameMagic then
      let descriptor := Descriptor.ofByte e
      match Bytes.split? descriptor.fieldWidth rest with
      | none => .error .incomplete
      | some (fields, rest) =>
        (descriptor.readFields fields).map fun header => (.data header, rest)
    else if isSkippableMagic magic then
      match Bytes.split? 4 (e :: rest) with
      | none => .error .incomplete
      | some (length, rest) => .ok (.skippable (Bytes.toNat length), rest)
    else .error (.refused .unknownFrame)
  | _ => .error .incomplete

/-- How a block stands for its bytes: as they are, as one byte repeated so often, or compressed. -/
inductive Coding
  | raw
  | repeated (count : Nat)
  | compressed
  deriving DecidableEq, Repr

structure Block where
  last : Bool
  coding : Coding
  content : Bytes
  deriving DecidableEq, Repr

def Block.read (bytes : Bytes) : Except Fault (Block × Bytes) :=
  match bytes with
  | a :: b :: c :: rest =>
    let header := Bytes.toNat [a, b, c]
    let last := header % 2 == 1
    let size := header / 8
    let take (coding : Coding) (width : Nat) : Except Fault (Block × Bytes) :=
      match Bytes.split? width rest with
      | none => .error .sourceSize
      | some (content, rest) => .ok (⟨last, coding, content⟩, rest)
    match header / 2 % 4 with
    | 0 => take .raw size
    | 1 => take (.repeated size) 1
    | 2 => take .compressed size
    | _ => .error .corrupted
  | _ => .error .sourceSize

/-- The blocks of a frame: those that are all there, and what follows the last one or what is wrong
with the block after them. -/
structure Chain where
  blocks : List Block
  ending : Except Fault Bytes

theorem Block.read_length_lt {bytes rest : Bytes} {b : Block}
    (h : Block.read bytes = .ok (b, rest)) : rest.length + blockHeader ≤ bytes.length := by
  match bytes, h with
  | x :: y :: z :: more, h =>
    have key : ∀ (coding : Coding) (width : Nat) (last : Bool),
        (match Bytes.split? width more with
          | none => (.error .sourceSize : Except Fault (Block × Bytes))
          | some (content, rest) => .ok (⟨last, coding, content⟩, rest)) = .ok (b, rest) →
        rest.length ≤ more.length := by
      intro coding width last hk
      cases hs : Bytes.split? width more with
      | none => simp [hs] at hk
      | some p =>
        simp only [hs, Except.ok.injEq, Prod.mk.injEq] at hk
        have := congrArg List.length (Bytes.split?_eq_some hs).1
        simp only [List.length_append, hk.2] at this
        omega
    have hm : rest.length ≤ more.length := by
      simp only [Block.read] at h
      split at h
      · exact key _ _ _ h
      · exact key _ _ _ h
      · exact key _ _ _ h
      · exact absurd h (by simp)
    simp only [List.length_cons, blockHeader]
    omega

/-- Walks the blocks of a frame up to the last one. -/
def Chain.read (bytes : Bytes) : Chain :=
  match _h : Block.read bytes with
  | .error f => ⟨[], .error f⟩
  | .ok (b, rest) =>
    if b.last then ⟨[b], .ok rest⟩
    else
      let chain := Chain.read rest
      ⟨b :: chain.blocks, chain.ending⟩
  termination_by bytes.length
  decreasing_by
    have := Block.read_length_lt ‹_›
    simp only [blockHeader] at this
    omega

/-- What follows a skippable frame, given what follows its header. A length that cannot be added to
the header's in 32 bits is refused. -/
def afterSkippable (length : Nat) (rest : Bytes) : Except Fault Bytes :=
  if 0x100000000 ≤ length + skippableHeader then .error .unsupportedParameter
  else
    match Bytes.split? length rest with
    | none => .error .sourceSize
    | some (_, rest) => .ok rest

/-- What follows the checksum of a frame, which takes four bytes if there is one. -/
def afterChecksum (checksum : Bool) (bytes : Bytes) : Option (Bytes × Bytes) :=
  Bytes.split? (if checksum then 4 else 0) bytes

/-- What follows the first frame, found from headers alone. -/
def afterFrame (bytes : Bytes) : Except Fault Bytes :=
  match Start.read bytes with
  | .error .incomplete => .error .sourceSize
  | .error (.refused f) => .error f
  | .ok (.skippable length, rest) => afterSkippable length rest
  | .ok (.data header, rest) =>
    match (Chain.read rest).ending with
    | .error f => .error f
    | .ok rest =>
      match afterChecksum header.checksum rest with
      | none => .error .sourceSize
      | some (_, rest) => .ok rest

def frameExtent (bytes : Bytes) : Except Fault Nat :=
  (afterFrame bytes).map fun rest => bytes.length - rest.length

/-- The size that the first frame records, as the library gives it: a skippable frame stands for
nothing, and a header that cannot be read has the size that means so. -/
def recordedSize (bytes : Bytes) : Nat :=
  match Start.read bytes with
  | .error _ => invalidSize
  | .ok (.skippable _, _) => 0
  | .ok (.data header, _) => header.contentSize.getD unknownSize

end NativeCodec.Zstd
