import NativeCodec.Zstd.Decode

/-!
Decoding zstd inputs piece by piece.

A stream decoder is called with the input that it has not read yet and with room for some output. It
reads one frame at a time and hands its content out over as many calls as that takes. A frame whose
recorded size fits the room is decoded at once; any other frame has to keep to a window limit and to
the block limit of its header, and its recorded size counts only if its last block is not empty.
Matches are followed anywhere in what a frame stands for so far, also behind its window, where a
decoder that keeps a ring of the window and a block finds other bytes.
-/

set_option autoImplicit false
set_option relaxedAutoImplicit false

namespace NativeCodec.Zstd

/-- The largest window of a frame that is not decoded at once. -/
def streamWindowLimit : Nat := 0x8000001

def Block.isEmpty (b : Block) : Bool := b.content.isEmpty

/-- Decodes one block of a stream: it may neither take nor stand for more bytes than the limit. -/
def Block.stream (limit : Nat) (b : Block) (e : Entropy) (out : Output) :
    Except Fault (Entropy × Output) :=
  if b.isEmpty then .ok (e, out)
  else if Bytes.holds (limit + 1) b.content then .error .corrupted
  else
    match b.decode (out.size + limit) e out with
    | .error .destinationTooSmall => .error .corrupted
    | result => result

def streamBlocks (limit : Nat) : List Block → Entropy → Output → Except Fault Output
  | [], _, out => .ok out
  | b :: rest, e, out =>
    match b.stream limit e out with
    | .error f => .error f
    | .ok (e, out) => streamBlocks limit rest e out

def endsEmpty (blocks : List Block) : Bool :=
  match blocks.getLast? with
  | none => true
  | some b => b.isEmpty

/-- Decodes the blocks after a header as a stream; nothing at all says that more input is needed. -/
def streamBody (h : Header) (bytes : Bytes) : Except Fault (Option (Bytes × Bytes)) :=
  let chain := Chain.read bytes
  match streamBlocks h.blockLimit chain.blocks {} {} with
  | .error f => .error f
  | .ok out =>
    match chain.ending with
    | .error .sourceSize => .ok none
    | .error f => .error f
    | .ok rest =>
      if endsEmpty chain.blocks = false ∧ h.agrees out.size = false then .error .corrupted
      else
        let content := out.toBytes
        match afterChecksum h.checksum rest with
        | none => .ok none
        | some _ => (verify h content rest).map fun rest => some (content, rest)

/-- Whether a frame is all there and records a size that fits the room. -/
def decodesAtOnce (h : Header) (room : Nat) (bytes : Bytes) : Bool :=
  (match h.contentSize with
    | none => false
    | some size => size ≤ room) &&
  (match afterFrame bytes with
    | .ok _ => true
    | .error _ => false)

/-- Decodes the first frame of a stream, and gives its content and what follows it; nothing at all
says that more input is needed. -/
def streamFrame (room : Nat) (bytes : Bytes) : Except Fault (Option (Bytes × Bytes)) :=
  match Start.read bytes with
  | .error .incomplete => .ok none
  | .error (.refused f) => .error f
  | .ok (.skippable length, rest) =>
    .ok ((Bytes.split? length rest).map fun (_, rest) => ([], rest))
  | .ok (.data h, rest) =>
    if decodesAtOnce h room bytes then (decodeFrame room bytes).map some
    else if h.dictionary ≠ 0 then .error .dictionaryMismatch
    else if streamWindowLimit < h.window then .error .windowTooLarge
    else streamBody h rest

structure Stream where
  pending : Bytes := []
  deriving DecidableEq, Repr

/-- What one call did: how much input it read, how much output it gave, and its result word. -/
structure Progress where
  consumed : Nat
  produced : Nat
  result : Nat
  deriving DecidableEq, Repr

/-- The result word of a call that has not come to the end of a frame. -/
def unfinished : Nat := 1

def Stream.handOut (pending : Bytes) (consumed room : Nat) : Progress × Stream :=
  let (now, later) := pending.splitAt room
  (⟨consumed, now.length, if later.isEmpty then 0 else unfinished⟩, ⟨later⟩)

def Stream.call (s : Stream) (room : Nat) (unread : Bytes) : Progress × Stream :=
  if s.pending.isEmpty then
    match streamFrame room unread with
    | .error f => (⟨0, 0, f.word⟩, s)
    | .ok none => (⟨unread.length, 0, unfinished⟩, s)
    | .ok (some (content, rest)) => Stream.handOut content (unread.length - rest.length) room
  else Stream.handOut s.pending 0 room

end NativeCodec.Zstd
