import NativeCodec.Lz4.Decode
import NativeCodec.Lz4.Encode
import NativeCodec.Native.World
import NativeCodec.Zstd.Encode
import NativeCodec.Zstd.Stream

/-!
Libraries that do the work themselves.

`system` answers the calls of the LZ4 and zstd libraries by coding and decoding. Numbers that do not
fit the type of a parameter are refused before anything is done. A stream decoder keeps in its
context what it has not handed out. There is no snappy library.
-/

set_option autoImplicit false
set_option relaxedAutoImplicit false

namespace NativeCodec.Native

/-- The contexts that were created, and what the stream decoders among them hold. -/
structure Contexts where
  created : Nat := 0
  streams : List (Nat × Zstd.Stream) := []

namespace Contexts

def stream (c : Contexts) (handle : Nat) : Zstd.Stream := (c.streams.lookup handle).getD {}

def setStream (c : Contexts) (handle : Nat) (s : Zstd.Stream) : Contexts :=
  { c with streams := (handle, s) :: c.streams.filter (·.1 != handle) }

def free (c : Contexts) (handle : Nat) : Contexts :=
  { c with streams := c.streams.filter (·.1 != handle) }

def create (c : Contexts) : Contexts := { c.free (c.created + 1) with created := c.created + 1 }

end Contexts

def fitsInt (n : Int) : Bool := -0x80000000 ≤ n && n < 0x80000000

def fitsSize (n : Int) : Bool := 0 ≤ n && n < wordLimit

def sizeWord (n : Int) : Except Error Nat :=
  if fitsSize n then .ok n.toNat else .error .tooLarge

def runLz4Compress (source : Bytes) (capacity : Nat) : Written Int :=
  match Lz4.compress? capacity source with
  | none => { result := 0 }
  | some block => { result := block.length, bytes := block }

def runLz4Decompress (block : Bytes) (capacity : Nat) : Written Int :=
  match Lz4.decode capacity block with
  | none => { result := -1 }
  | some out => { result := out.length, bytes := out }

def runZstdCompress (source : Bytes) (capacity : Nat) : Written Nat :=
  match Zstd.compress? capacity source with
  | none => { result := Zstd.Fault.destinationTooSmall.word }
  | some frame => { result := frame.length, bytes := frame }

def runZstdDecompress (source : Bytes) (capacity : Nat) : Written Nat :=
  match Zstd.decode capacity source with
  | .error f => { result := f.word }
  | .ok out => { result := out.length, bytes := out }

def resultWord : Except Zstd.Fault Nat → Nat
  | .ok n => n
  | .error f => f.word

def Call.fits : Call → Bool
  | .lz4Bound size => fitsInt size
  | .lz4Compress _ source capacity acceleration =>
    fitsInt source.length && fitsInt capacity && fitsInt acceleration
  | .lz4Decompress source capacity => fitsInt source.length && fitsInt capacity
  | .zstdBound size => fitsSize size
  | .zstdCompress _ capacity source level =>
    fitsSize capacity && fitsSize source.length && fitsInt level
  | .zstdDecompress _ capacity source => fitsSize capacity && fitsSize source.length
  | .zstdContentSize source => fitsSize source.length
  | .zstdFrameSize source => fitsSize source.length
  | _ => true

def systemReply : (c : Call) → Contexts → c.Reply × Contexts
  | .lz4Bound size, s => (if size < 0 then (0 : Int) else (Lz4.compressBound size.toNat : Int), s)
  | .lz4Compress _ source capacity _, s => (runLz4Compress source.content capacity, s)
  | .lz4Decompress source capacity, s => (runLz4Decompress source.content capacity, s)
  | .snappyBound _, s => ((0 : Int), s)
  | .snappyCompress .., s => ({ status := 1 }, s)
  | .snappyDecompress .., s => ({ status := 1 }, s)
  | .snappyLength .., s => ({ status := 1 }, s)
  | .snappyValidate _, s => ((1 : Int), s)
  | .zstdBound size, s =>
    ((Zstd.compressBound size.toNat).getD Zstd.Fault.sourceSize.word, s)
  | .createContext _, s => (some (s.created + 1), s.create)
  | .freeContext _ handle, s => ((), s.free handle)
  | .zstdCompress _ capacity source _, s => (runZstdCompress source.content capacity, s)
  | .zstdDecompress _ capacity source, s => (runZstdDecompress source.content capacity, s)
  | .zstdStream context room written source consumed, s =>
    let (progress, stream) :=
      (s.stream context).call (room - written) (source.content.drop consumed)
    (⟨progress.result, written + progress.produced, consumed + progress.consumed⟩,
      s.setStream context stream)
  | .zstdStreamRoom, s => (Zstd.maxBlock, s)
  | .zstdContentSize source, s => (Zstd.recordedSize source.content, s)
  | .zstdFrameSize source, s => (resultWord (Zstd.frameExtent source.content), s)

def systemConstants : Constants := { stateSize := 16416, minLevel := -131072, maxLevel := 22 }

/-- The LZ4 and zstd libraries, given what binding the snappy library ends in. -/
def system (snappy : Except Error Constants) : Libraries Contexts where
  bind a s := ({ found := [], outcome := if a = .snappy then snappy else .ok systemConstants }, s)
  answer c s :=
    if c.fits then
      let (reply, s) := systemReply c s
      (.ok reply, s)
    else (.error .tooLarge, s)
  errorName := Zstd.codeName
  word := sizeWord
  patience := manyCalls

end NativeCodec.Native
