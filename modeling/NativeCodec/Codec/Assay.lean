import NativeCodec.Codec.Lz4
import NativeCodec.Lz4.Decode
import NativeCodec.Zstd.Decode
import NativeCodec.Zstd.Encode

set_option autoImplicit false
set_option relaxedAutoImplicit false

namespace NativeCodec.Codec

/-- What a compressed form is like, and the size that it records, if its format has a place for
that. -/
structure Assay where
  nonempty : Bool
  fits : Bool
  restores : Bool
  recorded : Option Nat := none
  deriving DecidableEq, Repr

/-- Assays an LZ4 block, with the size of its source in front if that is stored. -/
def Assay.ofLz4 (source form : Bytes) (room : Nat) (sized : Bool) : Assay :=
  let extra := if sized then Lz4.sizeWidth else 0
  let length := source.length
  let count := form.length
  let block := form.drop extra
  { nonempty := 0 < count
    fits := count ≤ room && count ≤ NativeCodec.Lz4.compressBound length + extra
    restores := NativeCodec.Lz4.decode length block == some source &&
      (!sized || Bytes.toNat (form.take extra) == length) }

def Assay.ofZstd (source form : Bytes) (room : Nat) : Assay :=
  let length := source.length
  let count := form.length
  { nonempty := 0 < count
    fits := count ≤ room && count ≤ (NativeCodec.Zstd.compressBound length).getD 0
    restores := (NativeCodec.Zstd.decode length form).toOption == some source
    recorded := some (NativeCodec.Zstd.recordedSize form) }

end NativeCodec.Codec
