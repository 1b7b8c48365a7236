import NativeCodec.Codec.Request

set_option autoImplicit false
set_option relaxedAutoImplicit false

namespace NativeCodec.Codec

open Native

variable {σ : Type}

/-- An operation of a codec. -/
inductive Operation
  | bound (size : Int)
  | compress (input output : Argument)
  | decompress (input output : Argument)
  | length (input : Argument)
  | validate (input : Argument)
  deriving DecidableEq, Repr

/-- Carries out an operation. -/
def Operation.op (L : Libraries σ) (f : Facade) : Operation → Op σ Answer
  | bound size => .number <$> f.bound L size
  | compress input output => .number <$> f.compress L input output
  | decompress input output => .number <$> f.decompress L input output
  | length input => .extent <$> f.length L input
  | validate input => .truth <$> f.validate L input

end NativeCodec.Codec
