set_option autoImplicit false
set_option relaxedAutoImplicit false

namespace NativeCodec

inductive Gravity
  | debug
  | info
  | warning
  | error
  deriving DecidableEq, Repr

/-- A note. -/
structure Note where
  gravity : Gravity
  text : String
  deriving DecidableEq, Repr

end NativeCodec
