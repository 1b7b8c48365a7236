set_option autoImplicit false
set_option relaxedAutoImplicit false

namespace NativeCodec.Text

/-- A set of characters, as the code points where membership changes. -/
structure CharSet where
  changes : List Nat

/-- Whether a character belongs to a set: the number of changes up to it is odd. -/
def CharSet.contains (s : CharSet) (c : Char) : Bool :=
  (s.changes.takeWhile (· ≤ c.toNat)).length % 2 == 1

end NativeCodec.Text
