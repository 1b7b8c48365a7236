import NativeCodec.Bytes

set_option autoImplicit false
set_option relaxedAutoImplicit false

namespace NativeCodec

inductive Reading
  | unsigned
  | signed
  | truth
  | none
  deriving DecidableEq, Repr

structure Item where
  width : Nat
  reading : Reading
  width_pos : 0 < width := by decide
  deriving DecidableEq, Repr

namespace Item

def byte : Item := { width := 1, reading := .unsigned }

def ofLetter? : Char → Option Item
  | 'B' => some byte
  | 'b' => some { width := 1, reading := .signed }
  | 'c' => some { width := 1, reading := .none }
  | '?' => some { width := 1, reading := .truth }
  | 'h' => some { width := 2, reading := .signed }
  | 'H' => some { width := 2, reading := .unsigned }
  | 'i' => some { width := 4, reading := .signed }
  | 'I' => some { width := 4, reading := .unsigned }
  | 'q' => some { width := 8, reading := .signed }
  | 'Q' => some { width := 8, reading := .unsigned }
  | 'd' => some { width := 8, reading := .none }
  | _ => none

/-- The whole number that the bytes of one item stand for. -/
def value? (item : Item) (bytes : Bytes) : Option Int :=
  match item.reading with
  | .unsigned => some (Bytes.toNat bytes)
  | .signed => some ((Bytes.toNat bytes : Int).bmod (Nat.pow 256 item.width))
  | .truth => some (if Bytes.toNat bytes = 0 then 0 else 1)
  | .none => none

/-- Whether items fill a view of the given length: as many as there are, or as many as the
dimensions say, each of which has some. -/
def fills (item : Item) (length : Nat) : Option (List Nat) → Bool
  | none => length % item.width == 0
  | some dimensions =>
    dimensions.all (0 < ·) && dimensions.foldl (· * ·) item.width == length

def cut (width : Nat) : Nat → Bytes → List Bytes
  | 0, _ => []
  | count + 1, bytes => bytes.take width :: cut width count (bytes.drop width)

/-- The whole numbers that some bytes show as items, if the items read as such. -/
def values? (item : Item) (bytes : Bytes) : Option (Array Int) :=
  ((cut item.width (bytes.length / item.width) bytes).mapM item.value?).map List.toArray

end Item

end NativeCodec
