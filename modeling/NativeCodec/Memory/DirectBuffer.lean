import NativeCodec.Memory.Range

set_option autoImplicit false
set_option relaxedAutoImplicit false

namespace NativeCodec

/-- A number of bytes in a storage of their own, and a cursor. -/
structure DirectBuffer where
  place : Nat
  size : Nat
  position : Nat
  position_le : position ≤ size
  deriving DecidableEq, Repr

namespace DirectBuffer

def type : String := "DirectBuffer"

/-- A buffer of zeros with the cursor at its start. The storage has room for one byte at least. -/
def create (m : Memory) (size : Int) : Except Error (DirectBuffer × Memory) :=
  if size < 0 then .error (.negativeSize size)
  else
    (m.allocate (max size 1)).map fun (place, m) =>
      (⟨place, size.toNat, 0, Nat.zero_le _⟩, m)

def start (b : DirectBuffer) : Pointer := ⟨.near b.place 0, 0⟩

def contents (b : DirectBuffer) (m : Memory) : Bytes := (m.get b.place).read 0 b.size

/-- The buffer with its cursor elsewhere. -/
def moveTo (b : DirectBuffer) (position : Nat) (h : position ≤ b.size) : DirectBuffer :=
  ⟨b.place, b.size, position, h⟩

def write (b : DirectBuffer) (m : Memory) (data : Bytes) :
    Except Error (Nat × DirectBuffer × Memory) :=
  if h : b.position + data.length ≤ b.size then
    .ok (data.length, b.moveTo (b.position + data.length) h,
      m.set b.place ((m.get b.place).write b.position data))
  else .error .writePastEnd

def remaining (b : DirectBuffer) : Nat := b.size - b.position

/-- The number of bytes that a read takes: without a count, or with a negative one, all. -/
def readCount (b : DirectBuffer) : Option Int → Nat
  | none => b.remaining
  | some n => if n < 0 then b.remaining else min n.toNat b.remaining

def take (b : DirectBuffer) (m : Memory) (count : Nat) : Bytes × DirectBuffer :=
  let count := min count b.remaining
  ((m.get b.place).read b.position count,
    b.moveTo (b.position + count) (by
      have := b.position_le
      simp only [count, remaining]
      omega))

def read (b : DirectBuffer) (m : Memory) (count : Option Int) : Bytes × DirectBuffer :=
  b.take m (b.readCount count)

/-- The position that a move of the cursor means: from the start, from where it is, or from the
end. -/
def target (b : DirectBuffer) (offset whence : Int) : Except Error Int :=
  if whence = 0 then .ok offset
  else if whence = 1 then .ok (b.position + offset)
  else if whence = 2 then .ok (b.size + offset)
  else .error (.unknownWhence whence)

def seek (b : DirectBuffer) (offset whence : Int) : Except Error DirectBuffer :=
  (b.target offset whence).bind fun position =>
    if h : 0 ≤ position ∧ position ≤ b.size then .ok (b.moveTo position.toNat (by omega))
    else .error .seekOutside

def describe (b : DirectBuffer) : String := s!"DirectBuffer<len={b.size}>"

end DirectBuffer

end NativeCodec
