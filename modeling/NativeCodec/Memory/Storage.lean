import NativeCodec.Bytes

set_option autoImplicit false
set_option relaxedAutoImplicit false

namespace NativeCodec

/-- A piece of memory of `size` bytes: the bytes of `head`, then zeros. -/
structure Storage where
  head : Bytes
  size : Nat
  head_le : head.length ≤ size
  deriving DecidableEq, Repr

namespace Storage

def ofBytes (bytes : Bytes) : Storage := ⟨bytes, bytes.length, Nat.le_refl _⟩

def fresh (size : Nat) : Storage := ⟨[], size, Nat.zero_le _⟩

/-- What a storage holds. -/
def bytes (s : Storage) : Bytes := s.head ++ Bytes.zeros (s.size - s.head.length)

def read (s : Storage) (offset count : Nat) : Bytes :=
  let found := (s.head.drop offset).take count
  found ++ Bytes.zeros (min count (s.size - offset) - found.length)

/-- Puts bytes at an offset, as many as fit there. -/
def write (s : Storage) (offset : Nat) (data : Bytes) : Storage :=
  if h : offset + data.length ≤ s.size then
    ⟨s.head.take offset ++ Bytes.zeros (offset - s.head.length) ++ data ++
        s.head.drop (offset + data.length), s.size, by
      have := s.head_le
      simp only [Bytes.zeros, List.length_append, List.length_take, List.length_replicate,
        List.length_drop]
      omega⟩
  else
    ⟨s.head.take offset ++ Bytes.zeros (min offset s.size - s.head.length) ++
        data.take (s.size - offset), s.size, by
      have := s.head_le
      simp only [Bytes.zeros, List.length_append, List.length_take, List.length_replicate]
      omega⟩

def grow (s : Storage) : Storage := ⟨s.head, s.size + 1, Nat.le_succ_of_le s.head_le⟩

@[simp] theorem length_bytes (s : Storage) : s.bytes.length = s.size := by
  have := s.head_le
  simp only [bytes, Bytes.zeros, List.length_append, List.length_replicate]
  omega

@[simp] theorem bytes_ofBytes (data : Bytes) : (ofBytes data).bytes = data := by
  simp [bytes, ofBytes, Bytes.zeros]

@[simp] theorem bytes_fresh (size : Nat) : (fresh size).bytes = Bytes.zeros size := by
  simp [bytes, fresh]

@[simp] theorem size_write (s : Storage) (offset : Nat) (data : Bytes) :
    (s.write offset data).size = s.size := by
  unfold write
  split <;> rfl

theorem read_eq (s : Storage) (offset count : Nat) :
    s.read offset count = (s.bytes.drop offset).take count := by
  have := s.head_le
  simp only [read, bytes, Bytes.zeros, List.drop_append, List.take_append, List.drop_replicate,
    List.take_replicate, List.length_take, List.length_drop]
  congr 2
  omega

@[simp] theorem length_read (s : Storage) (offset count : Nat) :
    (s.read offset count).length = min count (s.size - offset) := by
  simp [read_eq]

theorem bytes_write (s : Storage) {offset : Nat} {data : Bytes}
    (h : offset + data.length ≤ s.size) :
    (s.write offset data).bytes =
      s.bytes.take offset ++ data ++ s.bytes.drop (offset + data.length) := by
  have := s.head_le
  simp only [write, h, dif_pos, bytes, Bytes.zeros, List.take_append, List.drop_append,
    List.take_replicate, List.drop_replicate, List.length_append, List.length_take,
    List.length_replicate, List.length_drop, List.append_assoc]
  congr 2
  · congr 1
    omega
  · congr 3
    omega

end Storage

end NativeCodec
