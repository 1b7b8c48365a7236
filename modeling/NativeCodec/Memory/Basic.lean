import NativeCodec.Error
import NativeCodec.Memory.Storage

/-!
Memory as a row of storages.

Storages are added and never removed, and each keeps its place in the row. There are none of a size
from the limit of the memory on. A `Base` says what a
run of bytes is counted from: the start of a storage, a point near one, or a bare address that no
storage is known for. Of a bare address only the empty run can be read.
-/

set_option autoImplicit false
set_option relaxedAutoImplicit false

namespace NativeCodec

/-- All storages, by the place they were added in, and the sizes that cannot be had. -/
structure Memory where
  storages : List Storage := []
  limit : Nat := 0x4000000000000000
  deriving DecidableEq, Repr

/-- The sizes that cannot be counted. -/
def countLimit : Nat := 0x8000000000000000

namespace Memory

/-- The storage at a place. -/
def get (m : Memory) (place : Nat) : Storage := m.storages.getD place (.fresh 0)

/-- The size of the storage at a place. -/
def size (m : Memory) (place : Nat) : Nat := (m.get place).size

def set (m : Memory) (place : Nat) (s : Storage) : Memory :=
  { m with storages := m.storages.set place s }

def add (m : Memory) (s : Storage) : Nat × Memory :=
  (m.storages.length, { m with storages := m.storages ++ [s] })

def checkSize (m : Memory) (size : Int) : Except Error Nat :=
  if size < 0 then .error .negativeCount
  else if countLimit ≤ size then .error .tooLarge
  else if m.limit ≤ size then .error .outOfMemory
  else .ok size.toNat

/-- The sizes below this one can be had. -/
def room (m : Memory) : Nat := min m.limit countLimit

def allocate (m : Memory) (size : Int) : Except Error (Nat × Memory) :=
  (m.checkSize size).map fun size => m.add (.fresh size)

theorem get_add (m : Memory) (s : Storage) (place : Nat) (h : place < m.storages.length) :
    (m.add s).2.get place = m.get place := by
  simp [get, add, List.getD_eq_getElem?_getD, List.getElem?_append_left h]

@[simp] theorem get_add_self (m : Memory) (s : Storage) : (m.add s).2.get (m.add s).1 = s := by
  simp [get, add, List.getD_eq_getElem?_getD]

theorem get_set_self (m : Memory) (s : Storage) (place : Nat) (h : place < m.storages.length) :
    (m.set place s).get place = s := by
  simp [get, set, List.getD_eq_getElem?_getD, h]

theorem get_set_of_ne (m : Memory) (s : Storage) {place other : Nat} (h : place ≠ other) :
    (m.set place s).get other = m.get other := by
  simp [get, set, List.getD_eq_getElem?_getD, List.getElem?_set_ne h]

end Memory

inductive Base
  | managed (place : Nat)
  | near (place : Nat) (delta : Int)
  | address (n : Int)
  deriving DecidableEq, Repr

/-- Whether the bytes are known by their address alone. -/
def Base.isForeign : Base → Bool
  | managed _ => false
  | _ => true

/-- Where a run of bytes starts. -/
structure Pointer where
  base : Base
  offset : Nat
  deriving DecidableEq, Repr

def Pointer.target? (p : Pointer) : Option (Nat × Nat) :=
  match p.base with
  | .managed place => some (place, p.offset)
  | .near place delta =>
    if delta + p.offset < 0 then none else some (place, (delta + p.offset).toNat)
  | .address _ => none

/-- A pointer further on. -/
def Pointer.advance (p : Pointer) (count : Nat) : Pointer := { p with offset := p.offset + count }

/-- The bytes at a pointer, if they are in memory. -/
def Memory.read? (m : Memory) (p : Pointer) (count : Nat) : Option Bytes :=
  if count = 0 then some []
  else p.target?.map fun (place, offset) => (m.get place).read offset count

/-- Puts bytes at a pointer; outside memory this does nothing. -/
def Memory.write (m : Memory) (p : Pointer) (data : Bytes) : Memory :=
  match p.target? with
  | none => m
  | some (place, offset) => m.set place ((m.get place).write offset data)

@[simp] theorem Memory.limit_write (m : Memory) (p : Pointer) (data : Bytes) :
    (m.write p data).limit = m.limit := by
  unfold Memory.write
  split <;> rfl

end NativeCodec
