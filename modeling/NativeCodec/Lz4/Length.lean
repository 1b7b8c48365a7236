import NativeCodec.Lz4.Block

set_option autoImplicit false
set_option relaxedAutoImplicit false

namespace NativeCodec.Lz4

/-- The size that the sequences ahead describe when `produced` bytes are already there. -/
def walk (produced : Nat) (bytes : Bytes) : Option Nat :=
  match _h : Piece.read? bytes with
  | none => none
  | some (.last literals) => some (produced + literals.length)
  | some (.inner literals copy rest) =>
    let here := produced + literals.length
    if copy.offset = 0 ∨ here < copy.offset then none else walk (here + copy.length) rest
  termination_by bytes.length
  decreasing_by exact Piece.read?_rest_lt ‹_›

theorem walk_none {produced : Nat} {bytes : Bytes} (h : Piece.read? bytes = none) :
    walk produced bytes = none := by
  rw [walk]
  split
  · rfl
  · next hp => exact absurd (h.symm.trans hp) (by simp)
  · next hp => exact absurd (h.symm.trans hp) (by simp)

theorem walk_last {produced : Nat} {bytes literals : Bytes}
    (h : Piece.read? bytes = some (.last literals)) :
    walk produced bytes = some (produced + literals.length) := by
  rw [walk]
  split
  · next hp => exact absurd (h.symm.trans hp) (by simp)
  · next hp => rw [Piece.last.inj (Option.some.inj (h.symm.trans hp))]
  · next hp => exact absurd (h.symm.trans hp) (by simp)

theorem walk_inner {produced : Nat} {bytes literals rest : Bytes} {copy : Copy}
    (h : Piece.read? bytes = some (.inner literals copy rest)) :
    walk produced bytes =
      if copy.offset = 0 ∨ produced + literals.length < copy.offset then none
      else walk (produced + literals.length + copy.length) rest := by
  rw [walk]
  split
  · next hp => exact absurd (h.symm.trans hp) (by simp)
  · next hp => exact absurd (h.symm.trans hp) (by simp)
  · next hp =>
    obtain ⟨rfl, rfl, rfl⟩ := Piece.inner.inj (Option.some.inj (h.symm.trans hp))
    rfl

/-- The decompressed size that the headers of a block describe, if they are consistent. -/
def blockLength? (bytes : Bytes) : Option Nat := walk 0 bytes

end NativeCodec.Lz4
