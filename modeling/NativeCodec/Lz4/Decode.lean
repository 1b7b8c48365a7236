import NativeCodec.Lz4.Block

/-!
Decoding LZ4 blocks into a bounded destination.

`decode` follows the sequences of a block and keeps clear of the ends of its source and of its
destination by fixed margins, so a block can be refused near an end although its headers are
consistent. `Copy.fits` collects the margins of one match.
-/

set_option autoImplicit false
set_option relaxedAutoImplicit false

namespace NativeCodec.Lz4

/-- The room that the literals before a match leave in the destination. -/
def literalMargin : Nat := 12

/-- The room that a match leaves in the destination, for the literals that must follow. -/
def matchMargin : Nat := 5

/-- The bytes that follow the literals of a sequence which is not the last. -/
def sourceMargin : Nat := 8

/-- The bytes that follow a match whose length is carried on. -/
def extensionMargin : Nat := 4

/-- Whether a match can be copied when `here` bytes are there, for a destination of `capacity`
and with `rest` after it: its offset names one of them, and the margins at both ends are kept. -/
def Copy.fits (c : Copy) (capacity here : Nat) (rest : Bytes) : Bool :=
  here + literalMargin ≤ capacity && Bytes.holds (sourceMargin - c.width) rest &&
    (c.width = 2 || Bytes.holds extensionMargin rest) &&
    c.offset ≠ 0 && c.offset ≤ here && here + c.length + matchMargin ≤ capacity

/-- Decodes the sequences ahead onto `out`, which holds `produced` bytes, newest first. -/
def decodeFrom (capacity : Nat) (out : Bytes) (produced : Nat) (bytes : Bytes) : Option Bytes :=
  match _h : Piece.read? bytes with
  | none => none
  | some (.last literals) =>
    if produced + literals.length ≤ capacity then some (literals.reverseAux out).reverse else none
  | some (.inner literals copy rest) =>
    let here := produced + literals.length
    if copy.fits capacity here rest then
      decodeFrom capacity (copyMatch copy.offset copy.length (literals.reverseAux out))
        (here + copy.length) rest
    else none
  termination_by bytes.length
  decreasing_by exact Piece.read?_rest_lt ‹_›

section Piece

variable {capacity produced : Nat} {out bytes : Bytes}

theorem decodeFrom_last {literals : Bytes} (h : Piece.read? bytes = some (.last literals)) :
    decodeFrom capacity out produced bytes =
      if produced + literals.length ≤ capacity then some (literals.reverseAux out).reverse
      else none := by
  rw [decodeFrom]
  split
  · next hp => exact absurd (h.symm.trans hp) (by simp)
  · next hp => rw [Piece.last.inj (Option.some.inj (h.symm.trans hp))]
  · next hp => exact absurd (h.symm.trans hp) (by simp)

theorem decodeFrom_inner {literals rest : Bytes} {copy : Copy}
    (h : Piece.read? bytes = some (.inner literals copy rest)) :
    decodeFrom capacity out produced bytes =
      if copy.fits capacity (produced + literals.length) rest then
        decodeFrom capacity (copyMatch copy.offset copy.length (literals.reverseAux out))
          (produced + literals.length + copy.length) rest
      else none := by
  rw [decodeFrom]
  split
  · next hp => exact absurd (h.symm.trans hp) (by simp)
  · next hp => exact absurd (h.symm.trans hp) (by simp)
  · next hp =>
    obtain ⟨rfl, rfl, rfl⟩ := Piece.inner.inj (Option.some.inj (h.symm.trans hp))
    rfl

end Piece

/-- Decodes a block into a destination of `capacity` bytes, which fits a destination of no bytes
only when the block is the one byte 0. -/
def decode (capacity : Nat) (bytes : Bytes) : Option Bytes :=
  if capacity = 0 then (if bytes = [0] then some [] else none) else decodeFrom capacity [] 0 bytes

end NativeCodec.Lz4
