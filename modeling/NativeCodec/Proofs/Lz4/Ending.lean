import NativeCodec.Lz4.Encode
import NativeCodec.Proofs.Lz4.Capacity
import NativeCodec.Proofs.Lz4.Encoding

set_option autoImplicit false
set_option relaxedAutoImplicit false

namespace NativeCodec.Lz4

/-- The rules for the end of a block with matches: it ends in at least five literals, and its last
match starts at least twelve bytes before the end of what it stands for. -/
def EndsApart (sequences : List Sequence) (tail : Bytes) : Prop :=
  ∀ s, sequences.getLast? = some s →
    tailLength ≤ tail.length ∧ lastMatchMargin ≤ s.matchLength + tail.length

section Sequences

variable {sequences : List Sequence} {tail : Bytes} {spare : Fin 16}

theorem EndsApart.rest {s : Sequence} (h : EndsApart (s :: sequences) tail) :
    EndsApart sequences tail := by
  intro last hlast
  apply h last
  cases sequences with
  | nil => exact absurd hlast (by simp)
  | cons t more => rw [List.getLast?_cons_cons, hlast]

private theorem Block.size_cons (s : Sequence) (sequences : List Sequence) (tail : Bytes)
    (spare : Fin 16) :
    Block.size ⟨s :: sequences, tail, spare⟩ =
      s.literals.length + s.matchLength + Block.size ⟨sequences, tail, spare⟩ := rfl

/-- After the literals of a sequence a block that keeps the rules stands for so much more. -/
theorem EndsApart.size {s : Sequence} (h : EndsApart (s :: sequences) tail) (spare : Fin 16) :
    tailLength ≤ tail.length ∧
      lastMatchMargin ≤ s.matchLength + Block.size ⟨sequences, tail, spare⟩ := by
  induction sequences generalizing s with
  | nil => exact h s rfl
  | cons t more ih =>
    obtain ⟨htail, hmore⟩ := ih h.rest
    rw [Block.size_cons]
    omega

private theorem tail_le_size : tail.length ≤ Block.size ⟨sequences, tail, spare⟩ := by
  induction sequences with
  | nil => exact Nat.le_refl _
  | cons s sequences ih =>
    rw [Block.size_cons]
    omega

private theorem tail_lt_encode :
    tail.length < (sequences.flatMap Sequence.encode ++ encodeTail tail spare).length := by
  rw [List.length_append, encodeTail, List.length_cons, List.length_append]
  omega

private theorem decodeFrom_encode {capacity produced : Nat} {out : Bytes}
    (hg : Grounded produced sequences)
    (he : EndsApart sequences tail) (hp : produced = out.length)
    (hc : produced + Block.size ⟨sequences, tail, spare⟩ ≤ capacity) :
    decodeFrom capacity out produced
        (sequences.flatMap Sequence.encode ++ encodeTail tail spare) =
      some (expandFrom out sequences tail) := by
  induction sequences generalizing produced out with
  | nil =>
    rw [List.flatMap_nil, List.nil_append, decodeFrom_last (Piece.read?_encodeTail tail spare)]
    exact if_pos hc
  | cons s sequences ih =>
    obtain ⟨hpos, hreach, hmin, hsmall, hrest⟩ := hg
    obtain ⟨htail, hlast⟩ := he.size spare
    have hsize := @tail_le_size sequences tail spare
    have hbytes := @tail_lt_encode sequences tail spare
    rw [Block.size_cons] at hc
    have hfits : Copy.fits ⟨s.offset, s.matchLength⟩ capacity (produced + s.literals.length)
        (sequences.flatMap Sequence.encode ++ encodeTail tail spare) = true := by
      have hwidth : 2 ≤ Copy.width ⟨s.offset, s.matchLength⟩ := Nat.le_add_right _ _
      unfold tailLength lastMatchMargin at *
      rw [Copy.fits_iff]
      unfold literalMargin sourceMargin extensionMargin matchMargin
      dsimp only
      omega
    have hlits : (s.literals.reverseAux out).length = produced + s.literals.length := by
      rw [List.reverseAux_eq, List.length_append, List.length_reverse]
      omega
    rw [List.flatMap_cons, List.append_assoc, decodeFrom_inner (Piece.read?_encode hmin hsmall _),
      if_pos hfits, ih hrest he.rest (length_copied hfits hp).symm (by omega)]
    dsimp only
    rw [copyMatch_eq_repeatByte _ (by omega) (by omega), expandFrom]

end Sequences

/-- A grounded block that keeps the rules for the end decodes to what it stands for wherever there
is room for that; a destination of no bytes takes only the one block without a spare half-token. -/
theorem decode_encode {b : Block} {capacity : Nat} (hg : Grounded 0 b.sequences)
    (he : EndsApart b.sequences b.tail) (hc : b.size ≤ capacity)
    (hz : capacity = 0 → b.encode = [0]) : decode capacity b.encode = some b.expand := by
  have hd : decodeFrom capacity [] 0 b.encode = some b.expand :=
    decodeFrom_encode hg he rfl (by rw [Nat.zero_add]; exact hc)
  by_cases h : capacity = 0
  · rw [hz h, decodeFrom_zero] at hd
    rw [decode, if_pos h, if_pos (hz h), ← hd]
  · exact decode_of_decodeFrom hd h

end NativeCodec.Lz4
