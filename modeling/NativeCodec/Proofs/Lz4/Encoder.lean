import NativeCodec.Lz4.Encode
import NativeCodec.Proofs.Lz4.Ending

set_option autoImplicit false
set_option relaxedAutoImplicit false

namespace NativeCodec.Lz4

/-- A block in a form that every decoder takes, which stands for the given bytes and is no longer
than a compression of them may be. -/
structure Block.Writes (b : Block) (bytes : Bytes) : Prop where
  grounded : Grounded 0 b.sequences
  apart : EndsApart b.sequences b.tail
  size_eq : b.size = bytes.length
  expand_eq : b.expand = bytes
  encode_empty : bytes = [] → b.encode = [0]
  length_le : b.encode.length ≤ bytes.length + bytes.length / 255 + 16

theorem Block.Writes.decode {b : Block} {bytes : Bytes} {capacity : Nat} (h : b.Writes bytes)
    (hc : bytes.length ≤ capacity) : decode capacity b.encode = some bytes := by
  have hd := @decode_encode b capacity h.grounded h.apart (by rw [h.size_eq]; exact hc)
    (fun hz => h.encode_empty (List.length_eq_zero_iff.mp (by omega)))
  rw [hd, h.expand_eq]

private theorem length_lengthExtension_le (n : Nat) : (lengthExtension n).length ≤ n / 255 + 1 := by
  unfold lengthExtension
  split
  · exact Nat.zero_le _
  · rw [List.length_append, List.length_replicate, List.length_singleton]
    omega

private theorem length_encodeTail_le (tail : Bytes) (spare : Fin 16) :
    (encodeTail tail spare).length ≤ tail.length + tail.length / 255 + 2 := by
  have := length_lengthExtension_le tail.length
  rw [encodeTail, List.length_cons, List.length_append]
  omega

private theorem Sequence.length_encode_le (s : Sequence) :
    s.encode.length ≤ s.literals.length + s.literals.length / 255 + s.matchLength / 255 + 5 := by
  have hlits := length_lengthExtension_le s.literals.length
  have hmatch := length_lengthExtension_le (s.matchLength - minMatch)
  simp only [encode, List.length_cons, List.length_append, Bytes.length_ofNat]
  unfold minMatch at *
  omega

private theorem literals_writes (bytes : Bytes) : Block.Writes ⟨[], bytes, 0⟩ bytes where
  grounded := trivial
  apart s h := absurd h (by simp)
  size_eq := rfl
  expand_eq := by
    rw [Block.expand, expandFrom, List.reverseAux_eq, List.append_nil, List.reverse_reverse]
  encode_empty h := by rw [h]; rfl
  length_le := by
    have := length_encodeTail_le bytes 0
    rw [Block.encode, List.flatMap_nil, List.nil_append]
    dsimp only
    omega

private theorem repeatByte_of_has {p : Nat} {bytes : Bytes} (h : Period.Has p bytes) (hp : 1 ≤ p)
    {start : Nat} (count : Nat) (hs : p ≤ start) (hc : start + count ≤ bytes.length) :
    repeatByte p count (bytes.take start).reverse = (bytes.take (start + count)).reverse := by
  induction count generalizing start with
  | zero => rfl
  | succ count ih =>
    have hlength : (bytes.take start).length = start := by
      rw [List.length_take]
      omega
    have hstart : start < bytes.length := by omega
    have hnext : (bytes.take start).reverse.getD (p - 1) 0 = bytes[start] := by
      rw [List.getD_eq_getElem?_getD, List.getElem?_reverse (by omega), hlength,
        List.getElem?_take_of_lt (by omega), show start - 1 - (p - 1) = start - p by omega,
        ← h.getElem? (by omega) hs, List.getElem?_eq_getElem (by omega), Option.getD_some]
    have htake : bytes[start] :: (bytes.take start).reverse =
        (bytes.take (start + 1)).reverse := by
      rw [List.take_succ_eq_append_getElem (by omega), List.reverse_append]
      rfl
    rw [repeatByte, hnext, htake, ih (by omega) (by omega), Nat.add_assoc, Nat.add_comm 1]

private theorem periodicBlock_writes {p : Nat} {bytes : Bytes} (h : Period.Has p bytes) (hp : 1 ≤ p)
    (hl : p ≤ periodLimit) (hc : p + lastMatchMargin ≤ bytes.length) :
    (periodicBlock p bytes).Writes bytes := by
  have hmargin : tailLength + minMatch ≤ lastMatchMargin := by decide
  have hsmall : periodLimit < 65536 := by decide
  have htake : (bytes.take p).length = p := by
    rw [List.length_take]
    omega
  have hdrop : (bytes.drop (bytes.length - tailLength)).length = tailLength := by
    rw [List.length_drop]
    omega
  constructor
  case grounded =>
    dsimp only [periodicBlock, Grounded]
    rw [htake]
    exact ⟨hp, by omega, by omega, by omega, trivial⟩
  case apart =>
    intro s hs
    obtain rfl : (⟨bytes.take p, p, bytes.length - p - tailLength⟩ : Sequence) = s :=
      Option.some.inj hs
    dsimp only [periodicBlock]
    rw [hdrop]
    omega
  case size_eq =>
    dsimp only [periodicBlock, Block.size, List.foldr_cons, List.foldr_nil]
    rw [htake, hdrop]
    omega
  case expand_eq =>
    have hrepeat := repeatByte_of_has h hp (bytes.length - p - tailLength) (Nat.le_refl p)
      (by omega)
    have hlength : p + (bytes.length - p - tailLength) = bytes.length - tailLength := by omega
    rw [hlength] at hrepeat
    dsimp only [Block.expand, periodicBlock, expandFrom]
    rw [@List.reverseAux_eq _ (bytes.take p), List.append_nil, hrepeat, List.reverseAux_eq,
      ← List.reverse_append, List.reverse_reverse, List.take_append_drop]
  case encode_empty =>
    rintro rfl
    exact absurd hc (by simp; omega)
  case length_le =>
    have hsequence := Sequence.length_encode_le
      ⟨bytes.take p, p, bytes.length - p - tailLength⟩
    have htail := length_encodeTail_le (bytes.drop (bytes.length - tailLength)) 0
    have hfive : tailLength = 5 := rfl
    dsimp only at hsequence
    rw [htake] at hsequence
    rw [hdrop] at htail
    dsimp only [Block.encode, periodicBlock]
    rw [List.flatMap_cons, List.flatMap_nil, List.append_nil, List.length_append]
    omega

theorem ofBytes_writes (bytes : Bytes) : (Block.ofBytes bytes).Writes bytes := by
  unfold Block.ofBytes
  split
  · exact literals_writes bytes
  · split
    · exact literals_writes bytes
    · next p hp =>
      obtain ⟨hhas, hpos⟩ := Period.has_of_shortest? hp
      split
      · next hc => exact periodicBlock_writes hhas hpos (Period.shortest?_le hp) hc
      · exact literals_writes bytes

end NativeCodec.Lz4
