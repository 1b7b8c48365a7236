import NativeCodec.Proofs.Lz4.Encoding

/-!
The grammar of LZ4 blocks.

Whatever a reader takes off the front of some bytes is what would be written for it, so that bytes
which can be walked to their end are an encoded block, and that of one block only. `unpack` decodes
bytes with no regard to room. The walk over the headers therefore recognises the encodings of blocks
whose matches have something to copy, and gives the length of what they stand for
(`blockLength?_recognises`).
-/

set_option autoImplicit false
set_option relaxedAutoImplicit false

namespace NativeCodec.Lz4

section Readers

variable {nibble n : Nat} {bytes rest literals : Bytes} {copy : Copy}

private theorem eq_of_readExtension {length : Nat}
    (h : readExtension length bytes = some (n, rest)) :
    ∃ (count : Nat) (b : UInt8), b ≠ 255 ∧ n = length + 255 * count + b.toNat ∧
      bytes = List.replicate count 255 ++ b :: rest := by
  induction bytes generalizing length with
  | nil => simp [readExtension] at h
  | cons b bytes ih =>
    unfold readExtension at h
    split at h
    · next hb =>
      obtain ⟨count, last, hlast, hn, hbytes⟩ := ih h
      refine ⟨count + 1, last, hlast, by omega, ?_⟩
      rw [hb, hbytes, List.replicate_succ, List.cons_append]
    · next hb =>
      simp only [Option.some.injEq, Prod.mk.injEq] at h
      obtain ⟨rfl, rfl⟩ := h
      exact ⟨0, b, hb, by omega, rfl⟩

theorem eq_of_readLength (hn : nibble < 16) (h : readLength nibble bytes = some (n, rest)) :
    nibble = lengthNibble n ∧ bytes = lengthExtension n ++ rest := by
  unfold readLength at h
  unfold lengthNibble lengthExtension
  split at h
  · obtain ⟨count, b, hb, hvalue, hbytes⟩ := eq_of_readExtension h
    have hlt : b.toNat < 255 := by
      have hle := b.toNat_lt
      have hne : b.toNat ≠ (255 : UInt8).toNat := fun hsame => hb (UInt8.toNat_inj.mp hsame)
      rw [show (255 : UInt8).toNat = 255 from rfl] at hne
      omega
    have hcount : (n - 15) / 255 = count := by omega
    have hlast : UInt8.ofNat ((n - 15) % 255) = b := by
      rw [show (n - 15) % 255 = b.toNat by omega]
      exact UInt8.ofNat_toNat
    rw [if_neg (by omega), hcount, hlast, List.append_assoc, List.singleton_append]
    exact ⟨by omega, hbytes⟩
  · simp only [Option.some.injEq, Prod.mk.injEq] at h
    obtain ⟨rfl, rfl⟩ := h
    rw [if_pos (by omega), List.nil_append]
    exact ⟨by omega, rfl⟩

private theorem eq_of_readCopy (hn : nibble < 16) (h : readCopy nibble bytes = some (copy, rest)) :
    minMatch ≤ copy.length ∧ copy.offset < 65536 ∧
      nibble = lengthNibble (copy.length - minMatch) ∧
      bytes = Bytes.ofNat 2 copy.offset ++ (lengthExtension (copy.length - minMatch) ++ rest) := by
  match bytes, h with
  | low :: high :: bytes, h =>
    simp only [readCopy, Option.map_eq_some_iff, Prod.mk.injEq, Prod.exists] at h
    obtain ⟨length, after, hlength, rfl, rfl⟩ := h
    obtain ⟨hnibble, hbytes⟩ := eq_of_readLength hn hlength
    have hlow := low.toNat_lt
    have hhigh := high.toNat_lt
    have hoffset : Bytes.ofNat 2 (low.toNat + 256 * high.toNat) = [low, high] :=
      Bytes.ofNat_toNat [low, high]
    dsimp only
    rw [Nat.add_sub_cancel, hoffset]
    exact ⟨Nat.le_add_left _ _, by omega, hnibble, congrArg (low :: high :: ·) hbytes⟩

private theorem token_of_halves (t : UInt8) : token (t.toNat / 16) (t.toNat % 16) = t := by
  rw [token, show t.toNat / 16 * 16 + t.toNat % 16 = t.toNat by omega]
  exact UInt8.ofNat_toNat

theorem Piece.eq_of_read?_last (h : Piece.read? bytes = some (.last literals)) :
    ∃ spare, bytes = encodeTail literals spare := by
  match bytes, h with
  | t :: bytes, h =>
    simp only [Piece.read?] at h
    split at h
    · simp at h
    · next count more hl =>
      split at h
      · simp at h
      · next found hs =>
        simp only [Option.some.injEq, Piece.last.injEq] at h
        subst h
        have ht := t.toNat_lt
        obtain ⟨hnibble, hbytes⟩ := eq_of_readLength (by omega) hl
        obtain ⟨hmore, hcount⟩ := Bytes.split?_eq_some hs
        rw [List.append_nil] at hmore
        subst hmore hcount
        refine ⟨⟨t.toNat % 16, Nat.mod_lt _ (by decide)⟩, ?_⟩
        rw [encodeTail, ← hnibble, token_of_halves, hbytes]
      · split at h <;> simp at h

theorem Piece.eq_of_read?_inner (h : Piece.read? bytes = some (.inner literals copy rest)) :
    minMatch ≤ copy.length ∧ copy.offset < 65536 ∧
      bytes = Sequence.encode ⟨literals, copy.offset, copy.length⟩ ++ rest := by
  match bytes, h with
  | t :: bytes, h =>
    simp only [Piece.read?] at h
    split at h
    · simp at h
    · next count more hl =>
      split at h
      · simp at h
      · simp at h
      · next found after _ hs =>
        split at h
        · simp at h
        · next c r hc =>
          simp only [Option.some.injEq, Piece.inner.injEq] at h
          obtain ⟨rfl, rfl, rfl⟩ := h
          have ht := t.toNat_lt
          obtain ⟨hhigh, hbytes⟩ := eq_of_readLength (by omega) hl
          obtain ⟨hmore, hcount⟩ := Bytes.split?_eq_some hs
          obtain ⟨hmin, hoffset, hlow, hafter⟩ := eq_of_readCopy (by omega) hc
          subst hcount
          refine ⟨hmin, hoffset, ?_⟩
          rw [Sequence.encode, ← hhigh, ← hlow, token_of_halves, hbytes, hmore, hafter]
          simp only [List.cons_append, List.append_assoc]

end Readers

section Blocks

variable {produced n : Nat} {bytes : Bytes}

private theorem eq_of_walk (h : walk produced bytes = some n) :
    ∃ b : Block, Grounded produced b.sequences ∧ b.encode = bytes ∧ produced + b.size = n := by
  fun_induction walk produced bytes with
  | case1 produced bytes hr => exact absurd h (by simp)
  | case2 produced bytes literals hr =>
    obtain ⟨spare, hbytes⟩ := Piece.eq_of_read?_last hr
    exact ⟨⟨[], literals, spare⟩, trivial, hbytes.symm, Option.some.inj h⟩
  | case3 produced bytes literals copy rest hr here hc => exact absurd h (by simp)
  | case4 produced bytes literals copy rest hr here hc ih =>
    obtain ⟨hmin, hsmall, hbytes⟩ := Piece.eq_of_read?_inner hr
    obtain ⟨⟨sequences, tail, spare⟩, hgrounded, hencode, hsize⟩ := ih h
    refine ⟨⟨⟨literals, copy.offset, copy.length⟩ :: sequences, tail, spare⟩, ?_, ?_, ?_⟩
    · have hpos : 1 ≤ copy.offset := by omega
      have hreach : copy.offset ≤ produced + literals.length := by omega
      exact ⟨hpos, hreach, hmin, hsmall, hgrounded⟩
    · rw [hbytes, ← hencode]
      simp only [Block.encode, List.flatMap_cons, List.append_assoc]
    · simp only [Block.size, List.foldr_cons] at hsize ⊢
      omega

section Unique

variable {s s' : Sequence} {tail tail' rest rest' : Bytes} {spare spare' : Fin 16}

private theorem eq_of_encodeTail (h : encodeTail tail spare = encodeTail tail' spare') :
    tail = tail' ∧ spare = spare' := by
  have hlast := Piece.read?_encodeTail tail spare
  rw [h, Piece.read?_encodeTail] at hlast
  obtain rfl : tail = tail' := (Piece.last.inj (Option.some.inj hlast)).symm
  have htoken : token (lengthNibble tail.length) spare = token (lengthNibble tail.length) spare' :=
    (List.cons.inj h).1
  obtain ⟨-, hspare⟩ := token_halves (lengthNibble_lt tail.length) spare.isLt
  obtain ⟨-, hspare'⟩ := token_halves (lengthNibble_lt tail.length) spare'.isLt
  rw [htoken, hspare'] at hspare
  exact ⟨rfl, Fin.ext hspare.symm⟩

private theorem encodeTail_ne (hmin : minMatch ≤ s.matchLength) (hsmall : s.offset < 65536) :
    encodeTail tail spare ≠ s.encode ++ rest := by
  intro h
  have hlast := Piece.read?_encodeTail tail spare
  rw [h, Piece.read?_encode hmin hsmall] at hlast
  exact absurd hlast (by simp)

private theorem Sequence.eq_of_encode (hmin : minMatch ≤ s.matchLength) (hsmall : s.offset < 65536)
    (hmin' : minMatch ≤ s'.matchLength) (hsmall' : s'.offset < 65536)
    (h : s.encode ++ rest = s'.encode ++ rest') : s = s' ∧ rest = rest' := by
  have hinner := Piece.read?_encode hmin hsmall rest
  rw [h, Piece.read?_encode hmin' hsmall'] at hinner
  obtain ⟨hliterals, hcopy, hrest⟩ := Piece.inner.inj (Option.some.inj hinner)
  obtain ⟨hoffset, hlength⟩ := Copy.mk.inj hcopy
  refine ⟨?_, hrest.symm⟩
  cases s
  cases s'
  simp only [Sequence.mk.injEq]
  exact ⟨hliterals.symm, hoffset.symm, hlength.symm⟩

end Unique

private theorem encode_unique {sequences sequences' : List Sequence} {produced' : Nat}
    {tail tail' : Bytes}
    {spare spare' : Fin 16} (hg : Grounded produced sequences)
    (hg' : Grounded produced' sequences')
    (h : sequences.flatMap Sequence.encode ++ encodeTail tail spare =
      sequences'.flatMap Sequence.encode ++ encodeTail tail' spare') :
    sequences = sequences' ∧ tail = tail' ∧ spare = spare' := by
  induction sequences generalizing produced produced' sequences' with
  | nil =>
    cases sequences' with
    | nil =>
      rw [List.flatMap_nil, List.nil_append, List.nil_append] at h
      exact ⟨rfl, eq_of_encodeTail h⟩
    | cons s' sequences' =>
      obtain ⟨-, -, hmin, hsmall, -⟩ := hg'
      rw [List.flatMap_nil, List.nil_append, List.flatMap_cons, List.append_assoc] at h
      exact absurd h (encodeTail_ne hmin hsmall)
  | cons s sequences ih =>
    obtain ⟨-, -, hmin, hsmall, hrest⟩ := hg
    rw [List.flatMap_cons, List.append_assoc] at h
    cases sequences' with
    | nil =>
      rw [List.flatMap_nil, List.nil_append] at h
      exact absurd h.symm (encodeTail_ne hmin hsmall)
    | cons s' sequences' =>
      obtain ⟨-, -, hmin', hsmall', hrest'⟩ := hg'
      rw [List.flatMap_cons, List.append_assoc] at h
      obtain ⟨rfl, hmore⟩ := Sequence.eq_of_encode hmin hsmall hmin' hsmall' h
      obtain ⟨rfl, htail⟩ := ih hrest hrest' hmore
      exact ⟨rfl, htail⟩

private theorem Block.eq_of_encode {b b' : Block} (hg : Grounded 0 b.sequences)
    (hg' : Grounded 0 b'.sequences) (h : b.encode = b'.encode) : b = b' := by
  obtain ⟨hsequences, htail, hspare⟩ := encode_unique hg hg' h
  cases b
  cases b'
  simp only [Block.mk.injEq]
  exact ⟨hsequences, htail, hspare⟩

end Blocks

/-- Decodes the sequences ahead onto `out`, kept newest first, however much room that takes:
literals are taken over, and a match is copied byte by byte if its offset names a byte that is
there. -/
def unpackFrom (out : Bytes) (bytes : Bytes) : Option Bytes :=
  match _h : Piece.read? bytes with
  | none => none
  | some (.last literals) => some (literals.reverseAux out).reverse
  | some (.inner literals copy rest) =>
    let here := literals.reverseAux out
    if copy.offset = 0 ∨ here.length < copy.offset then none
    else unpackFrom (repeatByte copy.offset copy.length here) rest
  termination_by bytes.length
  decreasing_by exact Piece.read?_rest_lt ‹_›

/-- Decodes a block, however much room that takes. -/
def unpack (bytes : Bytes) : Option Bytes := unpackFrom [] bytes

section Unpack

variable {out bytes : Bytes}

private theorem length_repeatByte (offset length : Nat) (out : Bytes) :
    (repeatByte offset length out).length = length + out.length := by
  induction length generalizing out with
  | zero => rw [repeatByte, Nat.zero_add]
  | succ length ih =>
    rw [repeatByte, ih, List.length_cons]
    omega

private theorem length_onto (literals out : Bytes) :
    (literals.reverseAux out).length = out.length + literals.length := by
  rw [List.reverseAux_eq, List.length_append, List.length_reverse, Nat.add_comm]

private theorem length_unpackFrom (out bytes : Bytes) :
    (unpackFrom out bytes).map List.length = walk out.length bytes := by
  fun_induction unpackFrom out bytes with
  | case1 out bytes hr => rw [walk_none hr, Option.map_none]
  | case2 out bytes literals hr =>
    rw [walk_last hr, Option.map_some, List.length_reverse, length_onto]
  | case3 out bytes literals copy rest hr here hc =>
    have hhere : here.length = out.length + literals.length := length_onto literals out
    rw [walk_inner hr, ← hhere, if_pos hc, Option.map_none]
  | case4 out bytes literals copy rest hr here hc ih =>
    have hhere : here.length = out.length + literals.length := length_onto literals out
    rw [walk_inner hr, ← hhere, if_neg hc, ih, length_repeatByte, Nat.add_comm]

private theorem unpackFrom_last {literals : Bytes} (h : Piece.read? bytes = some (.last literals)) :
    unpackFrom out bytes = some (literals.reverseAux out).reverse := by
  rw [unpackFrom]
  split
  · next hp => exact absurd (h.symm.trans hp) (by simp)
  · next hp => rw [Piece.last.inj (Option.some.inj (h.symm.trans hp))]
  · next hp => exact absurd (h.symm.trans hp) (by simp)

private theorem unpackFrom_inner {literals rest : Bytes} {copy : Copy}
    (h : Piece.read? bytes = some (.inner literals copy rest)) (hz : copy.offset ≠ 0)
    (hl : copy.offset ≤ (literals.reverseAux out).length) :
    unpackFrom out bytes =
      unpackFrom (repeatByte copy.offset copy.length (literals.reverseAux out)) rest := by
  rw [unpackFrom]
  split
  · next hp => exact absurd (h.symm.trans hp) (by simp)
  · next hp => exact absurd (h.symm.trans hp) (by simp)
  · next hp =>
    obtain ⟨rfl, rfl, rfl⟩ := Piece.inner.inj (Option.some.inj (h.symm.trans hp))
    dsimp only
    rw [if_neg (by omega)]

private theorem unpackFrom_encode {sequences : List Sequence} (hg : Grounded out.length sequences)
    (tail : Bytes) (spare : Fin 16) :
    unpackFrom out (sequences.flatMap Sequence.encode ++ encodeTail tail spare) =
      some (expandFrom out sequences tail) := by
  induction sequences generalizing out with
  | nil =>
    rw [List.flatMap_nil, List.nil_append, unpackFrom_last (Piece.read?_encodeTail tail spare)]
    rfl
  | cons s sequences ih =>
    obtain ⟨hpos, hreach, hmin, hsmall, hrest⟩ := hg
    have hhere := length_onto s.literals out
    have hafter : (repeatByte s.offset s.matchLength (s.literals.reverseAux out)).length =
        out.length + s.literals.length + s.matchLength := by
      rw [length_repeatByte, hhere, Nat.add_comm]
    rw [List.flatMap_cons, List.append_assoc,
      unpackFrom_inner (Piece.read?_encode hmin hsmall _) (by dsimp only; omega)
        (by dsimp only; omega)]
    dsimp only
    rw [ih (hafter ▸ hrest), expandFrom]

private theorem unpack_encode {b : Block} (hg : Grounded 0 b.sequences) :
    unpack b.encode = some b.expand :=
  unpackFrom_encode (by rwa [List.length_nil]) b.tail b.spare

end Unpack

/-- The walk over the headers of any bytes comes to an end. It gives a size exactly if the bytes are
the encoding of a block whose matches all have something to copy, and then the size of that block,
which is the only one with this encoding. Bytes decode, with no regard to room, exactly if they are
such an encoding, and then to what the block stands for: the size is the length of that. -/
theorem blockLength?_recognises (bytes : Bytes) :
    (∀ n, blockLength? bytes = some n ↔
      ∃ b : Block, Grounded 0 b.sequences ∧ b.encode = bytes ∧ b.size = n) ∧
    (∀ b b' : Block, Grounded 0 b.sequences → Grounded 0 b'.sequences → b.encode = bytes →
      b'.encode = bytes → b = b') ∧
    (∀ out, unpack bytes = some out ↔
      ∃ b : Block, Grounded 0 b.sequences ∧ b.encode = bytes ∧ b.expand = out) ∧
    blockLength? bytes = (unpack bytes).map List.length := by
  have hlength : (unpack bytes).map List.length = blockLength? bytes := length_unpackFrom [] bytes
  have hblock : ∀ n, blockLength? bytes = some n →
      ∃ b : Block, Grounded 0 b.sequences ∧ b.encode = bytes ∧ b.size = n := by
    intro n h
    obtain ⟨b, hgrounded, hencode, hsize⟩ := eq_of_walk h
    exact ⟨b, hgrounded, hencode, by rw [← hsize, Nat.zero_add]⟩
  refine ⟨fun n => ⟨hblock n, ?_⟩, ?_, fun out => ⟨?_, ?_⟩, hlength.symm⟩
  · rintro ⟨b, hgrounded, rfl, rfl⟩
    exact blockLength?_encode hgrounded
  · intro b b' hgrounded hgrounded' hencode hencode'
    exact Block.eq_of_encode hgrounded hgrounded' (hencode.trans hencode'.symm)
  · intro h
    -- what decodes has a size, so it is the encoding of a block
    have hsome : blockLength? bytes = some out.length := by rw [← hlength, h, Option.map_some]
    obtain ⟨b, hgrounded, rfl, -⟩ := hblock out.length hsome
    rw [unpack_encode hgrounded] at h
    exact ⟨b, hgrounded, rfl, Option.some.inj h⟩
  · rintro ⟨b, hgrounded, rfl, rfl⟩
    exact unpack_encode hgrounded

/-- A half-token of the last literals may be anything, and a block does not end behind a match. -/
example : blockLength? [0x14, 7, 1, 0, 0x0F] = some 9 ∧ blockLength? [0x14, 7, 1, 0] = none := by
  decide +kernel

end NativeCodec.Lz4
