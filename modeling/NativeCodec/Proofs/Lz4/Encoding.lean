import NativeCodec.Lz4.Length

set_option autoImplicit false
set_option relaxedAutoImplicit false

namespace NativeCodec.Lz4

private theorem readExtension_replicate (count length : Nat) {b : UInt8} (hb : b ≠ 255)
    (rest : Bytes) :
    readExtension length (List.replicate count 255 ++ b :: rest) =
      some (length + 255 * count + b.toNat, rest) := by
  induction count generalizing length with
  | zero => simp [readExtension, hb]
  | succ count ih =>
    rw [List.replicate_succ, List.cons_append, readExtension, if_pos rfl, ih]
    congr 2
    omega

theorem readLength_encoded (n : Nat) (rest : Bytes) :
    readLength (lengthNibble n) (lengthExtension n ++ rest) = some (n, rest) := by
  unfold readLength lengthNibble lengthExtension
  by_cases hn : n < 15
  · rw [if_neg (by omega), if_pos hn, List.nil_append, Nat.min_eq_left (by omega)]
  · have hlast : (UInt8.ofNat ((n - 15) % 255)).toNat = (n - 15) % 255 := by
      rw [UInt8.toNat_ofNat']
      omega
    have hstop : UInt8.ofNat ((n - 15) % 255) ≠ 255 := by
      intro h
      have hsame : (n - 15) % 255 = 255 := by rw [← hlast, h]; rfl
      omega
    rw [if_pos (by omega), if_neg hn, List.append_assoc, List.singleton_append,
      readExtension_replicate _ _ hstop, hlast]
    congr 2
    omega

theorem lengthNibble_lt (n : Nat) : lengthNibble n < 16 := by
  unfold lengthNibble
  omega

theorem token_halves {high low : Nat} (hh : high < 16) (hl : low < 16) :
    (token high low).toNat / 16 = high ∧ (token high low).toNat % 16 = low := by
  have htoken : (token high low).toNat = high * 16 + low := by
    rw [token, UInt8.toNat_ofNat']
    omega
  omega

theorem Piece.read?_encode {s : Sequence} (hm : minMatch ≤ s.matchLength) (ho : s.offset < 65536)
    (rest : Bytes) :
    Piece.read? (s.encode ++ rest) =
      some (.inner s.literals ⟨s.offset, s.matchLength⟩ rest) := by
  obtain ⟨hhigh, hlow⟩ := token_halves (lengthNibble_lt s.literals.length)
    (lengthNibble_lt (s.matchLength - minMatch))
  obtain ⟨a, b, hoffset⟩ : ∃ a b, Bytes.ofNat 2 s.offset = [a, b] := ⟨_, _, rfl⟩
  have hvalue : a.toNat + 256 * b.toNat = s.offset := by
    have h := Bytes.toNat_ofNat 2 s.offset
    rw [hoffset, Nat.mod_eq_of_lt ho] at h
    simpa [Bytes.toNat] using h
  have hlits : readLength (lengthNibble s.literals.length)
      (lengthExtension s.literals.length ++
        (s.literals ++ (a :: b :: (lengthExtension (s.matchLength - minMatch) ++ rest)))) =
      some (s.literals.length,
        s.literals ++ (a :: b :: (lengthExtension (s.matchLength - minMatch) ++ rest))) :=
    readLength_encoded _ _
  have hcopy : readCopy (lengthNibble (s.matchLength - minMatch))
      (a :: b :: (lengthExtension (s.matchLength - minMatch) ++ rest)) =
      some (⟨s.offset, s.matchLength⟩, rest) := by
    rw [readCopy, readLength_encoded, hvalue, Option.map_some]
    dsimp only
    rw [Nat.sub_add_cancel hm]
  rw [Sequence.encode, hoffset]
  simp only [List.cons_append, List.append_assoc, List.nil_append, Piece.read?]
  rw [hhigh, hlits]
  dsimp only
  rw [Bytes.split?_append]
  dsimp only
  rw [hlow, hcopy]

theorem Piece.read?_encodeTail (tail : Bytes) (spare : Fin 16) :
    Piece.read? (encodeTail tail spare) = some (.last tail) := by
  obtain ⟨hhigh, -⟩ := token_halves (lengthNibble_lt tail.length) spare.isLt
  have hsplit : Bytes.split? tail.length tail = some (tail, []) := by
    have h := Bytes.split?_append tail []
    rwa [List.append_nil] at h
  rw [encodeTail, Piece.read?, hhigh, readLength_encoded]
  dsimp only
  rw [hsplit]

private theorem walk_encode {produced : Nat} {sequences : List Sequence}
    (hg : Grounded produced sequences)
    (tail : Bytes) (spare : Fin 16) :
    walk produced (sequences.flatMap Sequence.encode ++ encodeTail tail spare) =
      some (produced + Block.size ⟨sequences, tail, spare⟩) := by
  induction sequences generalizing produced with
  | nil =>
    rw [List.flatMap_nil, List.nil_append, walk_last (Piece.read?_encodeTail tail spare)]
    rfl
  | cons s sequences ih =>
    obtain ⟨hpos, hreach, hmin, hsmall, hrest⟩ := hg
    rw [List.flatMap_cons, List.append_assoc, walk_inner (Piece.read?_encode hmin hsmall _)]
    dsimp only
    rw [if_neg (by omega), ih hrest]
    simp only [Block.size, List.foldr_cons]
    congr 1
    omega

theorem blockLength?_encode {b : Block} (hg : Grounded 0 b.sequences) :
    blockLength? b.encode = some b.size := by
  have h := walk_encode hg b.tail b.spare
  rwa [Nat.zero_add] at h

end NativeCodec.Lz4
