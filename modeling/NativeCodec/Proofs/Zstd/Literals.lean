import NativeCodec.Zstd.Literals

set_option autoImplicit false
set_option relaxedAutoImplicit false

namespace NativeCodec.Zstd

namespace Huffman.Tree

private theorem length_symbols {t : Tree} {count : Nat} {out out' : Bytes} {bits rest : List Bool}
    (h : t.symbols count out bits = some (out', rest)) : out'.length = out.length + count := by
  induction count generalizing out bits with
  | zero =>
    obtain ⟨rfl, -⟩ : out = out' ∧ bits = rest := by simpa [symbols] using h
    rfl
  | succ count ih =>
    rw [symbols] at h
    split at h
    · exact absurd h (by simp)
    · have := ih h
      rw [List.length_cons] at this
      omega

private theorem length_stream {t : Tree} {count : Nat} {out out' bytes : Bytes}
    (h : t.stream count out bytes = some out') : out'.length = out.length + count := by
  unfold stream at h
  split at h
  · exact absurd h (by simp)
  · split at h
    · next hs => exact Option.some.inj h ▸ length_symbols hs
    · exact absurd h (by simp)

private theorem length_fourStreams {t : Tree} {count : Nat} {bytes out : Bytes}
    (h : t.fourStreams count bytes = some out) : out.length = count := by
  unfold fourStreams at h
  dsimp only at h
  split at h
  · exact absurd h (by simp)
  · split at h
    · exact absurd h (by simp)
    · next hc =>
      split at h
      · exact absurd h (by simp)
      · split at h
        · exact absurd h (by simp)
        · split at h
          · exact absurd h (by simp)
          · obtain ⟨first, h₁, h⟩ := Option.bind_eq_some_iff.mp h
            obtain ⟨second, h₂, h⟩ := Option.bind_eq_some_iff.mp h
            obtain ⟨third, h₃, h⟩ := Option.bind_eq_some_iff.mp h
            have := length_stream h₁
            have := length_stream h₂
            have := length_stream h₃
            have := length_stream h
            rw [List.length_nil] at *
            omega

end Huffman.Tree

private theorem length_decodeLiterals {code : Huffman.Tree} {format count : Nat}
    {bytes literals : Bytes}
    (h : decodeLiterals code format count bytes = some literals) : literals.length = count := by
  unfold decodeLiterals at h
  obtain ⟨reversed, hr, rfl⟩ := Option.map_eq_some_iff.mp h
  rw [List.length_reverse]
  split at hr
  · rw [Huffman.Tree.length_stream hr, List.length_nil, Nat.zero_add]
  · exact Huffman.Tree.length_fourStreams hr

section Room

variable {code code' : Option Huffman.Tree} {room header format : Nat} {src literals rest : Bytes}
  (other : Nat)

private theorem guard_eq {count : Nat} {result : LiteralResult} {value}
    (h : (if min maxBlock room < count then .error .destinationTooSmall else result) = .ok value) :
    (if min maxBlock other < count then .error .destinationTooSmall else result) =
        (if count ≤ min maxBlock other then .ok value else .error .destinationTooSmall) ∧
      result = .ok value := by
  split at h
  · exact absurd h (by simp)
  · refine ⟨?_, h⟩
    by_cases hc : count ≤ min maxBlock other
    · rw [if_neg (Nat.not_lt.mpr hc), if_pos hc, h]
    · rw [if_pos (Nat.not_le.mp hc), if_neg hc]

private theorem readRaw_eq (h : readRaw code room header format src = .ok (literals, code', rest)) :
    readRaw code other header format src =
      if literals.length ≤ min maxBlock other then .ok (literals, code', rest)
      else .error .destinationTooSmall := by
  unfold readRaw at h ⊢
  dsimp only at h ⊢
  split at h
  · exact absurd h (by simp)
  · next hw =>
    obtain ⟨hguard, hread⟩ := guard_eq other h
    rw [if_neg hw, hguard]
    split at hread
    · exact absurd hread (by simp)
    · next now later hs =>
      obtain ⟨rfl, -, -⟩ : now = literals ∧ code = code' ∧ later = rest := by simpa using hread
      rw [(Bytes.split?_eq_some hs).2]

private theorem readRepeated_eq
    (h : readRepeated code room header format src = .ok (literals, code', rest)) :
    readRepeated code other header format src =
      if literals.length ≤ min maxBlock other then .ok (literals, code', rest)
      else .error .destinationTooSmall := by
  unfold readRepeated at h ⊢
  dsimp only at h ⊢
  split at h
  · exact absurd h (by simp)
  · next b after hs =>
    split at h
    · exact absurd h (by simp)
    · next hm =>
      obtain ⟨hguard, hread⟩ := guard_eq other h
      obtain ⟨rfl, -, -⟩ : _ = literals ∧ code = code' ∧ after = rest := by simpa using hread
      rw [if_neg hm, hguard, List.length_replicate]

private theorem readCoded_eq {fresh : Bool}
    (h : readCoded code fresh room header format src = .ok (literals, code', rest)) :
    readCoded code fresh other header format src =
      if literals.length ≤ min maxBlock other then .ok (literals, code', rest)
      else .error .destinationTooSmall := by
  unfold readCoded at h ⊢
  dsimp only at h ⊢
  split at h
  · exact absurd h (by simp)
  next hf =>
  rw [if_neg hf]
  split at h
  · exact absurd h (by simp)
  next hw =>
  rw [if_neg hw]
  split at h
  · exact absurd h (by simp)
  next hm =>
  rw [if_neg hm]
  split at h
  · exact absurd h (by simp)
  next hl =>
  rw [if_neg hl]
  split at h
  · exact absurd h (by simp)
  · obtain ⟨hguard, hread⟩ := guard_eq other h
    rw [hguard]
    split at hread
    · exact absurd hread (by simp)
    · split at hread
      · exact absurd hread (by simp)
      · next now hd =>
        obtain ⟨rfl, -, -⟩ : now = literals ∧ _ = code' ∧ _ = rest := by simpa using hread
        rw [length_decodeLiterals hd]

/-- The room is compared with the number of literals and is not looked at for anything else. -/
theorem readLiterals_eq (h : readLiterals code room src = .ok (literals, code', rest)) :
    readLiterals code other src =
      if literals.length ≤ min maxBlock other then .ok (literals, code', rest)
      else .error .destinationTooSmall := by
  unfold readLiterals at h ⊢
  dsimp only at h ⊢
  split at h
  · exact absurd h (by simp)
  · next hs =>
    rw [if_neg hs]
    split at h
    · exact readRaw_eq other h
    · exact readRepeated_eq other h
    · exact readCoded_eq other h
    · exact readCoded_eq other h

theorem length_readLiterals_le (h : readLiterals code room src = .ok (literals, code', rest)) :
    literals.length ≤ min maxBlock room := by
  have hsame := readLiterals_eq room h
  split at hsame
  · assumption
  · exact absurd (h.symm.trans hsame) (by simp)

end Room

end NativeCodec.Zstd
