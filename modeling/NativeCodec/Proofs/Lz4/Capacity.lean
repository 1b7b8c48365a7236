import NativeCodec.Lz4.Length
import NativeCodec.Proofs.Lz4.Expansion

set_option autoImplicit false
set_option relaxedAutoImplicit false

namespace NativeCodec.Lz4

private theorem Copy.fits_room {c : Copy} {capacity room here : Nat} {rest : Bytes}
    (h : c.fits capacity here rest = true) (hr : capacity ≤ room) :
    c.fits room here rest = true := by
  rw [Copy.fits_iff] at h ⊢
  omega

private theorem readExtension_le {length n : Nat} {bytes rest : Bytes}
    (h : readExtension length bytes = some (n, rest)) : length ≤ n := by
  induction bytes generalizing length with
  | nil => exact absurd h (by simp [readExtension])
  | cons b bytes ih =>
    unfold readExtension at h
    split at h
    · have := ih h
      omega
    · obtain ⟨hn, -⟩ := Prod.mk.inj (Option.some.inj h)
      omega

private theorem Piece.read?_last_worth {bytes literals : Bytes}
    (h : Piece.read? bytes = some (.last literals)) :
    bytes.length = literals.length + 1 ∨ 15 ≤ literals.length := by
  match bytes, h with
  | t :: bytes, h =>
    simp only [Piece.read?] at h
    split at h
    · exact absurd h (by simp)
    · next count more hl =>
      split at h
      · exact absurd h (by simp)
      · next lits hs =>
        obtain rfl := Piece.last.inj (Option.some.inj h)
        obtain ⟨hmore, hcount⟩ := Bytes.split?_eq_some hs
        unfold readLength at hl
        split at hl
        · have := readExtension_le hl
          exact Or.inr (by omega)
        · obtain ⟨-, rfl⟩ := Prod.mk.inj (Option.some.inj hl)
          rw [hmore, List.append_nil]
          exact Or.inl rfl
      · split at h
        · exact absurd h (by simp)
        · exact absurd h (by simp)

private theorem readCopy_minMatch_le {nibble : Nat} {bytes rest : Bytes} {copy : Copy}
    (h : readCopy nibble bytes = some (copy, rest)) : minMatch ≤ copy.length := by
  match bytes, h with
  | low :: high :: more, h =>
    simp only [readCopy, Option.map_eq_some_iff, Prod.mk.injEq, Prod.exists] at h
    obtain ⟨n, r, -, rfl, -⟩ := h
    exact Nat.le_add_left minMatch n

private theorem Piece.minMatch_le {bytes literals rest : Bytes} {copy : Copy}
    (h : Piece.read? bytes = some (.inner literals copy rest)) : minMatch ≤ copy.length := by
  match bytes, h with
  | t :: bytes, h =>
    simp only [Piece.read?] at h
    split at h
    · exact absurd h (by simp)
    · split at h
      · exact absurd h (by simp)
      · exact absurd h (by simp)
      · split at h
        · exact absurd h (by simp)
        · next c r hc =>
          obtain ⟨-, rfl, rfl⟩ := Piece.inner.inj (Option.some.inj h)
          exact readCopy_minMatch_le hc

private theorem Copy.width_eq_two_iff {c : Copy} : c.width = 2 ↔ c.length - minMatch < 15 := by
  unfold width extensionWidth
  split
  · omega
  · omega

theorem length_last {out literals result : Bytes}
    (h : some (literals.reverseAux out).reverse = some result) :
    result.length = out.length + literals.length := by
  rw [← Option.some.inj h, List.reverseAux_eq, List.length_reverse, List.length_append,
    List.length_reverse, Nat.add_comm]

section Capacity

variable {capacity room produced : Nat} {out bytes result : Bytes}

private theorem decodeFrom_room (h : decodeFrom capacity out produced bytes = some result)
    (hr : capacity ≤ room) : decodeFrom room out produced bytes = some result := by
  fun_induction decodeFrom capacity out produced bytes with
  | case1 out produced bytes hp => exact absurd h (by simp)
  | case2 out produced bytes literals hp hc =>
    rw [decodeFrom_last hp, if_pos (Nat.le_trans hc hr), h]
  | case3 out produced bytes literals hp hc => exact absurd h (by simp)
  | case4 out produced bytes literals copy rest hp here hf ih =>
    rw [decodeFrom_inner hp, if_pos (Copy.fits_room hf hr)]
    exact ih h
  | case5 out produced bytes literals copy rest hp here hf => exact absurd h (by simp)

private theorem walk_of_decodeFrom (h : decodeFrom capacity out produced bytes = some result)
    (hp : produced = out.length) : walk produced bytes = some result.length := by
  fun_induction decodeFrom capacity out produced bytes with
  | case1 out produced bytes hr => exact absurd h (by simp)
  | case2 out produced bytes literals hr hc =>
    rw [walk_last hr, hp, length_last h]
  | case3 out produced bytes literals hr hc => exact absurd h (by simp)
  | case4 out produced bytes literals copy rest hr here hf ih =>
    obtain ⟨-, -, -, hz, ho, -⟩ := Copy.fits_iff.mp hf
    rw [walk_inner hr, if_neg (by omega)]
    exact ih h (length_copied hf hp).symm
  | case5 out produced bytes literals copy rest hr here hf => exact absurd h (by simp)

private theorem decodeFrom_grows (h : decodeFrom capacity out produced bytes = some result)
    (hp : produced = out.length) :
    produced + min (bytes.length - 1) matchMargin ≤ result.length := by
  fun_induction decodeFrom capacity out produced bytes with
  | case1 out produced bytes hr => exact absurd h (by simp)
  | case2 out produced bytes literals hr hc =>
    have hlength := length_last h
    unfold matchMargin
    rcases Piece.read?_last_worth hr with hall | hmany
    · omega
    · omega
  | case3 out produced bytes literals hr hc => exact absurd h (by simp)
  | case4 out produced bytes literals copy rest hr here hf ih =>
    have hrest := ih h (length_copied hf hp).symm
    have hmin := Piece.minMatch_le hr
    obtain ⟨-, hsource, hwidth, -⟩ := Copy.fits_iff.mp hf
    unfold sourceMargin extensionMargin matchMargin minMatch at *
    omega
  | case5 out produced bytes literals copy rest hr here hf => exact absurd h (by simp)

/-- The room beyond what a block decodes to with which more room makes no difference. -/
def slack : Nat := 3

private theorem decodeFrom_slack (h : decodeFrom room out produced bytes = some result)
    (hp : produced = out.length) (hc : result.length + slack ≤ capacity) :
    decodeFrom capacity out produced bytes = some result := by
  unfold slack at hc
  fun_induction decodeFrom room out produced bytes with
  | case1 out produced bytes hr => exact absurd h (by simp)
  | case2 out produced bytes literals hr hfit =>
    have hlength := length_last h
    rw [decodeFrom_last hr, if_pos (by omega), h]
  | case3 out produced bytes literals hr hfit => exact absurd h (by simp)
  | case4 out produced bytes literals copy rest hr here hf ih =>
    have hrest := decodeFrom_grows h (length_copied hf hp).symm
    have hmin := Piece.minMatch_le hr
    have hshort := @Copy.width_eq_two_iff copy
    obtain ⟨-, hsource, hwidth, hz, ho, -⟩ := Copy.fits_iff.mp hf
    -- a match written in two bytes has six bytes after it, any other is long
    have hfits : copy.fits capacity here rest = true := by
      refine Copy.fits_iff.mpr ⟨?_, hsource, hwidth, hz, ho, ?_⟩
      · unfold literalMargin
        unfold sourceMargin extensionMargin matchMargin minMatch at *
        omega
      · unfold sourceMargin extensionMargin matchMargin minMatch at *
        omega
    rw [decodeFrom_inner hr, if_pos hfits]
    exact ih h (length_copied hf hp).symm
  | case5 out produced bytes literals copy rest hr here hf => exact absurd h (by simp)

end Capacity

/-- Whether no match of a block has the offset 0, as far as its headers can be read. -/
def zeroFree (bytes : Bytes) : Bool :=
  match _h : Piece.read? bytes with
  | none => true
  | some (.last _) => true
  | some (.inner _ copy rest) => copy.offset != 0 && zeroFree rest
  termination_by bytes.length
  decreasing_by exact Piece.read?_rest_lt ‹_›

private theorem zeroFree_of_walk {produced size : Nat} {bytes : Bytes}
    (h : walk produced bytes = some size) : zeroFree bytes = true := by
  fun_induction walk produced bytes with
  | case1 produced bytes hr => exact absurd h (by simp)
  | case2 produced bytes literals hr =>
    rw [zeroFree]
    split
    · rfl
    · rfl
    · next hp => exact absurd (hr.symm.trans hp) (by simp)
  | case3 produced bytes literals copy rest hr here ho => exact absurd h (by simp)
  | case4 produced bytes literals copy rest hr here ho ih =>
    rw [zeroFree]
    split
    · rfl
    · rfl
    · next hp =>
      obtain ⟨-, rfl, rfl⟩ := Piece.inner.inj (Option.some.inj (hr.symm.trans hp))
      rw [Bool.and_eq_true, bne_iff_ne]
      exact ⟨fun hz => ho (Or.inl hz), ih h⟩

section Block

variable {capacity room : Nat} {block out : Bytes}

theorem decodeFrom_zero (capacity : Nat) : decodeFrom capacity [] 0 [0] = some [] := by
  rw [decodeFrom_last (show Piece.read? [0] = some (.last []) by decide)]
  exact if_pos (Nat.zero_le capacity)

private theorem decodeFrom_of_decode (h : decode capacity block = some out) :
    decodeFrom capacity [] 0 block = some out := by
  unfold decode at h
  split at h
  · split at h
    · next hb => rw [hb, decodeFrom_zero, h]
    · exact absurd h (by simp)
  · exact h

theorem decode_of_decodeFrom (h : decodeFrom capacity [] 0 block = some out)
    (hc : capacity ≠ 0) : decode capacity block = some out := by
  rw [decode, if_neg hc, h]

/-- A larger destination changes nothing about what a block decodes to. -/
theorem decode_room (h : decode capacity block = some out) (hr : capacity ≤ room) :
    decode room block = some out := by
  by_cases hz : room = 0
  · obtain rfl : capacity = room := by omega
    exact h
  · exact decode_of_decodeFrom (decodeFrom_room (decodeFrom_of_decode h) hr) hz

private theorem decode_unique {other : Bytes} (h : decode capacity block = some out)
    (h' : decode room block = some other) : other = out := by
  have hmost := decode_room h (Nat.le_max_left capacity room)
  have hmost' := decode_room h' (Nat.le_max_right capacity room)
  exact Option.some.inj (hmost'.symm.trans hmost)

theorem blockLength?_of_decode (h : decode capacity block = some out) :
    blockLength? block = some out.length :=
  walk_of_decodeFrom (decodeFrom_of_decode h) rfl

theorem zeroFree_of_decode (h : decode capacity block = some out) : zeroFree block = true :=
  zeroFree_of_walk (blockLength?_of_decode h)

theorem decode_eq_none_of_lt (h : decode capacity block = some out) (hr : room < out.length) :
    decode room block = none := by
  cases hd : decode room block with
  | none => rfl
  | some other =>
    have hfit := length_decode_le_capacity hd
    rw [decode_unique h hd] at hfit
    omega

theorem decode_slack (h : decode room block = some out) (hc : out.length + slack ≤ capacity) :
    decode capacity block = some out := by
  have hz : capacity ≠ 0 := by
    unfold slack at hc
    omega
  exact decode_of_decodeFrom (decodeFrom_slack (decodeFrom_of_decode h) rfl hc) hz

end Block

end NativeCodec.Lz4
