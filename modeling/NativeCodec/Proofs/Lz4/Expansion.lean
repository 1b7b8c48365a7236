import NativeCodec.Lz4.Decode
import NativeCodec.Proofs.BackReference

set_option autoImplicit false
set_option relaxedAutoImplicit false

namespace NativeCodec.Lz4

/-- The most that one byte can add to a length. -/
def byteWorth : Nat := 255

private theorem readExtension_worth {length n : Nat} {bytes rest : Bytes}
    (h : readExtension length bytes = some (n, rest)) :
    n + byteWorth * rest.length ≤ length + byteWorth * bytes.length := by
  unfold byteWorth
  induction bytes generalizing length with
  | nil => simp [readExtension] at h
  | cons b bytes ih =>
    unfold readExtension at h
    rw [List.length_cons]
    split at h
    · have := ih h
      omega
    · simp only [Option.some.injEq, Prod.mk.injEq] at h
      obtain ⟨rfl, rfl⟩ := h
      have := b.toNat_lt
      omega

private theorem readLength_worth {nibble n : Nat} {bytes rest : Bytes}
    (h : readLength nibble bytes = some (n, rest)) :
    n + byteWorth * rest.length ≤ nibble + byteWorth * bytes.length := by
  unfold readLength at h
  split at h
  · next hn => exact hn ▸ readExtension_worth h
  · simp only [Option.some.injEq, Prod.mk.injEq] at h
    obtain ⟨rfl, rfl⟩ := h
    exact Nat.le_refl _

private theorem readCopy_worth {nibble : Nat} {copy : Copy} {bytes rest : Bytes}
    (h : readCopy nibble bytes = some (copy, rest)) (hn : nibble < 16) :
    copy.length + byteWorth * rest.length ≤ byteWorth * bytes.length := by
  match bytes, h with
  | low :: high :: bytes, h =>
    simp only [readCopy, Option.map_eq_some_iff, Prod.mk.injEq, Prod.exists] at h
    obtain ⟨n, r, hr, rfl, rfl⟩ := h
    have := readLength_worth hr
    simp only [List.length_cons, minMatch]
    unfold byteWorth at *
    omega

private theorem Piece.read?_last_length {bytes literals : Bytes}
    (h : Piece.read? bytes = some (.last literals)) : literals.length < bytes.length := by
  match bytes, h with
  | t :: bytes, h =>
    simp only [Piece.read?] at h
    split at h
    · simp at h
    · next count more hl =>
      have h₁ := readLength_length_le hl
      split at h
      · simp at h
      · next lits hs =>
        simp only [Option.some.injEq, Piece.last.injEq] at h
        subst h
        have h₂ := congrArg List.length (Bytes.split?_eq_some hs).1
        simp only [List.append_nil] at h₂
        rw [List.length_cons]
        omega
      · split at h <;> simp at h

private theorem Piece.read?_inner_worth {bytes literals rest : Bytes} {copy : Copy}
    (h : Piece.read? bytes = some (.inner literals copy rest)) :
    literals.length + copy.length + byteWorth * rest.length ≤ byteWorth * bytes.length := by
  match bytes, h with
  | t :: bytes, h =>
    simp only [Piece.read?] at h
    split at h
    · simp at h
    · next count more hl =>
      have h₁ := readLength_length_le hl
      split at h
      · simp at h
      · simp at h
      · next lits after _ hs =>
        split at h
        · simp at h
        · next c r hc =>
          simp only [Option.some.injEq, Piece.inner.injEq] at h
          obtain ⟨rfl, rfl, rfl⟩ := h
          have h₂ := congrArg List.length (Bytes.split?_eq_some hs).1
          have h₃ := readCopy_worth hc (Nat.mod_lt _ (by decide))
          rw [List.length_append] at h₂
          rw [List.length_cons]
          unfold byteWorth at *
          omega

theorem Copy.fits_iff {c : Copy} {capacity here : Nat} {rest : Bytes} :
    c.fits capacity here rest = true ↔
      here + literalMargin ≤ capacity ∧ sourceMargin - c.width ≤ rest.length ∧
        (c.width = 2 ∨ extensionMargin ≤ rest.length) ∧ c.offset ≠ 0 ∧ c.offset ≤ here ∧
        here + c.length + matchMargin ≤ capacity := by
  simp [Copy.fits, and_assoc]

theorem length_copied {capacity produced : Nat} {out literals rest : Bytes} {copy : Copy}
    (hf : copy.fits capacity (produced + literals.length) rest = true)
    (hp : produced = out.length) :
    (copyMatch copy.offset copy.length (literals.reverseAux out)).length =
      produced + literals.length + copy.length := by
  obtain ⟨-, -, -, hz, ho, -⟩ := Copy.fits_iff.mp hf
  have hlits : (literals.reverseAux out).length = produced + literals.length := by
    rw [List.reverseAux_eq, List.length_append, List.length_reverse]
    omega
  rw [length_copyMatch copy.length hz (hlits ▸ ho), hlits]

/-- The sequences of a block stand for so many bytes together. Where their matches reach is not
looked at. -/
inductive Spans : Bytes → Nat → Prop
  | last {bytes literals : Bytes} (h : Piece.read? bytes = some (.last literals)) :
    Spans bytes literals.length
  | inner {bytes literals rest : Bytes} {copy : Copy} {count : Nat}
    (h : Piece.read? bytes = some (.inner literals copy rest)) (hrest : Spans rest count) :
    Spans bytes (literals.length + copy.length + count)

theorem Spans.le_expansion {bytes : Bytes} {count : Nat} (h : Spans bytes count) :
    count ≤ byteWorth * bytes.length := by
  induction h with
  | last h =>
    have hl := Piece.read?_last_length h
    unfold byteWorth
    omega
  | inner h _ ih =>
    have hw := Piece.read?_inner_worth h
    omega

private theorem decodeFrom_spans {capacity produced : Nat} {out bytes result : Bytes}
    (h : decodeFrom capacity out produced bytes = some result) (hp : produced = out.length) :
    result.length ≤ capacity ∧ ∃ count, Spans bytes count ∧ result.length = out.length + count := by
  fun_induction decodeFrom capacity out produced bytes with
  | case1 out produced bytes hr => simp at h
  | case2 out produced bytes literals hr hc =>
    simp only [Option.some.injEq] at h
    subst h
    simp only [List.length_reverse, List.reverseAux_eq, List.length_append]
    exact ⟨by omega, literals.length, .last hr, Nat.add_comm _ _⟩
  | case3 out produced bytes literals hr hc => simp at h
  | case4 out produced bytes literals copy rest hr here hf ih =>
    have hcopy := length_copied hf hp
    obtain ⟨hfits, count, hspans, hlength⟩ := ih h hcopy.symm
    exact ⟨hfits, _, .inner hr hspans, by omega⟩
  | case5 out produced bytes literals copy rest hr here hf => simp at h

theorem decode_spans {capacity : Nat} {bytes out : Bytes} (h : decode capacity bytes = some out) :
    out.length ≤ capacity ∧ Spans bytes out.length := by
  unfold decode at h
  split at h
  · split at h
    · next hbytes =>
      subst hbytes
      rw [← Option.some.inj h]
      exact ⟨Nat.zero_le _, .last (by decide)⟩
    · simp at h
  · obtain ⟨hfits, count, hspans, hlength⟩ := decodeFrom_spans h rfl
    rw [List.length_nil, Nat.zero_add] at hlength
    exact ⟨hfits, hlength ▸ hspans⟩

theorem length_decode_le_capacity {capacity : Nat} {bytes out : Bytes}
    (h : decode capacity bytes = some out) : out.length ≤ capacity := (decode_spans h).1

end NativeCodec.Lz4
