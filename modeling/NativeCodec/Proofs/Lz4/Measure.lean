import NativeCodec.Proofs.Lz4.Capacity
import NativeCodec.Proofs.Lz4.Grammar

set_option autoImplicit false
set_option relaxedAutoImplicit false

namespace NativeCodec.Lz4

section Append

variable {bytes rest literals : Bytes} {copy : Copy} (more : Bytes)

private theorem Piece.read?_append_inner
    (h : Piece.read? bytes = some (.inner literals copy rest)) :
    Piece.read? (bytes ++ more) = some (.inner literals copy (rest ++ more)) := by
  obtain ⟨hmin, hsmall, hbytes⟩ := Piece.eq_of_read?_inner h
  rw [hbytes, List.append_assoc]
  exact Piece.read?_encode hmin hsmall (rest ++ more)

private theorem Piece.read?_append_last (h : Piece.read? bytes = some (.last literals))
    (hm : more ≠ []) : Piece.read? (bytes ++ more) = none ∨
      ∃ copy rest, Piece.read? (bytes ++ more) = some (.inner literals copy rest) := by
  obtain ⟨spare, hbytes⟩ := Piece.eq_of_read?_last h
  obtain ⟨hhigh, hlow⟩ := token_halves (lengthNibble_lt literals.length) spare.isLt
  rw [hbytes, encodeTail, List.cons_append, List.append_assoc, Piece.read?, hhigh,
    readLength_encoded]
  dsimp only
  rw [Bytes.split?_append, hlow]
  cases more with
  | nil => exact absurd rfl hm
  | cons b more =>
    dsimp only
    cases readCopy spare (b :: more) with
    | none => exact Or.inl rfl
    | some p => exact Or.inr ⟨p.1, p.2, rfl⟩

end Append

/-- Whether a match keeps the margins and reaches back no further than `here` bytes. -/
def Copy.Passes (c : Copy) (capacity here : Nat) (rest : Bytes) : Prop :=
  here + literalMargin ≤ capacity ∧ sourceMargin - c.width ≤ rest.length ∧
    (c.width = 2 ∨ extensionMargin ≤ rest.length) ∧ c.offset ≤ here ∧
    here + c.length + matchMargin ≤ capacity

instance (c : Copy) (capacity here : Nat) (rest : Bytes) :
    Decidable (c.Passes capacity here rest) := by
  unfold Copy.Passes
  infer_instance

private theorem Copy.Passes.append {c : Copy} {capacity here : Nat} {rest : Bytes}
    (h : c.Passes capacity here rest) (more : Bytes) : c.Passes capacity here (rest ++ more) := by
  obtain ⟨hroom, hsource, hextension, hreach, hmatch⟩ := h
  unfold Passes
  rw [List.length_append]
  exact ⟨hroom, by omega, by omega, hreach, hmatch⟩

/-- The number of bytes there are after the sequences ahead, if `produced` are there already. -/
def measureFrom (capacity produced : Nat) (bytes : Bytes) : Option Nat :=
  match _h : Piece.read? bytes with
  | none => none
  | some (.last literals) =>
    if produced + literals.length ≤ capacity then some (produced + literals.length) else none
  | some (.inner literals copy rest) =>
    let here := produced + literals.length
    if copy.Passes capacity here rest then measureFrom capacity (here + copy.length) rest else none
  termination_by bytes.length
  decreasing_by exact Piece.read?_rest_lt ‹_›

/-- The number of bytes that a block decompresses to at a capacity. -/
def measure (capacity : Nat) (bytes : Bytes) : Option Nat :=
  if capacity = 0 then (if bytes = [0] then some 0 else none) else measureFrom capacity 0 bytes

section Piece

variable {capacity produced : Nat} {bytes literals rest : Bytes} {copy : Copy}

private theorem measureFrom_none (h : Piece.read? bytes = none) :
    measureFrom capacity produced bytes = none := by
  rw [measureFrom]
  split
  · rfl
  · next hp => exact absurd (h.symm.trans hp) (by simp)
  · next hp => exact absurd (h.symm.trans hp) (by simp)

private theorem measureFrom_last (h : Piece.read? bytes = some (.last literals)) :
    measureFrom capacity produced bytes =
      if produced + literals.length ≤ capacity then some (produced + literals.length)
      else none := by
  rw [measureFrom]
  split
  · next hp => exact absurd (h.symm.trans hp) (by simp)
  · next hp => rw [Piece.last.inj (Option.some.inj (h.symm.trans hp))]
  · next hp => exact absurd (h.symm.trans hp) (by simp)

private theorem measureFrom_inner (h : Piece.read? bytes = some (.inner literals copy rest)) :
    measureFrom capacity produced bytes =
      if copy.Passes capacity (produced + literals.length) rest then
        measureFrom capacity (produced + literals.length + copy.length) rest
      else none := by
  rw [measureFrom]
  split
  · next hp => exact absurd (h.symm.trans hp) (by simp)
  · next hp => exact absurd (h.symm.trans hp) (by simp)
  · next hp =>
    obtain ⟨rfl, rfl, rfl⟩ := Piece.inner.inj (Option.some.inj (h.symm.trans hp))
    rfl

end Piece

section Block

variable {capacity : Nat} {block : Bytes}

private theorem measureFrom_of_decodeFrom {produced : Nat} {out bytes result : Bytes}
    (h : decodeFrom capacity out produced bytes = some result) (hp : produced = out.length) :
    measureFrom capacity produced bytes = some result.length := by
  fun_induction decodeFrom capacity out produced bytes with
  | case1 out produced bytes hr => exact absurd h (by simp)
  | case2 out produced bytes literals hr hc =>
    rw [measureFrom_last hr, if_pos hc, hp, length_last h]
  | case3 out produced bytes literals hr hc => exact absurd h (by simp)
  | case4 out produced bytes literals copy rest hr here hf ih =>
    obtain ⟨hroom, hsource, hextension, -, hreach, hmatch⟩ := Copy.fits_iff.mp hf
    rw [measureFrom_inner hr, if_pos ⟨hroom, hsource, hextension, hreach, hmatch⟩]
    exact ih h (length_copied hf hp).symm
  | case5 out produced bytes literals copy rest hr here hf => exact absurd h (by simp)

theorem measure_of_decode {out : Bytes} (h : decode capacity block = some out) :
    measure capacity block = some out.length := by
  unfold decode at h
  unfold measure
  split at h
  · next hz =>
    rw [if_pos hz]
    split at h
    · next hb =>
      rw [if_pos hb, ← Option.some.inj h]
      rfl
    · exact absurd h (by simp)
  · next hz =>
    rw [if_neg hz]
    exact measureFrom_of_decodeFrom h rfl

private theorem measureFrom_le {produced n : Nat} {bytes : Bytes}
    (h : measureFrom capacity produced bytes = some n) : n ≤ capacity := by
  fun_induction measureFrom capacity produced bytes with
  | case1 produced bytes hr => exact absurd h (by simp)
  | case2 produced bytes literals hr hc => exact Option.some.inj h ▸ hc
  | case3 produced bytes literals hr hc => exact absurd h (by simp)
  | case4 produced bytes literals copy rest hr here hf ih => exact ih h
  | case5 produced bytes literals copy rest hr here hf => exact absurd h (by simp)

theorem measure_le {n : Nat} (h : measure capacity block = some n) : n ≤ capacity := by
  unfold measure at h
  split at h
  · split at h
    · exact Option.some.inj h ▸ Nat.zero_le capacity
    · exact absurd h (by simp)
  · exact measureFrom_le h

private theorem measureFrom_append {produced : Nat} {bytes more : Bytes}
    (h : measureFrom capacity produced bytes = some capacity) (hm : more ≠ []) :
    measureFrom capacity produced (bytes ++ more) = none := by
  fun_induction measureFrom capacity produced bytes with
  | case1 produced bytes hr => exact absurd h (by simp)
  | case2 produced bytes literals hr hc =>
    have hfull := Option.some.inj h
    rcases Piece.read?_append_last more hr hm with hnone | ⟨copy, rest, hinner⟩
    · exact measureFrom_none hnone
    · rw [measureFrom_inner hinner, if_neg]
      -- a match has to leave room, and there is none
      rintro ⟨hroom, -⟩
      unfold literalMargin at hroom
      omega
  | case3 produced bytes literals hr hc => exact absurd h (by simp)
  | case4 produced bytes literals copy rest hr here hf ih =>
    rw [measureFrom_inner (Piece.read?_append_inner more hr), if_pos (hf.append more)]
    exact ih h
  | case5 produced bytes literals copy rest hr here hf => exact absurd h (by simp)

theorem measure_append {more : Bytes} (h : measure capacity block = some capacity)
    (hm : more ≠ []) : measure capacity (block ++ more) = none := by
  unfold measure at h ⊢
  split at h
  · next hz =>
    rw [if_pos hz]
    split at h
    · next hb =>
      rw [if_neg]
      rw [hb, List.cons_append, List.nil_append, List.cons.injEq]
      exact fun hnil => hm hnil.2
    · exact absurd h (by simp)
  · next hz =>
    rw [if_neg hz]
    exact measureFrom_append h hm

/-- Of two blocks that fill a destination neither starts with the other. -/
theorem eq_of_measure {other : Bytes} (h : measure capacity block = some capacity)
    (h' : measure capacity other = some capacity) (hp : block <+: other) : block = other := by
  obtain ⟨more, rfl⟩ := hp
  by_cases hm : more = []
  · rw [hm, List.append_nil]
  · rw [measure_append h hm] at h'
    exact absurd h' (by simp)

end Block

end NativeCodec.Lz4
