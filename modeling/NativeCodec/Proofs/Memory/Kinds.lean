import NativeCodec.Proofs.Memory.Destination

set_option autoImplicit false
set_option relaxedAutoImplicit false

namespace NativeCodec

variable {m : Memory}

theorem Range.holds_of_target {r : Range} {place offset : Nat}
    (ht : r.start.target? = some (place, offset)) (hin : offset + r.length ≤ m.size place)
    (hc : r.length < countLimit) : r.Holds m ((m.get place).read offset r.length) := by
  have hlength : ((m.get place).read offset r.length).length = r.length := by
    rw [Storage.length_read]
    change offset + r.length ≤ (m.get place).size at hin
    omega
  refine ⟨hlength.symm, ?_, by rw [hlength]; exact hc⟩
  unfold Memory.read?
  split
  · next hz => rw [List.length_eq_zero_iff.mp (hlength.trans hz)]
  · rw [ht]
    rfl

namespace Argument

section View

variable {v : View} (hv : v.contiguous = true) (hc : m.size v.place < countLimit)

include hv

private theorem source?_view : (view v).source? m =
    .ok { start := ⟨.managed v.place, 0⟩, length := m.size v.place, owner := v.type,
          readOnly := v.readOnly } := by
  change (if v.contiguous = false then _ else _) = _
  rw [if_neg (by simp [hv]), checkBounds_whole]
  rfl

include hc

/-- A view without gaps shows its storage, whatever its items and its shape are. -/
theorem shows_view : (view v).Shows m (m.get v.place).bytes := by
  have hread : (m.get v.place).read 0 (m.size v.place) = (m.get v.place).bytes := by
    rw [Storage.read_eq, List.drop_zero]
    exact List.take_of_length_le (Nat.le_of_eq (Storage.length_bytes _))
  refine ⟨_, source?_view hv, ?_⟩
  rw [← hread]
  exact Range.holds_of_target rfl (Nat.le_of_eq (Nat.zero_add _)) hc

theorem takes_view (hr : v.readOnly = false) : (view v).Takes m (m.get v.place).bytes := by
  obtain ⟨r, hsource, hholds⟩ := shows_view hv hc
  refine ⟨r, ?_, hholds⟩
  have howned := Except.ok.inj (hsource.symm.trans (source?_view hv))
  rw [destination?, hsource]
  change r.writable? = _
  rw [Range.writable?, howned, if_neg (by simp [hr])]

end View

section Direct

variable {b : DirectBuffer} (hb : b.size ≤ m.size b.place) (hc : b.size < countLimit)

private theorem source?_direct : (direct b).source? m =
    .ok { start := ⟨.near b.place 0, 0⟩, length := b.size, owner := DirectBuffer.type,
          readOnly := false } := by
  change (checkBounds 0 none b.size).map _ = _
  rw [checkBounds_whole]
  rfl

include hb hc

theorem shows_direct : (direct b).Shows m (b.contents m) :=
  ⟨_, source?_direct, Range.holds_of_target rfl (show 0 + b.size ≤ _ by omega) hc⟩

theorem takes_direct : (direct b).Takes m (b.contents m) := by
  obtain ⟨r, hsource, hholds⟩ := shows_direct hb hc
  have howned := Except.ok.inj (hsource.symm.trans source?_direct)
  refine ⟨r, ?_, hholds⟩
  rw [destination?, hsource]
  change r.writable? = _
  rw [Range.writable?, howned, if_neg (by simp)]

end Direct

theorem range?_of_source {a : Argument} {s : Range} (hs : a.source? m = .ok s) (offset : Int)
    (length : Option Int) : a.range? m offset length = s.slice? offset length := by
  cases a with
  | view v =>
    by_cases hv : v.contiguous = true
    · rw [source?_view hv] at hs
      rw [← Except.ok.inj hs]
      change (if v.contiguous = false then _ else _) = _
      rw [if_neg (by simp [hv]), Range.slice?]
      simp only [Pointer.advance, Nat.zero_add]
    · change (if v.contiguous = false then _ else _) = _ at hs
      rw [if_pos (Bool.eq_false_iff.mpr hv)] at hs
      exact absurd hs (by simp)
  | direct b =>
    rw [source?_direct] at hs
    rw [← Except.ok.inj hs, Range.slice?]
    simp only [range?, Pointer.advance, Nat.zero_add]
  | range r =>
    rw [← Except.ok.inj hs]
    rfl
  | other type => exact absurd hs (by simp [source?, range?])

/-- An object that is not taken is of no supported kind, and every part of it is refused for
that. -/
theorem range?_of_source_error {a : Argument} {e : Error} (hs : a.source? m = .error e) :
    e.kind = .unsupportedBuffer ∧ ∀ offset length, a.range? m offset length = .error e := by
  cases a with
  | range r => exact absurd hs (by simp [source?])
  | direct b => exact absurd (source?_direct.symm.trans hs) (by simp)
  | other type =>
    obtain rfl := Except.error.inj hs
    exact ⟨rfl, fun _ _ => rfl⟩
  | view v =>
    cases hv : v.contiguous with
    | true => exact absurd ((source?_view hv).symm.trans hs) (by simp)
    | false =>
      have hgaps (offset : Int) (length : Option Int) :
          (view v).range? m offset length = .error (.gaps v.type) := if_pos hv
      obtain rfl := Except.error.inj ((hgaps 0 none).symm.trans hs)
      exact ⟨rfl, hgaps⟩

theorem Shows.part {a : Argument} {bytes : Bytes} (h : a.Shows m bytes) {offset : Int}
    {length : Option Int} {r : Range} (hr : a.range? m offset length = .ok r) :
    r.Holds m ((bytes.drop offset.toNat).take r.length) := by
  obtain ⟨s, hs, hholds⟩ := h
  rw [range?_of_source hs] at hr
  obtain ⟨o, l, rfl, hl, hfits, rfl⟩ := Range.slice?_eq_ok_iff.mp hr
  obtain ⟨t, ht, hpart⟩ := hholds.part o l hl (hholds.length_eq ▸ hfits)
  obtain rfl := Except.ok.inj (ht.symm.trans hr)
  exact hpart

end Argument

end NativeCodec
