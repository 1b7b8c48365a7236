import NativeCodec.Memory.Basic

/-!
Byte ranges.

A range is a run of bytes inside some memory; it never owns it. Ranges are narrowed by `slice?`,
whose bounds are counted inside the range and may leave out the length. `slice?_eq_ok_iff` says
when a slice exists, and `slice?_slice?` that a slice of a slice is a slice.
-/

set_option autoImplicit false
set_option relaxedAutoImplicit false

namespace NativeCodec

/-- A run of bytes: where it starts, how long it is, the type of the object that it was taken
from, and whether it must not be written. -/
structure Range where
  start : Pointer
  length : Nat
  owner : String
  readOnly : Bool
  deriving DecidableEq, Repr

/-- Checks an offset and a length against a size; without a length, what is left is meant. -/
def checkBounds (offset : Int) (length : Option Int) (size : Nat) : Except Error (Nat × Nat) :=
  if offset < 0 ∨ size < offset then .error (.offsetOutside offset size)
  else
    let length := length.getD (size - offset)
    if length < 0 ∨ size < offset + length then .error (.rangeOutside offset length size)
    else .ok (offset.toNat, length.toNat)

namespace Range

/-- How far into its memory a range starts. -/
def offset (r : Range) : Nat := r.start.offset

def isForeign (r : Range) : Bool := r.start.base.isForeign

/-- The part of a range from an offset on, of the given length or to the end. -/
def slice? (r : Range) (offset : Int) (length : Option Int) : Except Error Range :=
  (checkBounds offset length r.length).map fun (offset, length) =>
    { r with start := r.start.advance offset, length }

def count? (r : Range) : Except Error Nat :=
  if r.length < countLimit then .ok r.length else .error .tooLarge

def writable? (r : Range) : Except Error Range :=
  if r.readOnly then .error (.readOnly r.owner) else .ok r

/-- The range that a program knows by its base alone. -/
def foreign? (base : Base) (length : Int) (owner : String) : Except Error Range :=
  if length < 0 then .error (.negativeLength length)
  else if base = .address 0 ∧ length ≠ 0 then .error .nullAddress
  else .ok { start := ⟨base, 0⟩, length := length.toNat, owner, readOnly := false }

def describe (r : Range) : String :=
  let origin := if r.isForeign then "foreign" else "managed"
  s!"ByteRange<{origin}, offset={r.offset}, len={r.length}>"

end Range

theorem checkBounds_eq_ok_iff {offset : Int} {length : Option Int} {size o l : Nat} :
    checkBounds offset length size = .ok (o, l) ↔
      offset = o ∧ length.getD (size - offset) = l ∧ o + l ≤ size := by
  unfold checkBounds
  constructor
  · intro h
    split at h
    · simp at h
    · dsimp only at h
      split at h
      · simp at h
      · simp only [Except.ok.injEq, Prod.mk.injEq] at h
        omega
  · rintro ⟨rfl, hl, h⟩
    rw [if_neg (by omega)]
    dsimp only
    rw [if_neg (by omega)]
    simp only [Except.ok.injEq, Prod.mk.injEq]
    omega

/-- A slice exists exactly when its bounds lie inside the range. -/
theorem Range.slice?_eq_ok_iff {r s : Range} {offset : Int} {length : Option Int} :
    r.slice? offset length = .ok s ↔
      ∃ o l : Nat, offset = o ∧ length.getD (r.length - offset) = l ∧ o + l ≤ r.length ∧
        s = { r with start := r.start.advance o, length := l } := by
  unfold Range.slice?
  constructor
  · intro h
    cases hb : checkBounds offset length r.length with
    | error e => simp [hb, Except.map] at h
    | ok p =>
      obtain ⟨ho, hl, hs⟩ := checkBounds_eq_ok_iff.1 hb
      simp only [hb, Except.map, Except.ok.injEq] at h
      exact ⟨p.1, p.2, ho, hl, hs, h.symm⟩
  · rintro ⟨o, l, ho, hl, hs, rfl⟩
    rw [checkBounds_eq_ok_iff.2 ⟨ho, hl, hs⟩]
    rfl

theorem Range.slice?_slice? {r s t : Range} {o₁ o₂ : Int} {l₁ l₂ : Option Int}
    (h₁ : r.slice? o₁ l₁ = .ok s) (h₂ : s.slice? o₂ l₂ = .ok t) :
    r.slice? (o₁ + o₂) (some t.length) = .ok t := by
  obtain ⟨a, l, rfl, ha, hs, rfl⟩ := Range.slice?_eq_ok_iff.1 h₁
  obtain ⟨b, k, rfl, hb, ht, rfl⟩ := Range.slice?_eq_ok_iff.1 h₂
  refine Range.slice?_eq_ok_iff.2 ⟨a + b, k, by simp, by simp, ?_, ?_⟩
  · simp only at ht ⊢
    omega
  · simp [Pointer.advance, Nat.add_assoc]

end NativeCodec
