import NativeCodec.Proofs.Memory.Window

set_option autoImplicit false
set_option relaxedAutoImplicit false

namespace NativeCodec

/-- The bounds of parts in turn: an offset and, unless all the rest is meant, a length. -/
abbrev Chain := List (Int × Option Int)

/-- How far the parts of a chain lead in all. -/
def Chain.distance : Chain → Nat
  | [] => 0
  | (offset, _) :: rest => offset.toNat + distance rest

theorem Pointer.advance_advance (p : Pointer) (first second : Nat) :
    (p.advance first).advance second = p.advance (first + second) := by
  unfold advance
  rw [Nat.add_assoc]

private theorem eq_ok_of_map_checkBounds {α : Type} {f : Nat × Nat → α} {offset : Int}
    {length : Option Int} {size : Nat} {a : α}
    (h : (checkBounds offset length size).map f = .ok a) :
    ∃ o l : Nat, offset = o ∧ o + l ≤ size ∧ f (o, l) = a := by
  cases hb : checkBounds offset length size with
  | error e => simp [hb, Except.map] at h
  | ok part =>
    obtain ⟨ho, -, hle⟩ := checkBounds_eq_ok_iff.mp hb
    rw [hb] at h
    exact ⟨part.1, part.2, ho, hle, Except.ok.inj h⟩

namespace Argument

/-- What is reached by taking parts of parts of an object. -/
def reach (m : Memory) : Argument → Chain → Except Error Argument
  | a, [] => .ok a
  | a, (offset, length) :: rest => (a.range? m offset length).bind fun r => reach m (range r) rest

/-- Where the bytes of an object start. -/
def origin? : Argument → Option Pointer
  | view v => some ⟨.managed v.place, 0⟩
  | direct b => some b.start
  | range r => some r.start
  | other _ => none

/-- How many bytes an object has. -/
def extent (m : Memory) : Argument → Nat
  | view v => m.size v.place
  | direct b => b.size
  | range r => r.length
  | other _ => 0

/-- A part of an object starts its offset after the object, and ends inside it. -/
theorem range?_origin {m : Memory} {a : Argument} {offset : Int} {length : Option Int} {r : Range}
    (h : a.range? m offset length = .ok r) :
    ∃ p, a.origin? = some p ∧ r.start = p.advance offset.toNat ∧
      offset.toNat + r.length ≤ a.extent m := by
  cases a with
  | view v =>
    change (if v.contiguous = false then _ else _) = _ at h
    split at h
    · exact absurd h (by simp)
    · obtain ⟨o, l, rfl, hle, rfl⟩ := eq_ok_of_map_checkBounds h
      exact ⟨_, rfl, by simp [Pointer.advance], hle⟩
  | direct b =>
    obtain ⟨o, l, rfl, hle, rfl⟩ := eq_ok_of_map_checkBounds h
    exact ⟨_, rfl, by simp [Pointer.advance, DirectBuffer.start], hle⟩
  | range s =>
    obtain ⟨o, l, rfl, -, hle, rfl⟩ := Range.slice?_eq_ok_iff.mp h
    exact ⟨_, rfl, rfl, hle⟩
  | other type => exact absurd h (by simp [range?])

private theorem source?_origin {m : Memory} {a : Argument} {r : Range} (h : a.source? m = .ok r) :
    ∃ p, a.origin? = some p ∧ r.start = p ∧ r.length ≤ a.extent m := by
  cases a with
  | range s =>
    rw [← Except.ok.inj h]
    exact ⟨_, rfl, rfl, Nat.le_refl _⟩
  | view v =>
    obtain ⟨p, hp, hstart, hle⟩ := range?_origin (show range? m 0 none (view v) = .ok r from h)
    exact ⟨p, hp, hstart, by simpa using hle⟩
  | direct b =>
    obtain ⟨p, hp, hstart, hle⟩ := range?_origin (show range? m 0 none (direct b) = .ok r from h)
    exact ⟨p, hp, hstart, by simpa using hle⟩
  | other type => exact absurd h (by simp [source?, range?])

theorem apart_of_ne {a b : Argument} {p q : Pointer} {first first' : Nat × Int}
    (ha : a.origin? = some p) (hb : b.origin? = some q) (hp : p.location? = some first)
    (hq : q.location? = some first') (hne : first.1 ≠ first'.1) (m : Memory) : a.Apart b m := by
  intro r s hr hs
  obtain ⟨p', hp', hstart, -⟩ := source?_origin hr
  obtain ⟨q', hq', hstart', -⟩ := source?_origin hs
  obtain rfl := Option.some.inj (ha.symm.trans hp')
  obtain rfl := Option.some.inj (hb.symm.trans hq')
  exact Range.apart_of_ne (hstart ▸ hp) (hstart' ▸ hq) hne

/-- However a range is reached, it starts where the object does plus all the offsets, and ends
inside the object. -/
theorem source?_reach {m : Memory} {a b : Argument} {chain : Chain} {r : Range}
    (hb : a.reach m chain = .ok b) (hr : b.source? m = .ok r) :
    ∃ p, a.origin? = some p ∧ r.start = p.advance chain.distance ∧
      chain.distance + r.length ≤ a.extent m := by
  induction chain generalizing a with
  | nil =>
    rw [← Except.ok.inj hb] at hr
    obtain ⟨p, hp, hstart, hle⟩ := source?_origin hr
    exact ⟨p, hp, hstart, by simpa [Chain.distance] using hle⟩
  | cons step rest ih =>
    obtain ⟨offset, length⟩ := step
    unfold reach at hb
    cases hpart : a.range? m offset length with
    | error e => simp [hpart, Except.bind] at hb
    | ok part =>
      rw [hpart] at hb
      obtain ⟨p, hp, hstart, hle⟩ := range?_origin hpart
      obtain ⟨q, hq, hfrom, hin⟩ := ih hb
      rw [← Option.some.inj hq, hstart, Pointer.advance_advance] at hfrom
      refine ⟨p, hp, hfrom, ?_⟩
      have hextent : (range part).extent m = part.length := rfl
      unfold Chain.distance
      omega

end Argument

end NativeCodec
