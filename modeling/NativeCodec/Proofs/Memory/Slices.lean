import NativeCodec.Proofs.Memory.Chain
import NativeCodec.Proofs.Memory.Kinds

/-!
Slices of slices.

Whether there is a slice depends on its bounds and the length of the range alone (`BoundsFit`). A
slice is a part of its range (`Range.IsPart`), a part of a part is a part, and so a chain of slices
gives one part of the first range if it gives anything (`Argument.reach_range_eq_ok_iff`), however
long it is. `Range.slices_compose` is what this comes to.
-/

set_option autoImplicit false
set_option relaxedAutoImplicit false

namespace NativeCodec

/-- The length that is meant from an offset on. -/
def meantLength (offset : Int) (length : Option Int) (size : Nat) : Int :=
  length.getD (size - offset)

/-- A part with the given bounds lies inside something of the given size. -/
structure BoundsFit (offset : Int) (length : Option Int) (size : Nat) : Prop where
  offset_nonneg : 0 ≤ offset
  length_nonneg : 0 ≤ meantLength offset length size
  inside : offset + meantLength offset length size ≤ size

/-- A range is the part of another from an offset on, of the given length. It is of the same object
and the same kind, shows that part of what the other shows, and has no byte that the other has not.
-/
structure Range.IsPart (r s : Range) (m : Memory) (offset length : Int) : Prop where
  owner_eq : s.owner = r.owner
  readOnly_eq : s.readOnly = r.readOnly
  base_eq : s.start.base = r.start.base
  isForeign_eq : s.isForeign = r.isForeign
  offset_eq : (s.offset : Int) = r.offset + offset
  length_eq : (s.length : Int) = length
  inside : 0 ≤ offset ∧ offset + length ≤ r.length
  read_eq : ∀ bytes, m.read? r.start r.length = some bytes →
    m.read? s.start s.length = some ((bytes.drop offset.toNat).take length.toNat)
  covers : ∀ place index, s.Covers place index → r.Covers place index

variable {offset : Int} {length : Option Int} {size : Nat}

private theorem checkBounds_of_fit (h : BoundsFit offset length size) :
    checkBounds offset length size =
      .ok (offset.toNat, (meantLength offset length size).toNat) := by
  have hoffset := h.offset_nonneg
  have hlength := h.length_nonneg
  have hinside := h.inside
  refine checkBounds_eq_ok_iff.mpr ⟨by omega, ?_, by omega⟩
  exact (Int.toNat_of_nonneg hlength).symm

private theorem checkBounds_of_not_fit (h : ¬BoundsFit offset length size) :
    ∃ e : Error, checkBounds offset length size = .error e ∧ e.kind = .value := by
  cases hbounds : checkBounds offset length size with
  | error e => exact ⟨e, rfl, kind_of_checkBounds_error hbounds⟩
  | ok b =>
    obtain ⟨ho, hl, hinside⟩ := checkBounds_eq_ok_iff.mp hbounds
    refine absurd ?_ h
    constructor
    · omega
    · unfold meantLength
      omega
    · unfold meantLength
      omega

namespace Range

variable {r s : Range} {m : Memory}

private theorem part_part (r : Range) (first second length length' : Nat) :
    (r.part first length).part second length' = r.part (first + second) length' := by
  unfold part
  rw [Pointer.advance_advance]

private theorem isPart_part {offset length : Nat} (h : offset + length ≤ r.length) (m : Memory) :
    r.IsPart (r.part offset length) m offset length where
  owner_eq := rfl
  readOnly_eq := rfl
  base_eq := rfl
  isForeign_eq := rfl
  offset_eq := rfl
  length_eq := rfl
  inside := by omega
  read_eq bytes hread := Memory.read?_advance hread h
  covers place index hc := hc.of_part rfl h

private theorem slice?_of_fit (h : BoundsFit offset length r.length) :
    r.slice? offset length =
      .ok (r.part offset.toNat (meantLength offset length r.length).toNat) := by
  unfold slice?
  rw [checkBounds_of_fit h]
  rfl

private theorem slice?_of_not_fit (h : ¬BoundsFit offset length r.length) :
    ∃ e : Error, r.slice? offset length = .error e ∧ e.kind = .value := by
  obtain ⟨e, hbounds, hkind⟩ := checkBounds_of_not_fit h
  unfold slice?
  rw [hbounds]
  exact ⟨e, rfl, hkind⟩

private theorem slice?_eq_part_iff :
    r.slice? offset length = .ok s ↔ BoundsFit offset length r.length ∧
      s = r.part offset.toNat (meantLength offset length r.length).toNat := by
  by_cases h : BoundsFit offset length r.length
  · rw [slice?_of_fit h]
    exact ⟨fun hs => ⟨h, (Except.ok.inj hs).symm⟩, fun hs => congrArg Except.ok hs.2.symm⟩
  · obtain ⟨e, he, -⟩ := slice?_of_not_fit h
    rw [he]
    exact ⟨fun hs => absurd hs (by simp), fun hs => absurd hs.1 h⟩

private theorem slice?_isOk_iff : (∃ s, r.slice? offset length = .ok s) ↔
    BoundsFit offset length r.length := by
  constructor
  · rintro ⟨s, hs⟩
    exact (slice?_eq_part_iff.mp hs).1
  · intro h
    exact ⟨_, slice?_of_fit h⟩

private theorem kind_of_slice?_error {e : Error} (h : r.slice? offset length = .error e) :
    e.kind = .value := by
  by_cases hfit : BoundsFit offset length r.length
  · rw [slice?_of_fit hfit] at h
    exact absurd h (by simp)
  · obtain ⟨e', he, hkind⟩ := slice?_of_not_fit hfit
    rw [← Except.error.inj (he.symm.trans h)]
    exact hkind

private theorem isPart_of_slice? (h : r.slice? offset length = .ok s) (m : Memory) :
    r.IsPart s m offset (meantLength offset length r.length) := by
  obtain ⟨hfit, rfl⟩ := slice?_eq_part_iff.mp h
  have hoffset := Int.toNat_of_nonneg hfit.offset_nonneg
  have hlength := Int.toNat_of_nonneg hfit.length_nonneg
  have hinside := hfit.inside
  have hends : offset.toNat + (meantLength offset length r.length).toNat ≤ r.length := by omega
  have hpart := isPart_part hends m
  rw [hoffset, hlength] at hpart
  exact hpart

private theorem slice?_of_slice? (h : r.slice? offset length = .ok s) {offset' : Int}
    {length' : Option Int} (hfit' : BoundsFit offset' length' s.length) :
    s.slice? offset' length' =
      r.slice? (offset + offset') (some (meantLength offset' length' s.length)) := by
  obtain ⟨hfit, rfl⟩ := slice?_eq_part_iff.mp h
  have hoffset := hfit.offset_nonneg
  have hlength := hfit.length_nonneg
  have hinside := hfit.inside
  have hoffset' := hfit'.offset_nonneg
  have hlength' := hfit'.length_nonneg
  have hinside' := hfit'.inside
  have hsize : ((r.part offset.toNat (meantLength offset length r.length).toNat).length : Int) =
      meantLength offset length r.length := Int.toNat_of_nonneg hlength
  have hboth : BoundsFit (offset + offset') (some (meantLength offset' length'
      (r.part offset.toNat (meantLength offset length r.length).toNat).length)) r.length := by
    refine ⟨by omega, hlength', ?_⟩
    change offset + offset' + meantLength offset' length' _ ≤ _
    omega
  rw [slice?_of_fit hfit', slice?_of_fit hboth, part_part, ← Int.toNat_add hoffset hoffset']
  rfl

end Range

/-- The bounds of a chain fit one after the other, each what the ones before it leave. -/
def Chain.Fit : Chain → Nat → Prop
  | [], _ => True
  | (offset, length) :: rest, size =>
    BoundsFit offset length size ∧ Fit rest (meantLength offset length size).toNat

def Chain.left : Chain → Nat → Nat
  | [], size => size
  | (offset, length) :: rest, size => left rest (meantLength offset length size).toNat

private theorem Chain.Fit.inside {chain : Chain} (h : chain.Fit size) :
    chain.distance + chain.left size ≤ size := by
  induction chain generalizing size with
  | nil => exact Nat.le_of_eq (Nat.zero_add size)
  | cons bounds rest ih =>
    obtain ⟨offset, length⟩ := bounds
    obtain ⟨hfit, hrest⟩ := h
    have hleft := ih hrest
    have hoffset := hfit.offset_nonneg
    have hlength := hfit.length_nonneg
    have hinside := hfit.inside
    unfold distance left
    omega

namespace Argument

variable {m : Memory} {r : Range} {chain : Chain}

/-- A chain of slices gives a range exactly when its bounds fit, and then one part of the first. -/
theorem reach_range_eq_ok_iff {a : Argument} :
    (range r).reach m chain = .ok a ↔
      chain.Fit r.length ∧ a = range (r.part chain.distance (chain.left r.length)) := by
  induction chain generalizing r with
  | nil =>
    have hpart : r.part 0 r.length = r := rfl
    unfold reach Chain.Fit Chain.distance Chain.left
    rw [hpart, true_and, Except.ok.injEq]
    exact eq_comm
  | cons bounds rest ih =>
    obtain ⟨offset, length⟩ := bounds
    change (r.slice? offset length).bind _ = _ ↔ (_ ∧ _) ∧ _
    by_cases hfit : BoundsFit offset length r.length
    · rw [Range.slice?_of_fit hfit]
      change (range _).reach m rest = _ ↔ _
      rw [ih, Range.part_part]
      exact ⟨fun h => ⟨⟨hfit, h.1⟩, h.2⟩, fun h => ⟨h.1.2, h.2⟩⟩
    · obtain ⟨e, he, -⟩ := Range.slice?_of_not_fit hfit
      rw [he]
      exact ⟨fun h => absurd h (by simp [Except.bind]), fun h => absurd h.1.1 hfit⟩

private theorem range?_whole (m : Memory) (a : Argument) : a.range? m 0 none = a.source? m := by
  cases a with
  | range r =>
    change (checkBounds 0 none r.length).map _ = _
    rw [checkBounds_whole]
    rfl
  | _ => rfl

private theorem range?_eq_slice? (m : Memory) (a : Argument) (offset : Int) (length : Option Int) :
    a.range? m offset length = (a.range? m 0 none).bind fun r => r.slice? offset length := by
  rw [range?_whole]
  cases hs : a.source? m with
  | ok r => exact range?_of_source hs offset length
  | error e => exact (range?_of_source_error hs).2 offset length

private theorem isPart_of_reach {s : Range} (h : (range r).reach m chain = .ok (range s)) :
    r.IsPart s m chain.distance s.length ∧
      r.slice? chain.distance (some s.length) = .ok s := by
  obtain ⟨hfit, hs⟩ := reach_range_eq_ok_iff.mp h
  obtain rfl := Argument.range.inj hs
  have hinside := hfit.inside
  refine ⟨Range.isPart_part hinside m, ?_⟩
  exact Range.slice?_eq_ok_iff.mpr ⟨_, _, rfl, rfl, hinside, rfl⟩

end Argument

/-- A slice of a range exists exactly when its bounds fit, and the bounds are what an error is
about. It is the part that the bounds name; its slices are those of the range whose bounds fit the
slice, with both offsets together. A chain of slices gives a range exactly when its bounds fit in
turn, and then one slice of the first range. A part of a range is its slice, and a part of an
object a slice of the whole object, with the same errors. -/
theorem Range.slices_compose (m : Memory) :
    (∀ (r : Range) (offset : Int) (length : Option Int),
      ((∃ s, r.slice? offset length = .ok s) ↔ BoundsFit offset length r.length) ∧
      (∀ e, r.slice? offset length = .error e → e.kind = .value) ∧
      ∀ s, r.slice? offset length = .ok s →
        r.IsPart s m offset (meantLength offset length r.length) ∧
        ∀ (offset' : Int) (length' : Option Int),
          ((∃ t, s.slice? offset' length' = .ok t) ↔ BoundsFit offset' length' s.length) ∧
          (BoundsFit offset' length' s.length → s.slice? offset' length' =
            r.slice? (offset + offset') (some (meantLength offset' length' s.length)))) ∧
    (∀ (r : Range) (chain : Chain),
      ((∃ s, (Argument.range r).reach m chain = .ok (.range s)) ↔ chain.Fit r.length) ∧
      ∀ s, (Argument.range r).reach m chain = .ok (.range s) →
        r.IsPart s m chain.distance s.length ∧
        r.slice? chain.distance (some s.length) = .ok s) ∧
    (∀ (r : Range) (offset : Int) (length : Option Int),
      (Argument.range r).range? m offset length = r.slice? offset length) ∧
    ∀ (a : Argument) (offset : Int) (length : Option Int),
      a.range? m offset length = (a.range? m 0 none).bind fun r => r.slice? offset length := by
  refine ⟨?_, ?_, fun r offset length => rfl, Argument.range?_eq_slice? m⟩
  · intro r offset length
    refine ⟨slice?_isOk_iff, fun e => kind_of_slice?_error, ?_⟩
    intro s hs
    exact ⟨isPart_of_slice? hs m, fun offset' length' => ⟨slice?_isOk_iff, slice?_of_slice? hs⟩⟩
  · intro r chain
    refine ⟨?_, fun s => Argument.isPart_of_reach⟩
    constructor
    · rintro ⟨s, hs⟩
      exact (Argument.reach_range_eq_ok_iff.mp hs).1
    · intro hfit
      exact ⟨_, Argument.reach_range_eq_ok_iff.mpr ⟨hfit, rfl⟩⟩

/-- A part of the middle of a range ends where that middle does, however far the range goes on. -/
theorem Range.slices_compose_middle :
    let m := Memory.holding [1, 2, 3, 4, 5]
    let r : Range := ⟨⟨.managed 0, 0⟩, 5, "bytes", true⟩
    ∃ s, r.slice? 1 (some 3) = .ok s ∧ m.read? s.start s.length = some [2, 3, 4] ∧
      s.slice? 1 none = r.slice? 2 (some 2) ∧ ¬∃ t, s.slice? 1 (some 3) = .ok t := by
  intro m r
  obtain ⟨hslices, -, -⟩ := slices_compose m
  have hfit : BoundsFit 1 (some 3) r.length := ⟨by decide, by decide, by decide⟩
  obtain ⟨s, hs⟩ := (hslices r 1 (some 3)).1.mpr hfit
  obtain ⟨hpart, hnext⟩ := (hslices r 1 (some 3)).2.2 s hs
  have hlength : s.length = 3 := Int.ofNat.inj hpart.length_eq
  refine ⟨s, hs, hpart.read_eq [1, 2, 3, 4, 5] (by decide), ?_, ?_⟩
  · have hrest : BoundsFit 1 none s.length := by
      rw [hlength]
      exact ⟨by decide, by decide, by decide⟩
    rw [(hnext 1 none).2 hrest, hlength]
    rfl
  · rw [(hnext 1 (some 3)).1, hlength]
    intro houtside
    exact absurd houtside.inside (by decide)

end NativeCodec
