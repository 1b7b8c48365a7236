import NativeCodec.Proofs.Memory.Window
import NativeCodec.Proofs.Session.Handling

/-!
Copying into a range.

Copying takes the bytes that its source shows before it and puts them at the start of the range, or
it does nothing (`copied_or_unchanged`). The source may share bytes with the range. Storages that
were held on to before are held on to after it, and no others.
-/

set_option autoImplicit false
set_option relaxedAutoImplicit false

namespace NativeCodec

open Native

variable {σ : Type}

structure Range.LiesAt (r : Range) (m : Memory) (place offset : Nat) : Prop where
  target : r.start.target? = some (place, offset)
  placed : place < m.storages.length
  inside : offset + r.length ≤ m.size place

private theorem Range.Lies.liesAt {s : Session σ} (hs : s.Laid) {r : Range}
    (hr : .range r ∈ s.things)
    (hbase : ∀ n, r.start.base ≠ .address n) :
    ∃ place offset, r.LiesAt s.world.memory place offset := by
  have hlies : r.Lies s.things s.world.memory := hs.lies _ hr
  unfold Range.Lies at hlies
  split at hlies
  · next place hmanaged =>
    exact ⟨place, r.offset, by unfold Pointer.target?; rw [hmanaged]; rfl, hlies.1, hlies.2⟩
  · next place delta hnear =>
    obtain ⟨rfl, b, hb, rfl, hle⟩ := hlies
    obtain ⟨hplaced, hsize⟩ : (Thing.direct b).Lies s.things s.world.memory := hs.lies _ hb
    have htarget : r.start.target? = some (b.place, r.offset) := by
      unfold Pointer.target?
      rw [hnear]
      dsimp only
      rw [Int.zero_add, if_neg (by omega)]
      rfl
    exact ⟨b.place, r.offset, htarget, hplaced, Nat.le_trans hle hsize⟩
  · next n haddress => exact absurd haddress (hbase n)

namespace Memory

variable {r : Range} {m : Memory} {data : Bytes} {place offset : Nat}

private theorem write_of_liesAt (h : r.LiesAt m place offset) (data : Bytes) :
    m.write r.start data = m.set place ((m.get place).write offset data) := by
  unfold write
  rw [h.target]

private theorem get_write (h : r.LiesAt m place offset) (hd : data.length ≤ r.length) :
    ((m.write r.start data).get place).bytes =
        (m.get place).bytes.take offset ++ data ++
          (m.get place).bytes.drop (offset + data.length) ∧
      ∀ other, other ≠ place → (m.write r.start data).get other = m.get other := by
  rw [write_of_liesAt h]
  have hin : offset + data.length ≤ (m.get place).size :=
    Nat.le_trans (Nat.add_le_add_left hd offset) h.inside
  constructor
  · rw [get_set_self _ _ _ h.placed, Storage.bytes_write _ hin]
  · exact fun other hne => get_set_of_ne _ _ hne.symm

private theorem content_write (h : r.LiesAt m place offset) (hd : data.length ≤ r.length) :
    (Argument.range (r.part 0 data.length)).content (m.write r.start data) = data := by
  have hsize : (m.get place).bytes.length = m.size place := Storage.length_bytes _
  have hbefore : ((m.get place).bytes.take offset).length = offset := by
    have hinside := h.inside
    rw [List.length_take]
    omega
  have htarget : (r.part 0 data.length).start.target? = some (place, offset) := h.target
  have hread : ((m.write r.start data).get place).read offset data.length = data := by
    rw [Storage.read_eq, (get_write h hd).1, List.append_assoc, List.drop_append_of_le_length
      (Nat.le_of_eq hbefore.symm), List.drop_of_length_le (Nat.le_of_eq hbefore), List.nil_append,
      List.take_left]
  change ((m.write r.start data).read? (r.part 0 data.length).start data.length).getD [] = data
  unfold read?
  split
  · next hnone => exact (List.eq_nil_of_length_eq_zero hnone).symm
  · rw [htarget]
    exact hread

end Memory

namespace ByteSource

variable {data : ByteSource} {m m' : Memory} {r : Range} {p : ByteRun}

def bytes? (m : Memory) (data : ByteSource) : Except Error Bytes :=
  (data.run? m).map fun p => p.bytes m

def Flat : ByteSource → Prop
  | object (.view v) => v.contiguous = true
  | object _ => False
  | part v _ _ => v.contiguous = true

def ApartFrom (data : ByteSource) (m : Memory) (r : Range) : Prop :=
  ∀ p, data.run? m = .ok p → ∀ index, p.offset ≤ index → index < p.offset + p.length →
    ¬(r.part 0 p.length).Covers p.place index

private theorem run?_cases (data : ByteSource) (m : Memory) :
    (data.Flat ∧ ∃ p, data.run? m = .ok p ∧ p.length ≤ m.size p.place - p.offset) ∨
      (¬data.Flat ∧ data.run? m = .error .notFlat) := by
  cases data with
  | object a =>
    cases a with
    | view v =>
      have hpiece : (object (.view v)).run? m = Except.map (fun v => ⟨v.place, 0, m.size v.place⟩)
          (if v.contiguous then .ok v else .error .notFlat) := rfl
      rw [hpiece]
      by_cases hflat : v.contiguous = true
      · exact .inl ⟨hflat, _, by rw [if_pos hflat]; rfl, Nat.le_refl _⟩
      · exact .inr ⟨hflat, by rw [if_neg hflat]; rfl⟩
    | _ => exact .inr ⟨id, rfl⟩
  | part v offset length =>
    have hpiece : (part v offset length).run? m =
        Except.map (fun v => ⟨v.place, offset, min length (m.size v.place - offset)⟩)
          (if v.contiguous then .ok v else .error .notFlat) := rfl
    rw [hpiece]
    by_cases hflat : v.contiguous = true
    · exact .inl ⟨hflat, _, by rw [if_pos hflat]; rfl, Nat.min_le_right _ _⟩
    · exact .inr ⟨hflat, by rw [if_neg hflat]; rfl⟩

private theorem run?_congr (h : ∀ place, m'.size place = m.size place) (data : ByteSource) :
    data.run? m' = data.run? m := by
  unfold run?
  simp only [h]

private theorem bytes?_eq_ok {bytes : Bytes} (h : data.bytes? m = .ok bytes) :
    data.Flat ∧ ∃ p, data.run? m = .ok p ∧ bytes = p.bytes m ∧ p.length = bytes.length := by
  unfold bytes? at h
  rcases data.run?_cases m with ⟨hflat, p, hp, hinside⟩ | ⟨-, herror⟩
  · rw [hp] at h
    obtain rfl := Except.ok.inj h
    have hlength : p.length = (p.bytes m).length := by
      unfold ByteRun.bytes
      rw [Storage.length_read]
      exact (Nat.min_eq_left hinside).symm
    exact ⟨hflat, p, hp, rfl, hlength⟩
  · rw [herror] at h
    exact absurd h (by simp [Except.map])

private theorem bytes?_of_apartFrom {bytes : Bytes} (h : data.bytes? m = .ok bytes)
    (hapart : data.ApartFrom m r) (hm : Memory.SameOutside (r.part 0 bytes.length) m m') :
    data.bytes? m' = .ok bytes := by
  obtain ⟨-, p, hp, rfl, hlength⟩ := bytes?_eq_ok h
  have hsame : p.bytes m' = p.bytes m := by
    unfold ByteRun.bytes
    rw [Storage.read_eq, Storage.read_eq]
    refine List.ext_getElem? fun index => ?_
    rw [List.getElem?_take, List.getElem?_take, List.getElem?_drop, List.getElem?_drop]
    split
    · next hindex =>
      refine hm.byte_eq p.place (p.offset + index) ?_
      rw [← hlength]
      exact hapart p hp _ (Nat.le_add_right _ _) (Nat.add_lt_add_left hindex _)
    · rfl
  unfold bytes?
  rw [run?_congr hm.size_eq, hp, ← hsame]
  rfl

private theorem flat_iff (data : ByteSource) (m : Memory) :
    data.Flat ↔ ∃ bytes, data.bytes? m = .ok bytes := by
  constructor
  · intro hflat
    rcases data.run?_cases m with ⟨-, p, hp, -⟩ | ⟨hnot, -⟩
    · exact ⟨p.bytes m, by unfold bytes?; rw [hp]; rfl⟩
    · exact absurd hflat hnot
  · rintro ⟨bytes, h⟩
    exact (bytes?_eq_ok h).1

private theorem copyInto_of_not_flat (h : ¬data.Flat) (m : Memory) (r : Range) :
    copyInto m r data = .error .notFlat := by
  rcases data.run?_cases m with ⟨hflat, -⟩ | ⟨-, herror⟩
  · exact absurd hflat h
  · unfold copyInto
    rw [herror]
    rfl

private theorem copyInto_eq {bytes : Bytes} (h : data.bytes? m = .ok bytes) (r : Range) :
    copyInto m r data =
      if r.readOnly then .error (.readOnly r.owner)
      else if r.length < bytes.length then .error (.doesNotFit bytes.length r.length)
      else .ok (bytes.length, m.write r.start bytes) := by
  obtain ⟨-, p, hp, rfl, hlength⟩ := bytes?_eq_ok h
  unfold copyInto
  rw [hp, ← hlength]
  change (r.writable?.bind fun r => p.copyTo m r) = _
  unfold Range.writable?
  split
  · rfl
  · rfl

end ByteSource

namespace Act

open Session

/-- Bytes that were shown by a source before stand in a storage at the start of a range over it, and
no other storage is changed. The source shows them still, unless it shares bytes with the range. -/
structure CopiedAt (data : ByteSource) (r : Range) (bytes : Bytes) (m m' : Memory)
    (place offset : Nat) : Prop where
  replaced : (m'.get place).bytes = (m.get place).bytes.take offset ++ bytes ++
    (m.get place).bytes.drop (offset + bytes.length)
  others : ∀ other, other ≠ place → m'.get other = m.get other
  shown : ∃ first, r.slice? 0 (some bytes.length) = .ok first ∧
    (Argument.range first).content m' = bytes
  kept : data.ApartFrom m r → data.bytes? m' = .ok bytes

private theorem copiedAt_write {m : Memory} {r : Range} {data : ByteSource} {bytes : Bytes}
    {place offset : Nat} (hlies : r.LiesAt m place offset) (hbytes : data.bytes? m = .ok bytes)
    (hfit : bytes.length ≤ r.length) :
    CopiedAt data r bytes m (m.write r.start bytes) place offset where
  replaced := (Memory.get_write hlies hfit).1
  others := (Memory.get_write hlies hfit).2
  shown := by
    have hslice : r.slice? 0 (some (bytes.length : Int)) = .ok (r.part 0 bytes.length) :=
      Range.slice?_eq_ok_iff.mpr ⟨0, bytes.length, rfl, rfl, by omega, rfl⟩
    exact ⟨_, hslice, Memory.content_write hlies hfit⟩
  kept hapart := ByteSource.bytes?_of_apartFrom hbytes hapart
    (Memory.sameOutside_write (r.part 0 bytes.length) m (Nat.le_refl _))

/-- How copying into a range goes. Bytes that lie side by side, and fit into a range that may be
written, are put at its start; a range of the session has a storage for them, unless it is known by
a bare address. Otherwise nothing is done, and the error tells what kept it from being done: that
the source has no bytes side by side, that the range must not be written, or that the bytes do not
fit, whichever comes first. In no case is there a storage held on to after it that was not before,
or one no more. -/
structure CopiesOrNot (s : Session σ) (r : Range) (data : ByteSource)
    (after : Except Error Nat × Session σ) : Prop where
  copied : ∀ bytes, data.bytes? s.world.memory = .ok bytes → r.readOnly = false →
    bytes.length ≤ r.length → ∃ m', after = (.ok bytes.length, s.withMemory m') ∧
      ∀ place offset, r.LiesAt s.world.memory place offset →
        CopiedAt data r bytes s.world.memory m' place offset
  placed : s.Laid → .range r ∈ s.things → (∀ n, r.start.base ≠ .address n) →
    ∃ place offset, r.LiesAt s.world.memory place offset
  flat_iff : data.Flat ↔ ∃ bytes, data.bytes? s.world.memory = .ok bytes
  scattered : ¬data.Flat → ∃ e, after = (.error e, s) ∧ e.kind = .type
  readOnly : data.Flat → r.readOnly = true →
    ∃ e, after = (.error e, s) ∧ e.kind = .unsupportedBuffer
  long : ∀ bytes, data.bytes? s.world.memory = .ok bytes → r.readOnly = false →
    r.length < bytes.length → ∃ e, after = (.error e, s) ∧ e.kind = .value

/-- Copying takes the bytes that its source shows before it, so they may share bytes with the range,
or it does nothing. -/
theorem copied_or_unchanged (s : Session σ) (r : Range) (data : ByteSource) :
    CopiesOrNot s r data ((copyFrom r data).run s) := by
  have hrun := run_copyFrom r data s
  have hwritable : r.readOnly = false → ¬r.readOnly = true := Bool.eq_false_iff.mp
  refine ⟨?_, fun hs hr hbase => Range.Lies.liesAt hs hr hbase, data.flat_iff _, ?_, ?_, ?_⟩
  · intro bytes hbytes hr hfit
    rw [ByteSource.copyInto_eq hbytes, if_neg (hwritable hr), if_neg (Nat.not_lt.mpr hfit)] at hrun
    exact ⟨_, hrun, fun place offset hlies => copiedAt_write hlies hbytes hfit⟩
  · intro hflat
    rw [ByteSource.copyInto_of_not_flat hflat] at hrun
    exact ⟨_, hrun, rfl⟩
  · intro hflat hr
    obtain ⟨bytes, hbytes⟩ := (data.flat_iff s.world.memory).mp hflat
    rw [ByteSource.copyInto_eq hbytes, if_pos hr] at hrun
    exact ⟨_, hrun, rfl⟩
  · intro bytes hbytes hr hlong
    rw [ByteSource.copyInto_eq hbytes, if_neg (hwritable hr), if_pos hlong] at hrun
    exact ⟨_, hrun, rfl⟩

/-- Three bytes of a storage are copied to a range of it that starts one byte further on; all six do
not fit there. -/
theorem copied_or_unchanged_overlapping :
    let around : Surroundings :=
      { host := { marker := "__init__.py", moduleSuffix := ".py" }
        environment := []
        stem := "NATIVE"
        separator := ":"
        package := "native" }
    let s : Session Contexts :=
      (start around {}).withMemory { storages := [.ofBytes [1, 2, 3, 4, 5, 6]] }
    let v : View := { type := "bytearray", place := 0, readOnly := false }
    let r : Range := ⟨⟨.managed 0, 2⟩, 3, "bytearray", false⟩
    r.LiesAt s.world.memory 0 2 ∧
      (∃ m', (copyFrom r (.part v 1 3)).run s = (.ok 3, s.withMemory m') ∧
        (m'.get 0).bytes = [1, 2, 2, 3, 4, 6]) ∧
      ∃ e, (copyFrom r (.object (.view v))).run s = (.error e, s) ∧ e.kind = .value := by
  intro around s v r
  have hlies : r.LiesAt s.world.memory 0 2 := ⟨rfl, by decide, by decide⟩
  refine ⟨hlies, ?_, ?_⟩
  · obtain ⟨m', hrun, hplaced⟩ :=
      (copied_or_unchanged s r (.part v 1 3)).copied [2, 3, 4] rfl rfl (by decide)
    exact ⟨m', hrun, (hplaced 0 2 hlies).replaced⟩
  · exact (copied_or_unchanged s r (.object (.view v))).long [1, 2, 3, 4, 5, 6] rfl rfl (by decide)

end Act

end NativeCodec
