import NativeCodec.Proofs.Memory.Content

set_option autoImplicit false
set_option relaxedAutoImplicit false

namespace NativeCodec

/-- An argument is a destination that holds the given bytes. -/
def Argument.Takes (a : Argument) (m : Memory) (bytes : Bytes) : Prop :=
  ∃ r, a.destination? m = .ok r ∧ r.Holds m bytes

theorem Memory.size_write (m : Memory) (p : Pointer) (data : Bytes) (place : Nat) :
    (m.write p data).size place = m.size place := by
  unfold Memory.write
  split
  · rfl
  · next at_ offset ht =>
    unfold Memory.size
    by_cases h : at_ = place
    · subst h
      by_cases hp : at_ < m.storages.length
      · rw [Memory.get_set_self _ _ _ hp, Storage.size_write]
      · simp only [Memory.get, Memory.set, List.set_eq_of_length_le (Nat.le_of_not_lt hp)]
    · rw [Memory.get_set_of_ne _ _ h]

private theorem Argument.source?_write (a : Argument) (m : Memory) (p : Pointer) (data : Bytes) :
    a.source? (m.write p data) = a.source? m := by
  cases a with
  | view v => simp only [Argument.source?, Argument.range?, Memory.size_write]
  | direct b => rfl
  | range r => rfl
  | other type => rfl

theorem Argument.destination?_write (a : Argument) (m : Memory) (p : Pointer) (data : Bytes) :
    a.destination? (m.write p data) = a.destination? m := by
  rw [Argument.destination?, Argument.source?_write, Argument.destination?]

theorem Range.eq_of_writable? {r s : Range} (h : r.writable? = .ok s) :
    s = r ∧ r.readOnly = false := by
  unfold writable? at h
  split at h
  · exact absurd h (by simp)
  · next hr => exact ⟨(Except.ok.inj h).symm, Bool.eq_false_iff.mpr hr⟩

theorem Argument.source?_of_destination {a : Argument} {m : Memory} {r : Range}
    (h : a.destination? m = .ok r) : a.source? m = .ok r ∧ r.readOnly = false := by
  unfold destination? at h
  cases hs : a.source? m with
  | error e => exact absurd h (by simp [hs, Except.bind])
  | ok s =>
    rw [hs] at h
    obtain ⟨rfl, hreadOnly⟩ := Range.eq_of_writable? h
    exact ⟨rfl, hreadOnly⟩

private theorem window_write {whole data bytes : Bytes} {start offset : Nat}
    (hw : (whole.drop start).take bytes.length = bytes)
    (hs : start + bytes.length ≤ whole.length) (hd : offset + data.length ≤ bytes.length) :
    ((whole.take (start + offset) ++ data ++ whole.drop (start + offset + data.length)).drop
        start).take bytes.length =
      bytes.take offset ++ data ++ bytes.drop (offset + data.length) := by
  obtain ⟨before, after, rfl, rfl⟩ :
      ∃ before after, whole = before ++ (bytes ++ after) ∧ before.length = start := by
    refine ⟨whole.take start, (whole.drop start).drop bytes.length, ?_, ?_⟩
    · rw [← hw, List.length_take, List.length_drop, Nat.min_eq_left (by omega),
        List.take_append_drop, List.take_append_drop]
    · rw [List.length_take]
      omega
  have hlength : (bytes.take offset ++ data ++ bytes.drop (offset + data.length)).length =
      bytes.length := by
    simp only [List.length_append, List.length_take, List.length_drop]
    omega
  have hfirst : (bytes ++ after).take offset = bytes.take offset :=
    List.take_append_of_le_length (by omega)
  have hlater : (bytes ++ after).drop (offset + data.length) =
      bytes.drop (offset + data.length) ++ after := List.drop_append_of_le_length hd
  rw [List.take_length_add_append, Nat.add_assoc, List.drop_length_add_append, hfirst, hlater,
    List.append_assoc, List.append_assoc, List.drop_left, ← List.append_assoc,
    ← List.append_assoc]
  exact List.take_left' hlength

theorem Range.Holds.write_at {r : Range} {m : Memory} {bytes data : Bytes} (h : r.Holds m bytes)
    {offset : Nat} (hd : offset + data.length ≤ bytes.length) :
    r.Holds (m.write (r.start.advance offset) data)
      (bytes.take offset ++ data ++ bytes.drop (offset + data.length)) := by
  have hlength : (bytes.take offset ++ data ++ bytes.drop (offset + data.length)).length =
      bytes.length := by
    simp only [List.length_append, List.length_take, List.length_drop]
    omega
  refine ⟨h.length_eq.trans hlength.symm, ?_, hlength ▸ h.countable⟩
  have hread := h.read_eq
  rw [h.length_eq] at hread ⊢
  unfold Memory.read? at hread ⊢
  by_cases hz : bytes.length = 0
  · rw [if_pos hz, List.length_eq_zero_iff.mp (hlength.trans hz)]
  · rw [if_neg hz] at hread ⊢
    obtain ⟨⟨place, start⟩, ht, hr⟩ := Option.map_eq_some_iff.mp hread
    change (m.get place).read start bytes.length = bytes at hr
    have hp : place < m.storages.length := by
      apply Memory.lt_of_read hr
      rintro rfl
      exact hz rfl
    have hinside : start + bytes.length ≤ (m.get place).size := by
      have hcount := congrArg List.length hr
      rw [Storage.length_read] at hcount
      omega
    rw [Storage.read_eq] at hr
    rw [ht, Option.map_some, Option.some.injEq]
    simp only [Memory.write, Pointer.target?_advance ht offset]
    rw [Memory.get_set_self _ _ _ hp, Storage.read_eq, Storage.bytes_write _ (by omega)]
    exact window_write hr (by rw [Storage.length_bytes]; exact hinside) hd

theorem Range.Holds.write {r : Range} {m : Memory} {bytes data : Bytes} (h : r.Holds m bytes)
    (hd : data.length ≤ bytes.length) :
    r.Holds (m.write r.start data) (data ++ bytes.drop data.length) := by
  have hw := h.write_at (show 0 + data.length ≤ bytes.length by omega)
  rw [Nat.zero_add] at hw
  exact hw

theorem Argument.takes_write {a : Argument} {m : Memory} {r : Range} {bytes data : Bytes}
    (ha : a.destination? m = .ok r) (h : r.Holds m bytes) (hd : data.length ≤ bytes.length) :
    a.Takes (m.write r.start data) (data ++ bytes.drop data.length) :=
  ⟨r, by rw [Argument.destination?_write, ha], h.write hd⟩

private theorem Range.Holds.read_first {r : Range} {m : Memory} {data rest : Bytes}
    (h : r.Holds m (data ++ rest)) : m.read? r.start (min data.length r.length) = some data := by
  have hread := h.read_eq
  have hfirst : data.length ≤ (data ++ rest).length := by
    rw [List.length_append]
    omega
  rw [h.length_eq] at hread ⊢
  have hpart := Memory.read?_advance hread (show 0 + data.length ≤ _ by omega)
  rw [List.drop_zero, List.take_left] at hpart
  rw [Nat.min_eq_left hfirst]
  exact hpart

/-- An argument lies in memory: a view is of a storage that there is. -/
def Argument.Within (m : Memory) : Argument → Prop
  | .view v => v.place < m.storages.length
  | _ => True

theorem Argument.source?_add {a : Argument} {m : Memory} (hw : a.Within m) (s : Storage) :
    a.source? (m.add s).2 = a.source? m := by
  cases a with
  | view v =>
    have hsize : (m.add s).2.size v.place = m.size v.place := by
      rw [Memory.size, Memory.get_add m s v.place hw, Memory.size]
    simp only [Argument.source?, Argument.range?, hsize]
  | direct b => rfl
  | range r => rfl
  | other type => rfl

theorem Argument.Shows.add {a : Argument} {m : Memory} {bytes : Bytes} (h : a.Shows m bytes)
    (hw : a.Within m) (s : Storage) : a.Shows (m.add s).2 bytes := by
  obtain ⟨r, hr, hs⟩ := h
  exact ⟨r, (Argument.source?_add hw s).trans hr, hs.add s⟩

namespace Native.Op

variable {σ : Type}

theorem scratchRange_holds (m : Memory) {size : Nat} (h : size < countLimit) :
    (scratchRange m size).Holds (m.add (.fresh size)).2 (Bytes.zeros size) := by
  have hlength : (Bytes.zeros size).length = size := List.length_replicate
  refine ⟨hlength.symm, ?_, by rw [hlength]; exact h⟩
  change (m.add (.fresh size)).2.read? ⟨.managed (m.add (.fresh size)).1, 0⟩ size = _
  unfold Memory.read?
  split
  · next hz => rw [hz]; rfl
  · dsimp only [Pointer.target?]
    rw [Option.map_some, Memory.get_add_self, Storage.read_eq, Storage.bytes_fresh, List.drop_zero,
      List.take_of_length_le (Nat.le_of_eq hlength)]

theorem run_firstBytes_of_holds {w : World σ} {r : Range}
    {data rest : Bytes} (h : r.Holds w.memory (data ++ rest)) :
    (firstBytes r data.length).run w = (.ok data, w) := by
  rw [run_firstBytes, h.read_first, Option.getD_some]

theorem run_firstBytes_scratch_append {w : World σ} {m : Memory} {size : Nat} {data more : Bytes}
    (hs : size < countLimit) (hd : (data ++ more).length ≤ size)
    (hw : w.memory = (m.add (.fresh size)).2.write (scratchRange m size).start (data ++ more)) :
    (firstBytes (scratchRange m size) data.length).run w = (.ok data, w) := by
  have hlength : (Bytes.zeros size).length = size := List.length_replicate
  have hholds := (scratchRange_holds m hs).write (hlength.symm ▸ hd)
  rw [← hw, List.append_assoc] at hholds
  exact run_firstBytes_of_holds hholds

theorem run_firstBytes_scratch {w : World σ} {m : Memory} {size : Nat} {data : Bytes}
    (hs : size < countLimit) (hd : data.length ≤ size)
    (hw : w.memory = (m.add (.fresh size)).2.write (scratchRange m size).start data) :
    (firstBytes (scratchRange m size) data.length).run w = (.ok data, w) :=
  run_firstBytes_scratch_append hs (by rwa [List.append_nil]) (by rwa [List.append_nil])

end Native.Op

end NativeCodec
