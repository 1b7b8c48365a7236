import NativeCodec.Proofs.Operation

set_option autoImplicit false
set_option relaxedAutoImplicit false

namespace NativeCodec

theorem checkBounds_whole (size : Nat) : checkBounds 0 none size = .ok (0, size) :=
  checkBounds_eq_ok_iff.mpr ⟨rfl, by simp, by omega⟩

theorem kind_of_checkBounds_error {offset : Int} {length : Option Int} {size : Nat} {e : Error}
    (h : checkBounds offset length size = .error e) : e.kind = .value := by
  unfold checkBounds at h
  split at h
  · rw [← Except.error.inj h]
    rfl
  · dsimp only at h
    split at h
    · rw [← Except.error.inj h]
      rfl
    · exact absurd h (by simp)

/-- A range holds exactly the given bytes, so many that they can be counted. -/
structure Range.Holds (r : Range) (m : Memory) (bytes : Bytes) : Prop where
  length_eq : r.length = bytes.length
  read_eq : m.read? r.start r.length = some bytes
  countable : bytes.length < countLimit

/-- An argument shows the given bytes as a source. -/
def Argument.Shows (a : Argument) (m : Memory) (bytes : Bytes) : Prop :=
  ∃ r, a.source? m = .ok r ∧ r.Holds m bytes

theorem Memory.lt_of_read {m : Memory} {place offset count : Nat} {bytes : Bytes}
    (h : (m.get place).read offset count = bytes) (hb : bytes ≠ []) :
    place < m.storages.length := by
  rcases Nat.lt_or_ge place m.storages.length with hp | hp
  · exact hp
  · have hf : m.get place = .fresh 0 := by
      simp only [Memory.get, List.getD_eq_getElem?_getD, List.getElem?_eq_none hp]
      rfl
    rw [hf, Storage.read_eq, Storage.bytes_fresh] at h
    exact absurd h.symm (by simpa [Bytes.zeros] using hb)

private theorem Memory.read?_add {m : Memory} {p : Pointer} {bytes : Bytes} (s : Storage)
    (h : m.read? p bytes.length = some bytes) :
    (m.add s).2.read? p bytes.length = some bytes := by
  unfold Memory.read? at h ⊢
  split at h
  · next hz => rw [if_pos hz]; exact h
  · next hz =>
    rw [if_neg hz]
    obtain ⟨⟨place, offset⟩, ht, hr⟩ := Option.map_eq_some_iff.mp h
    change (m.get place).read offset bytes.length = bytes at hr
    rw [ht]
    have hb : bytes ≠ [] := by
      intro he
      exact hz (by rw [he]; rfl)
    have hp := Memory.lt_of_read hr hb
    change some (((m.add s).2.get place).read offset bytes.length) = some bytes
    rw [Memory.get_add m s place hp, hr]

theorem Pointer.target?_advance {p : Pointer} {place offset : Nat}
    (h : p.target? = some (place, offset)) (count : Nat) :
    (p.advance count).target? = some (place, offset + count) := by
  unfold Pointer.target? Pointer.advance at *
  cases hb : p.base with
  | managed k =>
    simp only [hb, Option.some.injEq, Prod.mk.injEq] at h ⊢
    omega
  | near k delta =>
    simp only [hb] at h ⊢
    split at h
    · exact absurd h (by simp)
    · simp only [Option.some.injEq, Prod.mk.injEq] at h
      rw [if_neg (by omega)]
      simp only [Option.some.injEq, Prod.mk.injEq]
      omega
  | address n => simp [hb] at h

theorem Memory.read?_advance {m : Memory} {p : Pointer} {bytes : Bytes} {whole offset count : Nat}
    (h : m.read? p whole = some bytes) (hl : offset + count ≤ whole) :
    m.read? (p.advance offset) count = some ((bytes.drop offset).take count) := by
  by_cases hc : count = 0
  · simp [Memory.read?, hc]
  · unfold Memory.read? at h ⊢
    rw [if_neg (by omega)] at h
    rw [if_neg hc]
    obtain ⟨⟨place, start⟩, ht, hr⟩ := Option.map_eq_some_iff.mp h
    have hw := (Storage.read_eq (m.get place) start whole).symm.trans hr
    rw [Pointer.target?_advance ht, Option.map_some, Option.some.injEq]
    calc
      (m.get place).read (start + offset) count =
          ((m.get place).bytes.drop (start + offset)).take count := Storage.read_eq _ _ _
      _ = ((((m.get place).bytes.drop start).take whole).drop offset).take count := by
        rw [List.drop_take, List.take_take, List.drop_drop, Nat.min_eq_left (by omega)]
      _ = (bytes.drop offset).take count := by rw [hw]

namespace Range

variable {r : Range} {m : Memory} {bytes : Bytes}

theorem count?_of_le {n : Nat} (h : r.length ≤ n) (hn : n < countLimit) :
    r.count? = .ok r.length :=
  if_pos (Nat.lt_of_le_of_lt h hn)

theorem Holds.add (h : r.Holds m bytes) (s : Storage) : r.Holds (m.add s).2 bytes where
  length_eq := h.length_eq
  read_eq := by
    rw [h.length_eq]
    exact Memory.read?_add s (h.length_eq ▸ h.read_eq)
  countable := h.countable

theorem Holds.count (h : r.Holds m bytes) : r.count? = .ok bytes.length := by
  rw [Range.count?, h.length_eq, if_pos h.countable]

theorem Holds.length_lt (h : r.Holds m bytes) : r.length < countLimit := by
  rw [h.length_eq]
  exact h.countable

theorem Holds.content (h : r.Holds m bytes) :
    (⟨r.length, m.read? r.start r.length⟩ : Native.Source).content = bytes := by
  rw [Native.Source.content, h.read_eq, Option.getD_some]

theorem Holds.part (h : r.Holds m bytes) (offset count : Nat) {length : Option Int}
    (hc : length.getD (r.length - offset) = count) (hl : offset + count ≤ bytes.length) :
    ∃ s, r.slice? offset length = .ok s ∧ s.Holds m ((bytes.drop offset).take count) := by
  refine ⟨{ r with start := r.start.advance offset, length := count }, ?_, ?_⟩
  · exact Range.slice?_eq_ok_iff.mpr ⟨offset, count, rfl, hc, by rw [h.length_eq]; exact hl, rfl⟩
  · have hn : ((bytes.drop offset).take count).length = count := by
      rw [List.length_take, List.length_drop]
      omega
    refine ⟨hn.symm, ?_, ?_⟩
    · exact Memory.read?_advance (h.length_eq ▸ h.read_eq) hl
    · rw [hn]
      exact Nat.lt_of_le_of_lt (by omega) h.countable

end Range

theorem Memory.lt_countLimit_of_lt_room {m : Memory} {size : Nat} (h : size < m.room) :
    size < countLimit := Nat.lt_of_lt_of_le h (Nat.min_le_right _ _)

theorem Memory.checkSize_congr {m m' : Memory} (h : m'.limit = m.limit) (size : Int) :
    m'.checkSize size = m.checkSize size := by
  unfold Memory.checkSize
  rw [h]

theorem Memory.checkSize_of_lt {m : Memory} {size : Nat} (h : size < m.room) :
    m.checkSize (size : Int) = .ok size := by
  unfold Memory.checkSize
  unfold Memory.room at h
  rw [if_neg (by omega), if_neg (by omega), if_neg (by omega)]
  rfl

theorem Memory.eq_of_checkSize {m : Memory} {size : Int} {count : Nat}
    (h : m.checkSize size = .ok count) : size = count ∧ count < m.room := by
  unfold Memory.checkSize at h
  unfold Memory.room
  split at h
  · exact absurd h (by simp)
  · split at h
    · exact absurd h (by simp)
    · split at h
      · exact absurd h (by simp)
      · next hsize =>
        have hroom := Except.ok.inj h
        omega

theorem Memory.checkSize_eq_ok {m : Memory} {size count : Nat}
    (h : m.checkSize (size : Int) = .ok count) : count = size ∧ size < m.room := by
  obtain ⟨hcount, hlimit⟩ := Memory.eq_of_checkSize h
  omega

theorem Memory.checkSize_eq_error {m : Memory} {size : Nat} {e : Error}
    (h : m.checkSize (size : Int) = .error e) :
    (e = .outOfMemory ∧ m.limit ≤ size ∧ size < countLimit) ∨
      (e = .tooLarge ∧ countLimit ≤ size) := by
  unfold Memory.checkSize at h
  rw [if_neg (by omega)] at h
  split at h
  · exact Or.inr ⟨(Except.error.inj h).symm, by omega⟩
  · split at h
    · exact Or.inl ⟨(Except.error.inj h).symm, by omega, by omega⟩
    · exact absurd h (by simp)

/-- Memory whose first storage holds the given bytes. -/
def Memory.holding (bytes : Bytes) (more : List Storage := []) : Memory :=
  { storages := .ofBytes bytes :: more }

def Argument.first : Argument := .view ⟨"bytes", 0, true, true, .byte, none⟩

def Argument.second : Argument := .view ⟨"bytearray", 1, false, true, .byte, none⟩

theorem Argument.first_shows {bytes : Bytes} {more : List Storage}
    (h : bytes.length < countLimit) : Argument.first.Shows (.holding bytes more) bytes := by
  refine ⟨⟨⟨.managed 0, 0⟩, bytes.length, "bytes", true⟩, ?_, rfl, ?_, h⟩
  · have hs : (Memory.holding bytes more).size 0 = bytes.length := rfl
    simp only [Argument.first, Argument.source?, Argument.range?, hs, checkBounds_whole]
    rfl
  · unfold Memory.read?
    split
    · next hz => rw [List.length_eq_zero_iff.mp hz]
    · simp [Memory.holding, Memory.get, Pointer.target?, Storage.read_eq]

namespace Native.Op

variable {σ : Type}

theorem run_input_of_shows {w : World σ} {a : Argument} {bytes : Bytes}
    (h : a.Shows w.memory bytes) :
    ∃ src, (input a).run w = (.ok src, w) ∧ src.Holds w.memory bytes := by
  obtain ⟨src, hsrc, hs⟩ := h
  exact ⟨src, by rw [run_input, hsrc], hs⟩

/-- The destination that `scratch` gives when a world has the given memory. -/
def scratchRange (m : Memory) (size : Nat) : Range :=
  ⟨⟨.managed m.storages.length, 0⟩, size, "scratch", false⟩

/-- A size that memory can have gives a destination of zeros. -/
theorem run_scratch {w : World σ} {size : Nat} (h : size < w.memory.room) :
    (scratch (size : Int)).run w =
      (.ok (scratchRange w.memory size),
        { w with memory := (w.memory.add (.fresh size)).2 }) := by
  have hs := Memory.checkSize_of_lt h
  have ha : (allocate (size : Int)).run w =
      (.ok w.memory.storages.length, { w with memory := (w.memory.add (.fresh size)).2 }) := by
    simp only [allocate, run_of, Memory.allocate, hs, Except.map]
    rfl
  unfold scratch
  rw [run_bind_ok ha, run_pure]
  rfl

theorem run_scratch_error {w : World σ} {size : Int} {e : Error}
    (h : w.memory.checkSize size = .error e) : (scratch size).run w = (.error e, w) := by
  have ha : (allocate size).run w = (.error e, w) := by
    simp only [allocate, run_of, Memory.allocate, h, Except.map]
  unfold scratch
  rw [run_bind_error ha]

end Native.Op

end NativeCodec
