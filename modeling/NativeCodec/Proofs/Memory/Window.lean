import NativeCodec.Proofs.Memory.Destination

set_option autoImplicit false
set_option relaxedAutoImplicit false

namespace NativeCodec

def Memory.byte? (m : Memory) (place index : Nat) : Option UInt8 := (m.get place).bytes[index]?

/-- The storage that a pointer is counted from, and how far it is from the start of that. -/
def Pointer.location? (p : Pointer) : Option (Nat × Int) :=
  match p.base with
  | .managed place => some (place, p.offset)
  | .near place delta => some (place, delta + p.offset)
  | .address _ => none

def Range.part (r : Range) (offset length : Nat) : Range :=
  { r with start := r.start.advance offset, length }

def Range.Covers (r : Range) (place index : Nat) : Prop :=
  ∃ first, r.start.location? = some (place, first) ∧ first ≤ index ∧
    (index : Int) < first + r.length

/-- Two ranges have no byte in common. -/
def Range.Apart (r s : Range) : Prop := ∀ place index, r.Covers place index → ¬s.Covers place index

/-- Storages keep their sizes, and all bytes outside a range are the same. -/
structure Memory.SameOutside (r : Range) (m m' : Memory) : Prop where
  size_eq : ∀ place, m'.size place = m.size place
  byte_eq : ∀ place index, ¬r.Covers place index → m'.byte? place index = m.byte? place index

private theorem Storage.getElem?_write (s : Storage) (offset : Nat) (data : Bytes) {index : Nat}
    (h : index < offset ∨ offset + data.length ≤ index) :
    (s.write offset data).bytes[index]? = s.bytes[index]? := by
  have hsize : (s.write offset data).bytes.length = s.bytes.length := by
    rw [length_bytes, size_write, length_bytes]
  by_cases hfit : offset + data.length ≤ s.size
  · have hbefore : (s.bytes.take offset).length = offset := by
      rw [List.length_take, length_bytes]
      omega
    rw [bytes_write s hfit, List.append_assoc]
    rcases h with hlt | hge
    · rw [List.getElem?_append_left (by omega), List.getElem?_take_of_lt hlt]
    · rw [List.getElem?_append_right (by omega), List.getElem?_append_right (by omega),
        List.getElem?_drop]
      congr 1
      omega
  · rcases h with hlt | hge
    · have hhead : (s.write offset data).head = s.head.take offset ++
          Bytes.zeros (min offset s.size - s.head.length) ++ data.take (s.size - offset) := by
        unfold write
        rw [dif_neg hfit]
      by_cases hinside : index < s.size
      · have hle := s.head_le
        unfold bytes
        rw [hhead, size_write]
        simp only [Bytes.zeros, List.getElem?_append, List.getElem?_replicate, List.length_append,
          List.length_take, List.length_replicate, List.getElem?_take]
        grind
      · rw [List.getElem?_eq_none (by rw [hsize, length_bytes]; omega),
          List.getElem?_eq_none (by rw [length_bytes]; omega)]
    · rw [List.getElem?_eq_none (by rw [hsize, length_bytes]; omega),
        List.getElem?_eq_none (by rw [length_bytes]; omega)]

private theorem Pointer.location?_of_target {p : Pointer} {place offset : Nat}
    (h : p.target? = some (place, offset)) : p.location? = some (place, (offset : Int)) := by
  unfold target? at h
  unfold location?
  cases hb : p.base with
  | managed k =>
    rw [hb] at h
    obtain ⟨rfl, rfl⟩ := Prod.mk.inj (Option.some.inj h)
    rfl
  | near k delta =>
    rw [hb] at h
    change (if delta + p.offset < 0 then none else some (k, (delta + p.offset).toNat)) = _ at h
    obtain ⟨hn, h⟩ := Option.ite_none_left_eq_some.mp h
    obtain ⟨rfl, rfl⟩ := Prod.mk.inj (Option.some.inj h)
    change some (k, delta + (p.offset : Int)) = _
    rw [Int.toNat_of_nonneg (by omega)]
  | address n =>
    rw [hb] at h
    exact absurd h (by simp)

theorem Pointer.location?_advance {p : Pointer} {count place : Nat} {first : Int}
    (h : (p.advance count).location? = some (place, first)) :
    p.location? = some (place, first - count) := by
  unfold location? advance at h
  unfold location?
  dsimp only at h
  cases hb : p.base with
  | managed k =>
    rw [hb] at h
    obtain ⟨rfl, rfl⟩ := Prod.mk.inj (Option.some.inj h)
    simp
  | near k delta =>
    rw [hb] at h
    obtain ⟨rfl, rfl⟩ := Prod.mk.inj (Option.some.inj h)
    simp only [Option.some.injEq, Prod.mk.injEq, true_and]
    omega
  | address n =>
    rw [hb] at h
    exact absurd h (by simp)

namespace Range

variable {r r' s s' : Range} {m : Memory} {bytes : Bytes} {place index : Nat}

theorem Covers.of_part {offset : Nat} (h : s.Covers place index)
    (hs : s.start = r.start.advance offset) (hl : offset + s.length ≤ r.length) :
    r.Covers place index := by
  obtain ⟨first, hfirst, hle, hlt⟩ := h
  rw [hs] at hfirst
  exact ⟨first - offset, Pointer.location?_advance hfirst, by omega, by omega⟩

theorem Apart.mono (h : r.Apart s)
    (hr : ∀ place index, r'.Covers place index → r.Covers place index)
    (hs : ∀ place index, s'.Covers place index → s.Covers place index) : r'.Apart s' :=
  fun place index hc hc' => h place index (hr place index hc) (hs place index hc')

theorem apart_of_ne {p q : Nat × Int} (hr : r.start.location? = some p)
    (hs : s.start.location? = some q) (hne : p.1 ≠ q.1) : r.Apart s := by
  rintro place index ⟨first, hfirst, -, -⟩ ⟨first', hfirst', -, -⟩
  refine hne ?_
  rw [Option.some.inj (hr.symm.trans hfirst), Option.some.inj (hs.symm.trans hfirst')]

private theorem Holds.lt_of_covers (h : r.Holds m bytes) (hc : r.Covers place index) :
    place < m.storages.length := by
  obtain ⟨first, hfirst, hle, hlt⟩ := hc
  have hread := h.read_eq
  unfold Memory.read? at hread
  rw [if_neg (by omega)] at hread
  obtain ⟨⟨place', offset⟩, ht, hr⟩ := Option.map_eq_some_iff.mp hread
  have hplace := Option.some.inj ((Pointer.location?_of_target ht).symm.trans hfirst)
  have hb : bytes ≠ [] := by
    rintro rfl
    have hlength := h.length_eq
    rw [List.length_nil] at hlength
    omega
  rw [← (Prod.mk.inj hplace).1]
  exact Memory.lt_of_read hr hb

/-- A new storage has no byte in common with what holds something already. -/
theorem Holds.apart_scratch (h : r.Holds m bytes) (size : Nat) :
    r.Apart (Native.Op.scratchRange m size) := by
  rintro place index hc ⟨first, hfirst, -, -⟩
  have hlt := h.lt_of_covers hc
  have hnew := (Prod.mk.inj (Option.some.inj hfirst)).1
  omega

end Range

/-- Two objects have no byte in common. -/
def Argument.Apart (a b : Argument) (m : Memory) : Prop :=
  ∀ r s, a.source? m = .ok r → b.source? m = .ok s → r.Apart s

namespace Memory

variable {r : Range} {m m' m'' : Memory}

theorem SameOutside.refl (r : Range) (m : Memory) : SameOutside r m m where
  size_eq _ := rfl
  byte_eq _ _ _ := rfl

theorem SameOutside.trans (h : SameOutside r m m') (h' : SameOutside r m' m'') :
    SameOutside r m m'' where
  size_eq place := (h'.size_eq place).trans (h.size_eq place)
  byte_eq place index hc := (h'.byte_eq place index hc).trans (h.byte_eq place index hc)

theorem SameOutside.part {s : Range} {offset : Nat} (h : SameOutside s m m')
    (hs : s.start = r.start.advance offset) (hl : offset + s.length ≤ r.length) :
    SameOutside r m m' where
  size_eq := h.size_eq
  byte_eq place index hc := h.byte_eq place index fun hcovers => hc (hcovers.of_part hs hl)

/-- Data that are written to the start of a range, and not past its end, change nothing outside. -/
theorem sameOutside_write (r : Range) (m : Memory) {data : Bytes} (hd : data.length ≤ r.length) :
    SameOutside r m (m.write r.start data) where
  size_eq := m.size_write r.start data
  byte_eq place index hc := by
    unfold write byte?
    split
    · rfl
    · next at_ offset ht =>
      have hlocation := Pointer.location?_of_target ht
      by_cases hplace : at_ = place
      · subst hplace
        by_cases hp : at_ < m.storages.length
        · have houtside : index < offset ∨ offset + data.length ≤ index := by
            rcases Nat.lt_or_ge index offset with hlt | hge
            · exact Or.inl hlt
            · refine Or.inr (Nat.le_of_not_lt fun hlt => hc ⟨offset, hlocation, ?_, ?_⟩)
              · omega
              · omega
          rw [get_set_self _ _ _ hp]
          exact Storage.getElem?_write _ _ _ houtside
        · simp only [get, set, List.set_eq_of_length_le (Nat.le_of_not_lt hp)]
      · rw [get_set_of_ne _ _ hplace]

end Memory

theorem Range.Holds.of_apart {r s : Range} {m m' : Memory} {bytes : Bytes} (h : r.Holds m bytes)
    (hm : Memory.SameOutside s m m') (ha : r.Apart s) : r.Holds m' bytes where
  length_eq := h.length_eq
  countable := h.countable
  read_eq := by
    have hread := h.read_eq
    unfold Memory.read? at hread ⊢
    by_cases hz : r.length = 0
    · rw [if_pos hz] at hread ⊢
      exact hread
    · rw [if_neg hz] at hread ⊢
      obtain ⟨⟨place, offset⟩, ht, hr⟩ := Option.map_eq_some_iff.mp hread
      rw [ht, Option.map_some, ← hr]
      dsimp only
      rw [Storage.read_eq, Storage.read_eq, Option.some.injEq]
      apply List.ext_getElem?
      intro index
      rw [List.getElem?_take, List.getElem?_take]
      split
      · next hlt =>
        rw [List.getElem?_drop, List.getElem?_drop]
        refine hm.byte_eq place (offset + index) (ha place (offset + index) ?_)
        exact ⟨offset, Pointer.location?_of_target ht, by omega, by omega⟩
      · rfl

end NativeCodec
