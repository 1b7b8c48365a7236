import NativeCodec.Proofs.Lz4.Items
import NativeCodec.Session.Objects

/-!
The size that the headers of an LZ4 block describe, in a view of any items.

A view of one dimension is walked item by item, and not byte by byte (`viewLength_eq_walked`). What
the walk finds is the size that the bytes describe where each item is one byte and none is negative,
so in every view of unsigned bytes. Items without a sign end every walk, though it reads whole items
where it ought to read bytes; items with one can lead the walk out of the view or round for ever.
`viewLength_reckoned` says all of this of every view of whole numbers, and `viewLength_misled` shows
blocks with which the walk goes wrong in each of these ways.
-/

set_option autoImplicit false
set_option relaxedAutoImplicit false

namespace NativeCodec

namespace Item

variable {item : Item} {bytes : Bytes}

/-- The whole number that the bytes of one item stand for, or 0 if they stand for none. -/
def number (item : Item) (bytes : Bytes) : Int := (item.value? bytes).getD 0

private theorem value?_eq (h : item.reading ≠ .none) (bytes : Bytes) :
    item.value? bytes = some (item.number bytes) := by
  unfold number value?
  cases hreading : item.reading with
  | none => exact absurd hreading h
  | _ => rfl

private theorem values?_eq (h : item.reading ≠ .none) (bytes : Bytes) :
    item.values? bytes =
      some ((cut item.width (bytes.length / item.width) bytes).map item.number).toArray := by
  unfold values?
  rw [show item.value? = fun bytes => pure (item.number bytes) from funext (value?_eq h),
    List.mapM_pure]
  rfl

private theorem number_nonneg (h : item.reading ≠ .signed) (bytes : Bytes) :
    0 ≤ item.number bytes := by
  unfold number value?
  cases hreading : item.reading with
  | signed => exact absurd hreading h
  | unsigned => exact Int.natCast_nonneg _
  | none => exact Int.le_refl 0
  | truth =>
    dsimp only [Option.getD]
    split <;> decide

private theorem number_singleton (hreading : item.reading = .unsigned ∨ item.reading = .signed)
    (hwidth : item.width = 1) (b : UInt8) (hnonneg : 0 ≤ item.number [b]) :
    item.number [b] = b.toNat := by
  have hb : Bytes.toNat [b] = b.toNat := by simp [Bytes.toNat]
  have hpow : Nat.pow 256 item.width = 256 := by rw [hwidth]
  have hlt := b.toNat_lt
  unfold number value? at hnonneg ⊢
  rw [hb, hpow] at hnonneg ⊢
  rcases hreading with h | h
  · rw [h]
    rfl
  · rw [h] at hnonneg ⊢
    dsimp only [Option.getD] at hnonneg ⊢
    rw [Int.bmod_def] at hnonneg ⊢
    split at hnonneg <;> omega

private theorem cut_one (bytes : Bytes) : cut 1 bytes.length bytes = bytes.map fun b => [b] := by
  induction bytes with
  | nil => rfl
  | cons b bytes ih =>
    rw [List.length_cons, cut, List.map_cons, ← ih]
    rfl

section Values

variable {items : Array Int} (hitems : item.values? bytes = some items)

include hitems

private theorem nonneg_of_values? (hnumbers : item.reading ≠ .none) (h : item.reading ≠ .signed) :
    ∀ n ∈ items, 0 ≤ n := by
  rw [values?_eq hnumbers, Option.some.injEq] at hitems
  subst hitems
  intro n hn
  obtain ⟨cell, -, rfl⟩ := List.mem_map.mp (List.mem_toArray.mp hn)
  exact number_nonneg h cell

private theorem values?_eq_byteItems (hreading : item.reading = .unsigned ∨ item.reading = .signed)
    (hwidth : item.width = 1) (hnonneg : ∀ n ∈ items, 0 ≤ n) : items = Lz4.byteItems bytes := by
  have hnumbers : item.reading ≠ .none := by
    rcases hreading with h | h <;> rw [h] <;> decide
  rw [values?_eq hnumbers, hwidth, Nat.div_one, cut_one, List.map_map, Option.some.injEq]
    at hitems
  subst hitems
  unfold Lz4.byteItems
  congr 1
  refine List.map_congr_left fun b hb => number_singleton hreading hwidth b (hnonneg _ ?_)
  exact List.mem_toArray.mpr (List.mem_map_of_mem hb)

end Values

end Item

/-- A view of one dimension, filled by items that read as whole numbers. -/
structure View.Numbered (m : Memory) (v : View) : Prop where
  line : v.shape = none ∨ ∃ count, v.shape = some [count]
  filled : v.item.fills (m.size v.place) v.shape = true
  numbers : v.item.reading ≠ .none

namespace Act

open Lz4

variable {m : Memory} {v : View} {items : Array Int}

private theorem walked_byteItems (bytes : Bytes) :
    walked (walkItems (byteItems bytes)) =
      .ok ((blockLength? bytes).map fun n : Nat => (n : Int)) := by
  rw [walkItems_byteItems]
  rfl

theorem viewLength_eq_walked (h : v.Numbered m)
    (hitems : v.item.values? (m.get v.place).bytes = some items) :
    viewLength m v = walked (walkItems items) := by
  have hitemwise : (if (m.get v.place).bytes.isEmpty then .ok none
      else walked (walkItems items)) = walked (walkItems items) := by
    split
    · next hempty =>
      have hnone : blockLength? [] = none := walk_none rfl
      have hwalked := walked_byteItems []
      rw [List.isEmpty_iff.mp hempty, Item.values?_eq h.numbers, List.length_nil, Nat.zero_div,
        Option.some.injEq] at hitems
      rw [hnone] at hwalked
      subst hitems
      exact hwalked.symm
    · rfl
  unfold viewLength
  dsimp only
  split
  · next hbyte =>
    obtain ⟨hitem, -⟩ := hbyte
    rw [hitem] at hitems
    have hnonneg := Item.nonneg_of_values? hitems (by decide) (by decide)
    rw [Item.values?_eq_byteItems hitems (Or.inl rfl) rfl hnonneg, walked_byteItems]
  · rw [hitems]
    rcases h.line with hshape | ⟨count, hshape⟩
    · rw [hshape]
      exact hitemwise
    · have hfilled := h.filled
      rw [hshape] at hfilled ⊢
      cases count with
      | zero => exact absurd hfilled (by simp [Item.fills])
      | succ count => exact hitemwise

/-- What is found in a view of some bytes, by the whole numbers that the view shows as its items. -/
structure Reckoned (item : Item) (bytes : Bytes) (items : Array Int)
    (found : Except Error (Option Int)) : Prop where
  /-- A walk over so many items ends with what is found. -/
  sized : ∀ size, found = .ok size ↔
    ∃ count, Walker.start.turns items count = .error (.size size)
  /-- Or it leaves them. -/
  strays : found = .error (.made .index "index out of bounds on dimension 1" none none) ↔
    ∃ count, Walker.start.turns items count = .error .outOfBounds
  /-- Or it never ends, -/
  endless : found = .error .endless ↔ ∀ count, ∃ w, Walker.start.turns items count = .ok w
  /-- and then it goes round. -/
  round : found = .error .endless ↔ Round items
  /-- It ends where no item is negative, after a turn for three items each and one more at most. -/
  ends : (∀ n ∈ items, 0 ≤ n) → ∃ size, found = .ok size ∧
    Walker.start.turns items (items.size / 3 + 1) = .error (.size size)
  /-- No item is negative where items have no sign. -/
  nonneg : item.reading ≠ .signed → ∀ n ∈ items, 0 ≤ n
  /-- Items that are some bytes are taken for these, -/
  taken : ∀ others, items = byteItems others →
    found = .ok ((blockLength? others).map fun n : Nat => (n : Int))
  /-- which are those of the view where an item is one byte and none is negative. -/
  right : item.reading = .unsigned ∨ item.reading = .signed → item.width = 1 →
    (∀ n ∈ items, 0 ≤ n) → found = .ok ((blockLength? bytes).map fun n : Nat => (n : Int))

private theorem walked_eq_ok_iff {size : Option Int} : walked (walkItems items) = .ok size ↔
    ∃ count, Walker.start.turns items count = .error (.size size) := by
  rw [← walkItems_eq_some_iff]
  cases walkItems items with
  | none => simp [walked]
  | some e => cases e <;> simp [walked]

private theorem walked_eq_index_iff : walked (walkItems items) =
      .error (.made .index "index out of bounds on dimension 1" none none) ↔
    ∃ count, Walker.start.turns items count = .error .outOfBounds := by
  rw [← walkItems_eq_some_iff]
  cases walkItems items with
  | none => simp [walked]
  | some e => cases e <;> simp [walked]

private theorem walked_eq_endless_iff :
    walked (walkItems items) = .error .endless ↔ Round items := by
  rw [← walkItems_eq_none_iff]
  cases walkItems items with
  | none => simp [walked]
  | some e => cases e <;> simp [walked]

private theorem forever_iff_round :
    (∀ count, ∃ w, Walker.start.turns items count = .ok w) ↔ Round items := by
  refine ⟨fun hforever => ?_, Round.forever⟩
  rw [← walkItems_eq_none_iff, Option.eq_none_iff_forall_ne_some]
  intro e hend
  obtain ⟨count, herror⟩ := walkItems_eq_some_iff.mp hend
  obtain ⟨w, hw⟩ := hforever count
  exact absurd (hw.symm.trans herror) (by simp)

private theorem reckoned_walked {item : Item} {bytes : Bytes} (hnumbers : item.reading ≠ .none)
    (hitems : item.values? bytes = some items) :
    Reckoned item bytes items (walked (walkItems items)) where
  sized _ := walked_eq_ok_iff
  strays := walked_eq_index_iff
  endless := walked_eq_endless_iff.trans forever_iff_round.symm
  round := walked_eq_endless_iff
  ends hnonneg := by
    obtain ⟨size, hsize⟩ := start_turns_of_nonneg hnonneg
    exact ⟨size, walked_eq_ok_iff.mpr ⟨_, hsize⟩, hsize⟩
  nonneg := Item.nonneg_of_values? hitems hnumbers
  taken others hothers := hothers ▸ walked_byteItems others
  right hreading hwidth hnonneg := by
    rw [Item.values?_eq_byteItems hitems hreading hwidth hnonneg, walked_byteItems]

/-- The size that is found in a view of whole numbers. -/
theorem viewLength_reckoned (h : v.Numbered m) :
    ∃ items, v.item.values? (m.get v.place).bytes = some items ∧
      Reckoned v.item (m.get v.place).bytes items (viewLength m v) := by
  have hitems := Item.values?_eq h.numbers (m.get v.place).bytes
  refine ⟨_, hitems, ?_⟩
  rw [viewLength_eq_walked h hitems]
  exact reckoned_walked h.numbers hitems

/-- The size that is found in some bytes, shown as items. -/
def lengthAs (item : Item) (bytes : Bytes) : Except Error (Option Int) :=
  viewLength { storages := [.ofBytes bytes] } ⟨"memoryview", 0, false, true, item, none⟩

/-- Three literals are found in bytes with a sign. -/
theorem viewLength_reckoned_signed :
    lengthAs ⟨1, .signed, Nat.one_pos⟩ [0x30, 0x61, 0x62, 0x63] = .ok (some 3) := by
  obtain ⟨items, hitems, h⟩ := viewLength_reckoned
    (m := { storages := [.ofBytes [0x30, 0x61, 0x62, 0x63]] })
    (v := ⟨"memoryview", 0, false, true, ⟨1, .signed, Nat.one_pos⟩, none⟩)
    ⟨Or.inl rfl, by decide, by decide⟩
  have hbytes : items = byteItems [0x30, 0x61, 0x62, 0x63] :=
    Option.some.inj (hitems.symm.trans (by decide))
  have hlength : blockLength? [0x30, 0x61, 0x62, 0x63] = some 3 := by decide +kernel
  exact (h.taken _ hbytes).trans (by rw [hlength]; rfl)

/-- No size is found for three literals in items of two bytes, nor for eight in bytes with a sign.
Of two more blocks in bytes with a sign, one is walked for ever and one is left at its front. -/
theorem viewLength_misled :
    (lengthAs ⟨2, .unsigned, Nat.two_pos⟩ [0x30, 0x61, 0x62, 0x63] = .ok none ∧
      blockLength? [0x30, 0x61, 0x62, 0x63] = some 3) ∧
    (lengthAs ⟨1, .signed, Nat.one_pos⟩ (0x80 :: List.replicate 8 0x61) = .ok none ∧
      blockLength? (0x80 :: List.replicate 8 0x61) = some 8) ∧
    (lengthAs ⟨1, .signed, Nat.one_pos⟩ [0x80, 0xc0, 2, 0xe0, 0xd0, 1, 0xc0, 0x20, 0xc0] =
        .error .endless ∧
      blockLength? [0x80, 0xc0, 2, 0xe0, 0xd0, 1, 0xc0, 0x20, 0xc0] = some 8) ∧
    lengthAs ⟨1, .signed, Nat.one_pos⟩ [0x80, 0xa0, 0xf0, 0x90, 0xc0, 0xc0, 0xe0, 0x90, 0] =
        .error (.made .index "index out of bounds on dimension 1" none none) ∧
      blockLength? [0x80, 0xa0, 0xf0, 0x90, 0xc0, 0xc0, 0xe0, 0x90, 0] = some 8 := by
  decide +kernel

end Act

end NativeCodec
