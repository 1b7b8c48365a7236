import NativeCodec.Memory.Copy
import NativeCodec.Proofs.Memory.Destination

set_option autoImplicit false
set_option relaxedAutoImplicit false

namespace NativeCodec

namespace Memory

variable {m m' m'' : Memory}

structure Larger (m m' : Memory) : Prop where
  length_le : m.storages.length ≤ m'.storages.length
  size_le : ∀ place, m.size place ≤ m'.size place

theorem Larger.refl (m : Memory) : m.Larger m := ⟨Nat.le_refl _, fun _ => Nat.le_refl _⟩

private theorem Larger.trans (h : m.Larger m') (h' : m'.Larger m'') : m.Larger m'' where
  length_le := Nat.le_trans h.length_le h'.length_le
  size_le place := Nat.le_trans (h.size_le place) (h'.size_le place)

private theorem size_of_le {place : Nat} (h : m.storages.length ≤ place) : m.size place = 0 := by
  unfold size get
  rw [List.getD_eq_getElem?_getD, List.getElem?_eq_none h]
  rfl

@[simp] theorem size_add_self (m : Memory) (s : Storage) :
    (m.add s).2.size m.storages.length = s.size :=
  congrArg Storage.size (m.get_add_self s)

theorem larger_add (m : Memory) (s : Storage) : m.Larger (m.add s).2 where
  length_le := by
    change _ ≤ (m.storages ++ [s]).length
    rw [List.length_append]
    exact Nat.le_add_right _ _
  size_le place := by
    rcases Nat.lt_or_ge place m.storages.length with hlt | hge
    · exact Nat.le_of_eq (congrArg Storage.size (m.get_add s place hlt)).symm
    · rw [size_of_le hge]
      exact Nat.zero_le _

@[simp] theorem length_set (m : Memory) (place : Nat) (s : Storage) :
    (m.set place s).storages.length = m.storages.length :=
  List.length_set

theorem larger_set {place : Nat} {s : Storage} (h : m.size place ≤ s.size) :
    m.Larger (m.set place s) where
  length_le := Nat.le_of_eq (m.length_set place s).symm
  size_le other := by
    by_cases hne : place = other
    · subst hne
      rcases Nat.lt_or_ge place m.storages.length with hlt | hge
      · have hget := congrArg Storage.size (m.get_set_self s place hlt)
        exact Nat.le_trans h (Nat.le_of_eq hget.symm)
      · rw [size_of_le hge]
        exact Nat.zero_le _
    · exact Nat.le_of_eq (congrArg Storage.size (m.get_set_of_ne s hne)).symm

theorem larger_write (m : Memory) (p : Pointer) (data : Bytes) : m.Larger (m.write p data) where
  length_le := by
    unfold write
    split
    · exact Nat.le_refl _
    · exact Nat.le_of_eq (length_set _ _ _).symm
  size_le place := Nat.le_of_eq (m.size_write p data place).symm

theorem larger_poke (m : Memory) (p : Pointer) (stores : List (Nat × UInt8)) :
    m.Larger (m.poke p stores) := by
  unfold poke
  induction stores generalizing m with
  | nil => exact Larger.refl m
  | cons store stores ih => exact (m.larger_write _ _).trans (ih _)

theorem size_poke (m : Memory) (p : Pointer) (stores : List (Nat × UInt8)) (place : Nat) :
    (m.poke p stores).size place = m.size place := by
  unfold poke
  induction stores generalizing m with
  | nil => rfl
  | cons store stores ih => exact (ih _).trans (m.size_write _ _ place)

end Memory

theorem larger_copyInto {m : Memory} {r : Range} {data : ByteSource} {result : Nat × Memory}
    (h : copyInto m r data = .ok result) : m.Larger result.2 := by
  unfold copyInto at h
  cases hdata : data.run? m with
  | error e => simp [hdata, bind, Except.bind] at h
  | ok p =>
    cases hr : r.writable? with
    | error e => simp [hdata, hr, bind, Except.bind] at h
    | ok r' =>
      simp only [hdata, hr, bind, Except.bind, ByteRun.copyTo] at h
      split at h
      · exact absurd h (by simp)
      · rw [← Except.ok.inj h]
        exact Memory.larger_write _ _ _

end NativeCodec
