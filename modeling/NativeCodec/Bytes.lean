set_option autoImplicit false
set_option relaxedAutoImplicit false

namespace NativeCodec

/-- A string of bytes. -/
abbrev Bytes := List UInt8

/-- The least number that does not fit a word of 64 bits. -/
def wordLimit : Nat := 0x10000000000000000

namespace Bytes

/-- The number whose base-256 digits, lowest first, are the given bytes. -/
def toNat : Bytes → Nat
  | [] => 0
  | b :: rest => b.toNat + 256 * toNat rest

/-- The lowest `width` base-256 digits of a number, lowest first. -/
def ofNat : Nat → Nat → Bytes
  | 0, _ => []
  | width + 1, n => UInt8.ofNat n :: ofNat width (n / 256)

def zeros (count : Nat) : Bytes := List.replicate count 0

def holds {α : Type} : Nat → List α → Bool
  | 0, _ => true
  | _ + 1, [] => false
  | count + 1, _ :: rest => holds count rest

/-- The first `count` bytes and what follows them, if there are that many. -/
def split? (count : Nat) (bytes : Bytes) : Option (Bytes × Bytes) :=
  if holds count bytes then some (bytes.splitAt count) else none

private theorem pow_width_succ (width : Nat) :
    Nat.pow 256 (width + 1) = 256 * Nat.pow 256 width := Nat.mul_comm _ _

@[simp] theorem length_ofNat (width n : Nat) : (ofNat width n).length = width := by
  induction width generalizing n with
  | zero => rfl
  | succ width ih => simp [ofNat, ih]

theorem toNat_ofNat (width n : Nat) : toNat (ofNat width n) = n % Nat.pow 256 width := by
  induction width generalizing n with
  | zero => simp [ofNat, toNat, Nat.pow, Nat.mod_one]
  | succ width ih =>
    have hb : (UInt8.ofNat n).toNat = n % 256 := by simp [UInt8.toNat_ofNat']
    rw [ofNat, toNat, ih, hb, pow_width_succ, Nat.mod_mul]

theorem ofNat_toNat (bytes : Bytes) : ofNat bytes.length (toNat bytes) = bytes := by
  induction bytes with
  | nil => rfl
  | cons b rest ih =>
    have hb : UInt8.ofNat (b.toNat + 256 * toNat rest) = b := by
      apply UInt8.toNat_inj.1
      have := b.toNat_lt
      simp
    have hd : (b.toNat + 256 * toNat rest) / 256 = toNat rest := by
      have := b.toNat_lt
      omega
    rw [List.length_cons, toNat, ofNat, hb, hd, ih]

theorem toNat_lt (bytes : Bytes) : toNat bytes < Nat.pow 256 bytes.length := by
  induction bytes with
  | nil => simp [toNat]
  | cons b rest ih =>
    have hb : b.toNat < 256 := b.toNat_lt
    rw [toNat, List.length_cons, pow_width_succ]
    omega

@[simp] theorem holds_eq_decide {α : Type} (count : Nat) (list : List α) :
    holds count list = decide (count ≤ list.length) := by
  induction count generalizing list with
  | zero => simp [holds]
  | succ count ih =>
    cases list with
    | nil => simp [holds]
    | cons a rest => simp [holds, ih]

theorem split?_eq_some {count : Nat} {bytes first rest : Bytes}
    (h : split? count bytes = some (first, rest)) :
    bytes = first ++ rest ∧ first.length = count := by
  unfold split? at h
  split at h
  · rename_i hc
    simp only [List.splitAt_eq, Option.some.injEq, Prod.mk.injEq] at h
    simp only [holds_eq_decide, decide_eq_true_eq] at hc
    obtain ⟨rfl, rfl⟩ := h
    exact ⟨(List.take_append_drop count bytes).symm, by simp [hc]⟩
  · exact absurd h (by simp)

theorem split?_append (first rest : Bytes) :
    split? first.length (first ++ rest) = some (first, rest) := by
  simp [split?]

theorem split?_append_more {count : Nat} {bytes first rest : Bytes}
    (h : split? count bytes = some (first, rest)) (more : Bytes) :
    split? count (bytes ++ more) = some (first, rest ++ more) := by
  obtain ⟨rfl, rfl⟩ := split?_eq_some h
  rw [List.append_assoc]
  exact split?_append first (rest ++ more)

theorem split?_suffix {count : Nat} {bytes first rest : Bytes}
    (h : split? count bytes = some (first, rest)) : rest <:+ bytes := by
  rw [(split?_eq_some h).1]
  exact List.suffix_append first rest

end Bytes

end NativeCodec
