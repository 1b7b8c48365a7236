import NativeCodec.Bytes

set_option autoImplicit false
set_option relaxedAutoImplicit false

namespace NativeCodec.Period

def Has (period : Nat) (bytes : Bytes) : Prop := (bytes.drop period).isPrefixOf bytes = true

/-- Looks at the tails of a byte string for the first that is a prefix of the whole. -/
def search (whole : Bytes) : Nat → Nat → Bytes → Option Nat
  | 0, _, _ => none
  | _ + 1, _, [] => none
  | fuel + 1, period, _ :: rest =>
    if rest.isPrefixOf whole then some (period + 1) else search whole fuel (period + 1) rest

def shortest? (limit : Nat) (bytes : Bytes) : Option Nat := search bytes limit 0 bytes

theorem has_of_search {whole : Bytes} {fuel : Nat} (period : Nat) {p : Nat} {tail : Bytes}
    (ht : tail = whole.drop period) (h : search whole fuel period tail = some p) :
    Has p whole ∧ 1 ≤ p := by
  induction fuel generalizing period tail with
  | zero => simp [search] at h
  | succ fuel ih =>
    cases tail with
    | nil => simp [search] at h
    | cons b rest =>
      have hr : rest = whole.drop (period + 1) := by
        rw [← List.drop_drop, ← ht]
        rfl
      unfold search at h
      split at h
      · rename_i hp
        simp only [Option.some.injEq] at h
        subst h
        exact ⟨by rw [Has, ← hr]; exact hp, by omega⟩
      · exact ih _ hr h

theorem le_of_search {whole : Bytes} {fuel : Nat} (period : Nat) {p : Nat} {tail : Bytes}
    (h : search whole fuel period tail = some p) : p ≤ period + fuel := by
  induction fuel generalizing period tail with
  | zero => simp [search] at h
  | succ fuel ih =>
    cases tail with
    | nil => simp [search] at h
    | cons b rest =>
      unfold search at h
      split at h
      · simp only [Option.some.injEq] at h
        omega
      · have := ih _ h
        omega

theorem has_of_shortest? {limit p : Nat} {bytes : Bytes} (h : shortest? limit bytes = some p) :
    Has p bytes ∧ 1 ≤ p := has_of_search 0 (by simp) h

theorem shortest?_le {limit p : Nat} {bytes : Bytes} (h : shortest? limit bytes = some p) :
    p ≤ limit := by
  have := le_of_search 0 h
  omega

theorem Has.getElem? {p k : Nat} {bytes : Bytes} (h : Has p bytes) (hk : k < bytes.length)
    (hp : p ≤ k) : bytes[k]? = bytes[k - p]? := by
  obtain ⟨rest, hrest⟩ := List.isPrefixOf_iff_prefix.mp h
  calc
    bytes[k]? = (bytes.drop p)[k - p]? := by
      rw [List.getElem?_drop, Nat.add_sub_cancel' hp]
    _ = (bytes.drop p ++ rest)[k - p]? := by
      rw [List.getElem?_append_left]
      rw [List.length_drop]
      omega
    _ = bytes[k - p]? := by rw [hrest]

end NativeCodec.Period
