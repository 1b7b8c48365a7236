import NativeCodec.BackReference

set_option autoImplicit false
set_option relaxedAutoImplicit false

namespace NativeCodec

private theorem length_cycleOnto {cycle : Bytes} (hc : cycle ≠ []) (now : Bytes) (count : Nat)
    (out : Bytes) : (cycleOnto cycle now count out).length = out.length + count := by
  induction count generalizing now out with
  | zero => cases now <;> rfl
  | succ count ih =>
    cases now with
    | cons b rest =>
      rw [cycleOnto, ih, List.length_cons]
      omega
    | nil =>
      cases cycle with
      | nil => exact absurd rfl hc
      | cons b rest =>
        rw [cycleOnto, ih, List.length_cons]
        omega

theorem length_copyMatch {offset : Nat} {out : Bytes} (length : Nat) (hp : offset ≠ 0)
    (hl : offset ≤ out.length) : (copyMatch offset length out).length = out.length + length := by
  unfold copyMatch
  apply length_cycleOnto
  rw [ne_eq, List.reverse_eq_nil_iff, ← List.length_eq_zero_iff, List.length_take]
  omega

private theorem take_cons_reverse {b : UInt8} {rest out : Bytes}
    (h : (out.take (rest.length + 1)).reverse = b :: rest) :
    out.getD rest.length 0 = b ∧ ((b :: out).take (rest.length + 1)).reverse = rest ++ [b] := by
  have htake : out.take (rest.length + 1) = rest.reverse ++ [b] := by
    rw [← List.reverse_reverse (out.take (rest.length + 1)), h, List.reverse_cons]
  constructor
  · have hread : (out.take (rest.length + 1)).getD rest.length 0 = b := by
      rw [htake, ← List.length_reverse]
      simp
    rw [← hread, List.getD_eq_getElem?_getD, List.getD_eq_getElem?_getD,
      List.getElem?_take_of_lt (Nat.lt_succ_self _)]
  · have hnewer : out.take rest.length = rest.reverse := by
      have h := congrArg (List.take rest.length) htake
      rw [List.take_take, Nat.min_eq_left (Nat.le_succ _)] at h
      rw [h, List.take_left' List.length_reverse]
    rw [List.take_succ_cons, hnewer, List.reverse_cons, List.reverse_reverse]

private theorem cycleOnto_eq_repeatByte {cycle : Bytes} (hc : cycle ≠ []) (count : Nat)
    {now done out : Bytes} (hcycle : cycle = done ++ now)
    (hout : (out.take cycle.length).reverse = now ++ done) :
    cycleOnto cycle now count out = repeatByte cycle.length count out := by
  induction count generalizing now done out with
  | zero => cases now <;> rfl
  | succ count ih =>
    obtain ⟨b, rest, done, hnext, hcycle, hout⟩ : ∃ b rest done,
        cycleOnto cycle now (count + 1) out = cycleOnto cycle rest count (b :: out) ∧
          cycle = done ++ b :: rest ∧
          (out.take cycle.length).reverse = b :: (rest ++ done) := by
      cases now with
      | cons b rest => exact ⟨b, rest, done, rfl, hcycle, hout⟩
      | nil =>
        -- the cycle starts again
        rw [List.append_nil] at hcycle
        obtain ⟨b, rest, rfl⟩ := List.exists_cons_of_ne_nil hc
        exact ⟨b, rest, [], rfl, rfl, by rw [hout, ← hcycle, List.append_nil, List.nil_append]⟩
    have hlength : cycle.length = (rest ++ done).length + 1 := by
      rw [hcycle, List.length_append, List.length_append, List.length_cons]
      omega
    rw [hlength] at hout
    obtain ⟨hbyte, hmore⟩ := take_cons_reverse hout
    rw [← hlength, List.append_assoc] at hmore
    rw [hnext, ih (by rw [hcycle, List.append_assoc]; rfl) hmore, repeatByte]
    rw [hlength, Nat.add_sub_cancel, hbyte]

theorem copyMatch_eq_repeatByte {offset : Nat} {out : Bytes} (length : Nat) (hz : offset ≠ 0)
    (hl : offset ≤ out.length) : copyMatch offset length out = repeatByte offset length out := by
  have hlength : (out.take offset).reverse.length = offset := by
    rw [List.length_reverse, List.length_take, Nat.min_eq_left hl]
  have hne : (out.take offset).reverse ≠ [] := by
    intro h
    rw [h] at hlength
    exact hz hlength.symm
  have h := cycleOnto_eq_repeatByte hne length
    (show (out.take offset).reverse = [] ++ (out.take offset).reverse from rfl)
    (show (out.take (out.take offset).reverse.length).reverse = _ by
      rw [hlength, List.append_nil])
  rw [hlength] at h
  exact h

end NativeCodec
