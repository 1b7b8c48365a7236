import NativeCodec.Zstd.Frame

set_option autoImplicit false
set_option relaxedAutoImplicit false

namespace NativeCodec.Zstd

def Fault.ofHeader : Fault → Bool
  | .unknownFrame | .unsupportedParameter | .windowTooLarge | .corrupted | .sourceSize => true
  | _ => false

variable {bytes : Bytes} {f : Fault}

private theorem Descriptor.ofHeader_of_readFields {d : Descriptor}
    (h : d.readFields bytes = .error (.refused f)) : f.ofHeader = true := by
  unfold readFields at h
  dsimp only at h
  split at h
  · obtain rfl := Unread.refused.inj (Except.error.inj h)
    rfl
  · split at h
    · exact absurd h (by simp)
    · split at h
      · obtain rfl := Unread.refused.inj (Except.error.inj h)
        rfl
      · exact absurd h (by simp)

private theorem Start.ofHeader_of_read (h : Start.read bytes = .error (.refused f)) :
    f.ofHeader = true := by
  unfold Start.read at h
  split at h
  · dsimp only at h
    split at h
    · split at h
      · exact absurd h (by simp)
      · next fields rest hs =>
        cases hd : Descriptor.readFields _ fields with
        | error u =>
          rw [hd] at h
          obtain rfl := Except.error.inj h
          exact Descriptor.ofHeader_of_readFields hd
        | ok header => simp [hd, Except.map] at h
    · split at h
      · split at h
        · exact absurd h (by simp)
        · exact absurd h (by simp)
      · obtain rfl := Unread.refused.inj (Except.error.inj h)
        rfl
  · exact absurd h (by simp)

theorem Block.taken_eq_error {width : Nat} {make : Bytes → Block}
    (h : (match Bytes.split? width bytes with
      | none => (.error .sourceSize : Except Fault (Block × Bytes))
      | some (content, rest) => .ok (make content, rest)) = .error f) : f = .sourceSize := by
  split at h
  · exact (Except.error.inj h).symm
  · exact absurd h (by simp)

private theorem Block.ofHeader_of_read (h : Block.read bytes = .error f) : f.ofHeader = true := by
  unfold Block.read at h
  split at h
  · dsimp only at h
    split at h
    · exact Block.taken_eq_error h ▸ rfl
    · exact Block.taken_eq_error h ▸ rfl
    · exact Block.taken_eq_error h ▸ rfl
    · obtain rfl := Except.error.inj h
      rfl
  · obtain rfl := Except.error.inj h
    rfl

private theorem Chain.ofHeader_of_read (h : (Chain.read bytes).ending = .error f) :
    f.ofHeader = true := by
  fun_induction Chain.read bytes with
  | case1 bytes g hg => exact Block.ofHeader_of_read (Except.error.inj h ▸ hg)
  | case2 bytes b after hb hl => exact absurd h (by simp)
  | case3 bytes b after hb hl chain ih => exact ih h

theorem ofHeader_of_afterFrame (h : afterFrame bytes = .error f) : f.ofHeader = true := by
  unfold afterFrame at h
  split at h
  · obtain rfl := Except.error.inj h
    rfl
  · next hs => exact Start.ofHeader_of_read (Except.error.inj h ▸ hs)
  · unfold afterSkippable at h
    split at h
    · obtain rfl := Except.error.inj h
      rfl
    · split at h
      · obtain rfl := Except.error.inj h
        rfl
      · exact absurd h (by simp)
  · split at h
    · next hc => exact Chain.ofHeader_of_read (Except.error.inj h ▸ hc)
    · split at h
      · obtain rfl := Except.error.inj h
        rfl
      · exact absurd h (by simp)

end NativeCodec.Zstd
