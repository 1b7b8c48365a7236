import NativeCodec.Proofs.Zstd.Probe

/-!
Probing bytes that are put together.

Headers and blocks are delimited by what they say themselves, so that more bytes after a frame
change neither what it records nor where it ends. The probe goes on after the last frame of the
first bytes where a probe of the second bytes starts (`probe_append`), and it ends in the first
bytes where it would have ended there without a size (`probe_append_of_none`).
-/

set_option autoImplicit false
set_option relaxedAutoImplicit false

namespace NativeCodec.Zstd

section Append

variable {bytes rest : Bytes} (more : Bytes)

private theorem afterSkippable_append {length : Nat} (h : afterSkippable length bytes = .ok rest) :
    afterSkippable length (bytes ++ more) = .ok (rest ++ more) := by
  unfold afterSkippable at h ⊢
  split at h
  · exact absurd h (by simp)
  · next hlimit =>
    rw [if_neg hlimit]
    split at h
    · exact absurd h (by simp)
    · next content after hs =>
      rw [Bytes.split?_append_more hs more]
      exact congrArg (fun r => Except.ok (r ++ more)) (Except.ok.inj h)

theorem afterFrame_append_more (h : afterFrame bytes = .ok rest) :
    afterFrame (bytes ++ more) = .ok (rest ++ more) := by
  unfold afterFrame at h ⊢
  split at h
  · exact absurd h (by simp)
  · exact absurd h (by simp)
  · next length body hs =>
    rw [Start.read_append more hs]
    exact afterSkippable_append more h
  · next header body hs =>
    rw [Start.read_append more hs]
    dsimp only
    split at h
    · exact absurd h (by simp)
    · next tail hending =>
      rw [Chain.read_append more hending]
      dsimp only
      split at h
      · exact absurd h (by simp)
      · next stored after hc =>
        rw [afterChecksum_append more hc]
        exact congrArg (fun r => Except.ok (r ++ more)) (Except.ok.inj h)

theorem recordedSize_append_of_read {start : Start × Bytes} (h : Start.read bytes = .ok start) :
    recordedSize (bytes ++ more) = recordedSize bytes := by
  obtain ⟨s, body⟩ := start
  unfold recordedSize
  rw [h, Start.read_append more h]
  cases s <;> rfl

theorem recordedSize_append_more (h : recordedSize bytes ≠ invalidSize) :
    recordedSize (bytes ++ more) = recordedSize bytes := by
  cases hs : Start.read bytes with
  | error u =>
    unfold recordedSize at h
    rw [hs] at h
    exact absurd rfl h
  | ok start => exact recordedSize_append_of_read more hs

end Append

end NativeCodec.Zstd

namespace NativeCodec.Codec.Zstd

open Native NativeCodec.Zstd

section Probe

variable (name : Nat → String) (more : Bytes)

private theorem probe_append_of_afterFrame {ahead rest : Bytes}
    (hu : recordedSize ahead ≠ unknownSize)
    (hv : recordedSize ahead ≠ invalidSize) (hafter : afterFrame ahead = .ok rest)
    (hne : rest ++ more ≠ []) : probe name (ahead ++ more) =
      (probe name (rest ++ more)).map (Option.map (recordedSize ahead + ·)) := by
  have hsize := recordedSize_append_more more hv
  rw [probe_of_afterFrame (hsize ▸ hu) (hsize ▸ hv) (afterFrame_append_more more hafter), hsize,
    if_neg (by simpa using hne)]

theorem probe_append_of_none {ahead : Bytes} (h : probe name ahead = .ok none) :
    probe name (ahead ++ more) = .ok none := by
  fun_induction probe name ahead with
  | case1 ahead hu =>
    have hv : recordedSize ahead ≠ invalidSize := by
      rw [hu]
      decide
    rw [probe, if_pos ((recordedSize_append_more more hv).trans hu)]
  | case2 ahead hu hv => exact absurd h (by simp)
  | case3 ahead hu hv f hf => exact absurd h (by simp)
  | case4 ahead hu hv rest hafter hend => exact absurd h (by simp)
  | case5 ahead hu hv rest hafter hend ih =>
    have hne : rest ++ more ≠ [] := List.append_ne_nil_of_left_ne_nil (by simpa using hend) more
    have hrest : probe name rest = .ok none := by
      cases hr : probe name rest with
      | error e => simp [hr, Except.map] at h
      | ok found =>
        rw [hr] at h
        exact congrArg Except.ok (Option.map_eq_none_iff.mp (Except.ok.inj h))
    rw [probe_append_of_afterFrame name more hu hv hafter hne, ih hrest]
    rfl

theorem probe_append {ahead : Bytes} {n : Nat} (h : probe name ahead = .ok (some n))
    (hmore : more ≠ []) :
    probe name (ahead ++ more) = (probe name more).map (Option.map (n + ·)) := by
  fun_induction probe name ahead generalizing n with
  | case1 ahead hu => exact absurd h (by simp)
  | case2 ahead hu hv => exact absurd h (by simp)
  | case3 ahead hu hv f hf => exact absurd h (by simp)
  | case4 ahead hu hv rest hafter hend =>
    have hnil : rest = [] := List.isEmpty_iff.mp hend
    have hn : recordedSize ahead = n := Option.some.inj (Except.ok.inj h)
    rw [probe_append_of_afterFrame name more hu hv hafter (by simp [hmore]), hnil, hn,
      List.nil_append]
  | case5 ahead hu hv rest hafter hend ih =>
    have hne : rest ++ more ≠ [] := List.append_ne_nil_of_left_ne_nil (by simpa using hend) more
    obtain ⟨later, hrest, hn⟩ : ∃ later, probe name rest = .ok (some later) ∧
        recordedSize ahead + later = n := by
      cases hr : probe name rest with
      | error e => simp [hr, Except.map] at h
      | ok found =>
        rw [hr] at h
        obtain ⟨later, rfl, hn⟩ := Option.map_eq_some_iff.mp (Except.ok.inj h)
        exact ⟨later, rfl, hn⟩
    have hadd : (n + · : Nat → Nat) = (recordedSize ahead + ·) ∘ (later + ·) := by
      funext k
      rw [← hn]
      exact Nat.add_assoc _ _ _
    rw [probe_append_of_afterFrame name more hu hv hafter hne, ih hrest, hadd]
    cases probe name more with
    | error e => rfl
    | ok found => exact congrArg Except.ok (Option.map_map ..)

end Probe

end NativeCodec.Codec.Zstd
