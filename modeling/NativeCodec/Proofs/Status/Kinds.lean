import NativeCodec.Native.System
import NativeCodec.Proofs.Lz4.Decompression
import NativeCodec.Proofs.Memory.Content
import NativeCodec.Proofs.Status.Compression

/-!
What becomes of the replies of native functions.

No failure of a native function is reported as a length, each has the kind of its status, and
compression never calls its input malformed (`replies_reported`). Libraries may reply what they like
as long as they are reliable, as the system's are (`Libraries.Reliable.system`).
-/

set_option autoImplicit false
set_option relaxedAutoImplicit false

namespace NativeCodec

namespace Native

theorem Libraries.Reliable.system (k : Constants) : (system (.ok k)).Reliable where
  frees d handle s := ⟨s.free handle, rfl⟩
  lz4Bound n hn s := by
    obtain ⟨s', hs⟩ := (Codec.Lz4.Documented.system (.ok k)).bound n s hn
    exact ⟨_, s', hs⟩
  snappyBound source capacity cell reply s s' _ t := ⟨(0 : Int), t, rfl⟩
  cell c reply s s' h n hn := by
    rw [answer_system] at h
    have hreply : (systemReply c s).1 = reply := by
      have hanswer := congrArg Prod.fst h
      dsimp only at hanswer
      split at hanswer
      · exact Except.ok.inj hanswer
      · exact absurd hanswer (by simp)
    subst hreply
    cases c with
    | snappyCompress | snappyDecompress | snappyLength =>
      exact absurd hn (by simp [Call.left, systemReply])
    | _ => exact absurd hn (by simp [Call.left])
  refused c e s s' h := by
    rw [answer_system] at h
    have hanswer := congrArg Prod.fst h
    dsimp only at hanswer
    split at hanswer
    · exact absurd hanswer (by simp)
    · rw [← Except.error.inj hanswer]
      decide
  unbound a e s h := by
    unfold Native.system at h
    dsimp only at h
    split at h
    · exact absurd h (by simp)
    · exact absurd h (by simp)

def World.bound (m : Memory) : World Contexts where
  memory := m
  bindings _ := ⟨some (.ok {})⟩
  libraries := {}

end Native

namespace Codec

open Native

variable {σ : Type}

private theorem Facade.decides_of_asks {f : Facade} {o : Operation} {c : Call} (h : f.Asks o c) :
    c.decides = true := by
  unfold Facade.Asks at h
  split at h
  all_goals first | rfl | exact h.elim

/-- What an operation of a codec comes to is what every reply that decides it means, and it does not
succeed without one; and compression never ends in an error of malformed input. -/
theorem replies_reported {L : Libraries σ} (hL : L.Reliable) :
    (∀ (f : Facade) (o : Operation) (w : World σ), f.Ready w →
      ∃ new, ((o.op L f).run w).2.events = new ++ w.events ∧
        (∀ c site reply, Event.called c site reply ∈ new → c.decides = true →
          f.Asks o c ∧ c.Tells L reply ((o.op L f).run w).1) ∧
        ((∃ a, ((o.op L f).run w).1 = .ok a) →
          (∀ c, ¬ f.Asks o c) ∨ ∃ c site reply, Event.called c site reply ∈ new ∧ f.Asks o c)) ∧
    (∀ (t : Transfer) (input output : Argument) (w : World σ), t.compresses = true →
      w.Accounted → ∀ e, ((t.op L input output).run w).1 = .error e → e.kind ≠ .malformedInput) ∧
    (∀ (q : Query) (input : Argument) (w : World σ), q.compresses = true →
      w.Accounted → ∀ e, ((q.op L input).run w).1 = .error e → e.kind ≠ .malformedInput) := by
  refine ⟨?_, ?_, ?_⟩
  · intro f o w hw
    have hheard := Operation.heeds hL f o w hw
    have hsame : ((o.op L f).run w).1.map (fun a => a) = ((o.op L f).run w).1 := by
      rcases ((o.op L f).run w).1 with e | a
      · rfl
      · rfl
    rw [hsame] at hheard
    exact hheard
  · intro t input output w ht hw
    exact (Transfer.lenient hL ht input output w hw).2
  · intro q input w hq hw
    exact (Query.lenient hL hq input w hw).2

/-- A frame of three bytes into three bytes, which are too few to compress the frame into. -/
theorem replies_reported_frame :
    (∃ c site reply, Event.called c site reply ∈ (((Operation.decompress .first .second).op
        (system (.ok {})) (.zstdDecompressor ⟨none⟩)).run (.bound (.holding
          [0x28, 0xB5, 0x2F, 0xFD, 0x20, 3, 0x19, 0, 0, 7, 8, 9] [.fresh 3]))).2.events ∧
      c.decides = true ∧ c.Tells (system (.ok {})) reply (.ok (.number 3))) ∧
    (∃ e, ((Transfer.op (system (.ok {})) (.lz4Compress none false) .first .second).run
        (.bound (.holding [0x28, 0xB5, 0x2F, 0xFD, 0x20, 3, 0x19, 0, 0, 7, 8, 9]
          [.fresh 3]))).1 = .error e ∧ e.kind ≠ .malformedInput) ∧
    (∃ e, ((Query.op (system (.ok {})) .snappyCompress .first).run
        (.bound (.holding [0x28, 0xB5, 0x2F, 0xFD, 0x20, 3, 0x19, 0, 0, 7, 8, 9]
          [.fresh 3]))).1 = .error e ∧ e.kind ≠ .malformedInput) := by
  obtain ⟨hoperation, htransfer, hquery⟩ := replies_reported (Libraries.Reliable.system {})
  have haccounted (m : Memory) : (World.bound m).Accounted :=
    fun a e h => absurd h (by simp [World.bound])
  refine ⟨?_, ?_, ?_⟩
  · obtain ⟨new, hnew, htells, hasked⟩ := hoperation (.zstdDecompressor ⟨none⟩)
      (.decompress .first .second) (.bound (.holding
        [0x28, 0xB5, 0x2F, 0xFD, 0x20, 3, 0x19, 0, 0, 7, 8, 9] [.fresh 3])) ⟨⟨{}, rfl⟩, nofun⟩
    have hrun : (((Operation.decompress .first .second).op (system (.ok {}))
        (.zstdDecompressor ⟨none⟩)).run (.bound (.holding
          [0x28, 0xB5, 0x2F, 0xFD, 0x20, 3, 0x19, 0, 0, 7, 8, 9] [.fresh 3]))).1 =
        .ok (.number 3) := by
      decide +kernel
    rw [hrun] at htells hasked
    rcases hasked ⟨_, rfl⟩ with hnever | ⟨c, site, reply, hin, hc⟩
    · exact absurd trivial (hnever (.zstdDecompress 0 0 ⟨0, none⟩))
    · rw [hnew]
      have ht : c.decides = true := Facade.decides_of_asks hc
      exact ⟨c, site, reply, List.mem_append_left _ hin, ht, (htells _ _ _ hin ht).2⟩
  · have hrun : ((Transfer.op (system (.ok {})) (.lz4Compress none false) .first .second).run
        (.bound (.holding [0x28, 0xB5, 0x2F, 0xFD, 0x20, 3, 0x19, 0, 0, 7, 8, 9]
          [.fresh 3]))).1 = .error (.compressionRoom 3 12) := by
      decide +kernel
    exact ⟨_, hrun, htransfer _ _ _ _ rfl (haccounted _) _ hrun⟩
  · have hrun : ((Query.op (system (.ok {})) .snappyCompress .first).run
        (.bound (.holding [0x28, 0xB5, 0x2F, 0xFD, 0x20, 3, 0x19, 0, 0, 7, 8, 9]
          [.fresh 3]))).1 = .error (.failedWith "compression" 1) := by
      decide +kernel
    exact ⟨_, hrun, hquery _ _ _ rfl (haccounted _) _ hrun⟩

end Codec

end NativeCodec
