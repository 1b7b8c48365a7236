import NativeCodec.Proofs.Transfer.Ranges

set_option autoImplicit false
set_option relaxedAutoImplicit false

namespace NativeCodec.Codec.Lz4

open Native NativeCodec.Lz4

variable {σ : Type} {L : Libraries σ} {w w₁ : World σ} {c : Compressor} {src dst : Range}

theorem checkInput_of_le {n : Nat} (hn : n ≤ maxInputSize) : checkInput n = .ok () :=
  if_neg (by omega)

private theorem checkInput_long {n : Nat} (h : maxInputSize < n) :
    checkInput n = .error (.inputTooLong n maxInputSize) :=
  if_pos (Int.ofNat_lt.mpr h)

theorem run_bound_of_bind {n : Nat} (hn : n ≤ maxInputSize) {k : Constants} {room : Int} {s : σ}
    (hbind : (Op.bind L .lz4).run w = (.ok k, w₁))
    (hanswer : L.answer (.lz4Bound n) w₁.libraries = (.ok room, s)) :
    ∃ w', (bound L n).run w = (.ok room, w') ∧ w'.bindings = w₁.bindings ∧
      w'.memory = w₁.memory := by
  have hcall := @Op.run_call_ok _ L (.lz4Bound n) {} _ _ _ hanswer
  have hrun : (bound L n).run w = _ :=
    (Op.run_ofExcept_bind (checkInput_of_le hn) _ w).trans ((Op.run_bind_ok hbind _).trans hcall)
  exact ⟨_, hrun, rfl, rfl⟩

theorem run_bound_long {n : Nat} (h : maxInputSize < n) :
    (bound L n).run w = (.error (.inputTooLong n maxInputSize), w) := by
  unfold bound
  rw [checkInput_long h]
  exact Op.run_bind_error (Op.run_ofExcept _ w) _

/-- What is left of a compression once the reply is stored. -/
def settle (L : Libraries σ) (src : Range) (capacity : Nat) (result : Int) : Op σ Int := do
  if 0 < result then return result
  let most ← bound L src.length
  if capacity < most then throw (.compressionRoom capacity src.length)
  throw (.failed "compression" result)

def stored (w : World σ) (call : Call) (src dst : Range) (reply : Call.Reply call) (s : σ)
    (bytes : Bytes) : World σ :=
  { w with
    memory := w.memory.write dst.start bytes
    libraries := s
    events := .called call ⟨some src.start, some dst.start⟩ reply :: w.events }

def Compressor.call (c : Compressor) (m : Memory) (src dst : Range) : Call :=
  .lz4Compress c.stateWords (sourceOf m src) (min dst.length intMax) c.acceleration

theorem run_compressRange_refused (hn : src.length ≤ maxInputSize) {e : Error} {s : σ}
    (hanswer : L.answer (c.call w.memory src dst) w.libraries = (.error e, s)) :
    (compressRange L c src dst).run w = (.error e, { w with libraries := s }) := by
  have hcall := @Op.run_call_error _ L _ ⟨some src.start, some dst.start⟩ _ _ _ hanswer
  unfold Compressor.call sourceOf at hcall
  unfold compressRange
  rw [Op.run_ofExcept_bind (checkInput_of_le hn), Op.run_bind_ok (Op.run_source w src),
    Op.run_bind_error hcall]

theorem run_compressRange_long (h : maxInputSize < src.length) (c : Compressor) (dst : Range) :
    (compressRange L c src dst).run w = (.error (.inputTooLong src.length maxInputSize), w) := by
  unfold compressRange
  rw [checkInput_long h]
  exact Op.run_bind_error (Op.run_ofExcept _ w) _

section Reply

variable (hn : src.length ≤ maxInputSize) {reply : Written Int} {s : σ}
  (hreply : L.answer (c.call w.memory src dst) w.libraries = (.ok reply, s))

include hn hreply

theorem run_compressRange_replied : (compressRange L c src dst).run w =
    (settle L src (min dst.length intMax) reply.result).run
      (stored w (c.call w.memory src dst) src dst reply s
        (reply.bytes.take (min dst.length intMax))) := by
  have hcall := @Op.run_call_ok _ L _ ⟨some src.start, some dst.start⟩ _ _ _ hreply
  unfold Compressor.call sourceOf at hcall
  unfold compressRange
  rw [Op.run_ofExcept_bind (checkInput_of_le hn), Op.run_bind_ok (Op.run_source w src),
    Op.run_bind_ok hcall, Op.run_bind_ok (Op.run_store _ _ _ _)]
  rfl

/-- A positive reply is the number of bytes, and what was written is stored in the destination. -/
theorem run_compressRange_written (hpos : 0 < reply.result) :
    (compressRange L c src dst).run w = (.ok reply.result,
      stored w (c.call w.memory src dst) src dst reply s
        (reply.bytes.take (min dst.length intMax))) := by
  rw [run_compressRange_replied hn hreply]
  unfold settle
  rw [if_pos hpos]
  rfl

end Reply

section Behind

variable {given : Option Int}

theorem slice?_behindSize (hwidth : sizeWidth ≤ dst.length) :
    dst.slice? sizeWidth none = .ok (behindSize true dst) :=
  Range.slice?_eq_ok_iff.mpr ⟨sizeWidth, dst.length - sizeWidth, rfl,
    by rw [Option.getD_none]; omega, by omega, rfl⟩

theorem sizeHeader_of_le {n : Nat} (hn : n ≤ maxInputSize) :
    sizeHeader n = .ok (Bytes.ofNat sizeWidth n) := by
  unfold maxInputSize at hn
  exact if_pos (by omega)

theorem run_compressBlockRange_behind
    (hc : (create L (given.getD usualAcceleration)).run w = (.ok c, w₁))
    (hcount : dst.length < countLimit) (hwidth : sizeWidth ≤ dst.length) :
    (compressBlockRange L src dst given true).run w =
      (do
        let n ← compressRange L c src (behindSize true dst)
        Op.write dst.start (← Op.ofExcept (sizeHeader src.length))
        return n + sizeWidth : Op σ Int).run w₁ := by
  have hroom : dst.count? = .ok dst.length := if_pos hcount
  unfold compressBlockRange
  rw [Op.run_bind_ok hc, if_neg (by decide), Op.run_ofExcept_bind hroom,
    if_neg (Nat.not_lt.mpr hwidth), Op.run_ofExcept_bind (slice?_behindSize hwidth)]

/-- A destination that is too small for the size is refused before the compressor is called. -/
theorem run_compressBlockRange_narrow
    (hc : (create L (given.getD usualAcceleration)).run w = (.ok c, w₁))
    (hwidth : dst.length < sizeWidth) :
    (compressBlockRange L src dst given true).run w = (.error (.room dst.length), w₁) := by
  have hroom := Range.count?_of_le (Nat.le_of_lt hwidth) (by decide)
  unfold compressBlockRange
  rw [Op.run_bind_ok hc, if_neg (by decide), Op.run_ofExcept_bind hroom, if_pos hwidth,
    Op.run_bind_error (Op.run_throw _ _)]

theorem run_compressBlockRange_countless
    (hc : (create L (given.getD usualAcceleration)).run w = (.ok c, w₁))
    (hcount : countLimit ≤ dst.length) :
    (compressBlockRange L src dst given true).run w = (.error .tooLarge, w₁) := by
  have hroom : (Op.ofExcept dst.count?).run w₁ = (.error .tooLarge, w₁) := by
    rw [Op.run_ofExcept, Range.count?, if_neg (Nat.not_lt.mpr hcount)]
  unfold compressBlockRange
  rw [Op.run_bind_ok hc, if_neg (by decide), Op.run_bind_error hroom]

end Behind

end NativeCodec.Codec.Lz4
