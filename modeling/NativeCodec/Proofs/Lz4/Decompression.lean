import NativeCodec.Codec.Lz4
import NativeCodec.Proofs.Lz4.Capacity
import NativeCodec.Proofs.Memory.Window
import NativeCodec.Proofs.Native.System

set_option autoImplicit false
set_option relaxedAutoImplicit false

namespace NativeCodec.Codec.Lz4

open Native NativeCodec.Lz4

variable {σ : Type}

/-- The library decompresses a block as `decode` does, into any capacity that it can be told. -/
structure Decodes (L : Libraries σ) (block : Bytes) : Prop where
  decoded : ∀ {source : Source} {capacity : Nat} {out : Bytes} (s : σ), source.content = block →
    (Call.lz4Decompress source capacity).fits = true → decode capacity block = some out →
    ∃ s', L.answer (.lz4Decompress source capacity) s =
      (.ok { result := out.length, bytes := out }, s')
  refused : ∀ {source : Source} {capacity : Nat} (s : σ), source.content = block →
    (Call.lz4Decompress source capacity).fits = true → decode capacity block = none →
    ∃ status bytes s', status < 0 ∧ L.answer (.lz4Decompress source capacity) s =
      (.ok { result := status, bytes := bytes }, s')

/-- The LZ4 library can be bound, and if it was tried before then it could. Memory has every size
that can be stored in front of a block. -/
structure Bindable (L : Libraries σ) (w : World σ) : Prop where
  bind : ∀ s, ∃ constants, (L.bind .lz4 s).1.outcome = .ok constants
  settled : ∀ outcome, (w.bindings .lz4).settled = some outcome →
    ∃ constants, outcome = .ok constants
  roomy : 0x100000000 ≤ w.memory.limit

/-- What is documented of the LZ4 library besides its compressor: it knows the bound of a compressed
size, and decompresses blocks without a match of offset 0. -/
structure Documented (L : Libraries σ) : Prop where
  bound : ∀ (n : Nat) (s : σ), n ≤ maxInputSize →
    ∃ s', L.answer (.lz4Bound n) s = (.ok (compressBound n : Int), s')
  decodes : ∀ block, zeroFree block = true → Decodes L block

theorem Decodes.system (snappy : Except Error Constants) (block : Bytes) :
    Decodes (system snappy) block where
  decoded s hs hf hd := by
    refine ⟨s, ?_⟩
    simp only [Native.system, hf, if_true, systemReply, hs, runLz4Decompress, hd]
  refused s hs hf hd := by
    refine ⟨-1, [], s, by decide, ?_⟩
    simp only [Native.system, hf, if_true, systemReply, hs, runLz4Decompress, hd]

theorem Bindable.system (snappy : Except Error Constants) {w : World Contexts} (hw : Regular w)
    (hm : 0x100000000 ≤ w.memory.limit) : Bindable (system snappy) w where
  bind _ := ⟨systemConstants, rfl⟩
  settled outcome h := ⟨systemConstants, hw .lz4 (by decide) outcome h⟩
  roomy := hm

theorem Documented.system (snappy : Except Error Constants) : Documented (system snappy) where
  bound n s h := by
    have hf : (Call.lz4Bound n).fits = true := by
      unfold maxInputSize at h
      simp only [Call.fits, fitsInt, Bool.and_eq_true, decide_eq_true_eq]
      omega
    have hreply : systemReply (.lz4Bound n) s = ((compressBound n : Int), s) := by
      refine Prod.ext ?_ rfl
      change (if (n : Int) < 0 then (0 : Int) else (compressBound (n : Int).toNat : Int)) = _
      rw [if_neg (Int.not_lt.mpr (Int.natCast_nonneg n)), Int.toNat_natCast]
    refine ⟨s, ?_⟩
    simp only [Native.system, hf, if_true, hreply]
  decodes block _ := Decodes.system snappy block

section Binding

variable {L : Libraries σ} {w : World σ}

/-- Only what is settled about the library and the limit of memory matter. -/
theorem Bindable.of_bindings {w' : World σ} (hw : Bindable L w) (h : w'.bindings = w.bindings)
    (hm : w'.memory.limit = w.memory.limit) : Bindable L w' where
  bind := hw.bind
  settled := by
    rw [h]
    exact hw.settled
  roomy := by
    rw [hm]
    exact hw.roomy

theorem Bindable.lt_room (hw : Bindable L w) {size : Nat} (h : size < 0x100000000) :
    size < w.memory.room := by
  have hroomy := hw.roomy
  unfold Memory.room countLimit
  omega

theorem run_bind_lz4 (hw : Bindable L w) :
    ∃ constants w', (Op.bind L .lz4).run w = (.ok constants, w') ∧ Bindable L w' ∧
      w'.memory = w.memory := by
  cases hs : (w.bindings .lz4).settled with
  | some outcome =>
    obtain ⟨constants, rfl⟩ := hw.settled outcome hs
    exact ⟨constants, w, Op.run_bind_settled hs, hw, rfl⟩
  | none =>
    obtain ⟨constants, hbind⟩ := hw.bind w.libraries
    obtain ⟨w', hr, hm, -, hb⟩ := Op.run_bind_unsettled (L := L) hs
    rw [hbind] at hr hb
    refine ⟨constants, w', hr, ⟨hw.bind, ?_, by rw [hm]; exact hw.roomy⟩, hm⟩
    intro outcome ho
    rw [hb] at ho
    simp only [if_true, Once.keep, hs, Outcome.isSettled] at ho
    exact ⟨constants, (Option.some.inj ho).symm⟩

/-- Making a codec of an acceleration that there is binds the library and does nothing else. -/
theorem run_create {acceleration : Int} (hw : Bindable L w) (ha : 1 ≤ acceleration) :
    ∃ words w', (create L acceleration).run w = (.ok ⟨acceleration, words⟩, w') ∧
      Bindable L w' ∧ w'.memory = w.memory := by
  obtain ⟨constants, w', hb, hw', hm⟩ := run_bind_lz4 hw
  unfold create
  rw [if_neg (by omega), Op.run_bind_ok hb]
  exact ⟨_, w', rfl, hw', hm⟩

end Binding

section Range

variable {L : Libraries σ} {w : World σ} {src : Range} (dst : Range) {block : Bytes}
  (hL : Decodes L block) (hs : src.Holds w.memory block) (hb : block.length ≤ intMax)

theorem fits_decompress (hs : src.Holds w.memory block) (hb : block.length ≤ intMax) :
    (Call.lz4Decompress ⟨src.length, w.memory.read? src.start src.length⟩
      (min dst.length intMax)).fits = true := by
  simp only [Call.fits, fitsInt, hs.length_eq, Bool.and_eq_true, decide_eq_true_eq]
  unfold intMax at *
  omega

section Answer

variable {reply : Written Int} {s : σ} (hs : src.Holds w.memory block)
  (hb : block.length ≤ intMax)
  (hanswer : L.answer (.lz4Decompress ⟨src.length, w.memory.read? src.start src.length⟩
    (min dst.length intMax)) w.libraries = (.ok reply, s))

include hs hb hanswer

/-- A block that the library takes comes to as many bytes as it says, and what it wrote is at the
start of the destination. -/
theorem run_decompressRange_taken (h : 0 ≤ reply.result) :
    ∃ w', (decompressRange L src dst).run w = (.ok reply.result, w') ∧
      w'.memory = w.memory.write dst.start (reply.bytes.take (min dst.length intMax)) := by
  have hcall := @Op.run_call_ok _ L _ ⟨some src.start, some dst.start⟩ _ _ _ hanswer
  unfold decompressRange
  rw [if_neg (by rw [hs.length_eq]; omega), Op.run_bind_ok (Op.run_source w src),
    Op.run_bind_ok hcall, Op.run_bind_ok (Op.run_store _ _ _ _), if_pos h]
  exact ⟨_, rfl, rfl⟩

/-- A block that the library refuses is complained of by what the headers say that are found after
the call; they are those of the block, unless the destination lies over it. -/
theorem run_decompressRange_refused (h : reply.result < 0) :
    ∃ found w', (src.Apart dst → found = block) ∧ (decompressRange L src dst).run w =
      (.error (decodingError (min dst.length intMax) found reply.result), w') := by
  have hcall := @Op.run_call_ok _ L _ ⟨some src.start, some dst.start⟩ _ _ _ hanswer
  have hfit : (reply.bytes.take (min dst.length intMax)).length ≤ dst.length :=
    Nat.le_trans (List.length_take_le _ _) (Nat.min_le_left _ _)
  have houtside := Memory.sameOutside_write dst w.memory hfit
  unfold decompressRange
  rw [if_neg (by rw [hs.length_eq]; omega), Op.run_bind_ok (Op.run_source w src),
    Op.run_bind_ok hcall, Op.run_bind_ok (Op.run_store _ _ _ _), if_neg (Int.not_le.mpr h),
    Op.run_bind_ok (Op.run_bytes _ src), Op.run_bind_ok (Op.run_note _ _ _)]
  exact ⟨_, _, fun hapart => (hs.of_apart houtside hapart).content, rfl⟩

end Answer

include hL hs hb

theorem run_decompressRange_ok {out : Bytes}
    (hd : decode (min dst.length intMax) block = some out) :
    ∃ w', (decompressRange L src dst).run w = (.ok (out.length : Int), w') ∧
      w'.memory = w.memory.write dst.start out := by
  obtain ⟨s, hanswer⟩ := hL.decoded w.libraries hs.content (fits_decompress dst hs hb) hd
  have hrun := run_decompressRange_taken dst hs hb hanswer (Int.natCast_nonneg _)
  rwa [List.take_of_length_le (length_decode_le_capacity hd)] at hrun

/-- A block that does not decode is complained of by what the headers say that are found after the
call. -/
theorem run_decompressRange_error (hd : decode (min dst.length intMax) block = none) :
    ∃ status found w', status < 0 ∧ (src.Apart dst → found = block) ∧
      (decompressRange L src dst).run w =
        (.error (decodingError (min dst.length intMax) found status), w') := by
  obtain ⟨status, written, s, hneg, hanswer⟩ :=
    hL.refused w.libraries hs.content (fits_decompress dst hs hb) hd
  obtain ⟨found, w', hfound, hrun⟩ := run_decompressRange_refused dst hs hb hanswer hneg
  exact ⟨status, found, w', hneg, hfound, hrun⟩

end Range

section Object

variable {L : Libraries σ} {w : World σ} {input : Argument} {block out : Bytes}
  (hL : Decodes L block) (hw : Bindable L w) (hi : input.Shows w.memory block)
  (hb : block.length ≤ intMax)

include hL hw hi hb

theorem run_decompressBlock_given {capacity : Nat} (hc : capacity < w.memory.room)
    (hd : decode (min capacity intMax) block = some out) :
    ((decompressBlock L input (some capacity)).run w).1 = .ok out := by
  obtain ⟨src, hinput, hs⟩ := Op.run_input_of_shows hi
  have hscratch := Op.run_scratch (w := w) hc
  have hcount : capacity < countLimit := Memory.lt_countLimit_of_lt_room hc
  obtain ⟨words, w₁, hcreate, -, hmem₁⟩ := run_create
    (w := { w with memory := (w.memory.add (.fresh capacity)).2 }) (hw.of_bindings rfl rfl)
    (show 1 ≤ usualAcceleration by decide)
  have hadded := hs.add (.fresh capacity)
  dsimp only at hmem₁
  rw [← hmem₁] at hadded
  obtain ⟨w', hrun, hmem⟩ := run_decompressRange_ok (Op.scratchRange w.memory capacity) hL
    hadded hb hd
  rw [hmem₁] at hmem
  have hfit := length_decode_le_capacity hd
  unfold decompressBlock
  rw [Op.run_bind_ok hinput]
  dsimp only
  rw [Op.run_bind_ok hscratch]
  unfold decompressBlockRange
  rw [if_neg (by decide), Op.run_bind_ok ((Op.run_bind_ok hcreate _).trans hrun),
    Int.toNat_natCast, Op.run_firstBytes_scratch hcount (by omega) hmem]

theorem run_decompressBlockInto_plain {output : Argument} {old : Bytes}
    (ho : output.Takes w.memory old) (hd : decode (min old.length intMax) block = some out) :
    ((decompressBlockInto L input output false).run w).1 = .ok (out.length : Int) ∧
      output.Takes ((decompressBlockInto L input output false).run w).2.memory
        (out ++ old.drop out.length) := by
  obtain ⟨src, hinput, hs⟩ := Op.run_input_of_shows hi
  obtain ⟨dst, hdst, hholds⟩ := ho
  have houtput : (Op.output output).run w = (.ok dst, w) := by rw [Op.run_output, hdst]
  obtain ⟨words, w₁, hcreate, -, hmem₁⟩ := run_create hw (show 1 ≤ usualAcceleration by decide)
  rw [← hmem₁] at hs hholds hdst
  have hfit := length_decode_le_capacity hd
  rw [← hholds.length_eq] at hd
  obtain ⟨w', hrun, hmem⟩ := run_decompressRange_ok dst hL hs hb hd
  unfold decompressBlockInto decompressBlockRange
  rw [Op.run_bind_ok hinput, Op.run_bind_ok houtput, if_neg (by decide), Op.run_bind_ok hcreate,
    hrun]
  rw [hmem]
  exact ⟨rfl, Argument.takes_write hdst hholds (by omega)⟩

end Object

end NativeCodec.Codec.Lz4
