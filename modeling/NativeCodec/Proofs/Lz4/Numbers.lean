import NativeCodec.Proofs.Lz4.Compression
import NativeCodec.Proofs.Lz4.PrefixFree
import NativeCodec.Proofs.Lz4.Typed
import NativeCodec.Proofs.Status.Codecs

/-!
Numbers that the LZ4 library is handed.

Sources that are too long are refused before the library is called and capacities are cut, so that
with an acceleration that fits every number of every call does (`numbers_fit`). Nobody looks at the
upper end of an acceleration, and one that is too large is only found out by the call
(`run_compressRange_overflow`).
-/

set_option autoImplicit false
set_option relaxedAutoImplicit false

namespace NativeCodec.Codec.Lz4

open Native NativeCodec.Lz4

variable {σ α : Type} {L : Libraries σ}

/-- A call of the LZ4 library whose numbers are all from 0 up to the largest that it takes. -/
def Small : Call → Prop
  | .lz4Bound size => 0 ≤ size ∧ size ≤ intMax
  | .lz4Compress _ source capacity acceleration =>
    source.length ≤ intMax ∧ capacity ≤ intMax ∧ 0 ≤ acceleration ∧ acceleration ≤ intMax
  | .lz4Decompress source capacity => source.length ≤ intMax ∧ capacity ≤ intMax
  | _ => False

private theorem Small.fits {c : Call} (h : Small c) : c.fits = true := by
  unfold Small intMax at h
  cases c with
  | lz4Bound size =>
    simp only [Call.fits, fitsInt, Bool.and_eq_true, decide_eq_true_eq]
    omega
  | lz4Compress words source capacity acceleration =>
    simp only [Call.fits, fitsInt, Bool.and_eq_true, decide_eq_true_eq]
    omega
  | lz4Decompress source capacity =>
    simp only [Call.fits, fitsInt, Bool.and_eq_true, decide_eq_true_eq]
    omega
  | _ => exact h.elim

private theorem small_bound {length : Int} (h : 0 ≤ length) (hn : length ≤ maxInputSize) :
    Small (.lz4Bound length) := by
  have hmax : (maxInputSize : Int) ≤ intMax := by decide
  exact ⟨h, Int.le_trans hn hmax⟩

/-- What a compressor asks of the library for two ranges: to compress all of the source, into as
much of the destination as the library takes, and how much room that needs. -/
def Compressor.Asks (c : Compressor) (src dst : Range) : Call → Prop
  | .lz4Compress words source capacity acceleration =>
    words = c.stateWords ∧ source.length = src.length ∧ capacity = min dst.length intMax ∧
      acceleration = c.acceleration
  | .lz4Bound size => size = src.length
  | _ => False

def DecompressAsks (src dst : Range) : Call → Prop
  | .lz4Decompress source capacity =>
    source.length = src.length ∧ capacity = min dst.length intMax
  | _ => False

/-- A value error without any call since a world. -/
structure Refused (w : World σ) (result : Except Error α × World σ) : Prop where
  value : ∃ e, result.1 = .error e ∧ e.kind.isA .value = true
  uncalled : CallsOnly (fun _ => False) w result.2

private theorem Refused.at_once {w : World σ} {e : Error} (h : e.kind.isA .value = true) :
    Refused (α := α) w (.error e, w) :=
  ⟨⟨e, rfl, h⟩, CallsOnly.of_events rfl⟩

private theorem typed_system (snappy : Except Error Constants) : (system snappy).Typed where
  answers c s h := ⟨_, _, by simp only [Native.system, h, if_true]; rfl⟩
  refuses c s h := ⟨s, by simp [Native.system, h]⟩
  bounds n room s s' h := by
    have hroom : (if n < 0 then (0 : Int) else (compressBound n.toNat : Int)) = room := by
      cases hf : (Call.lz4Bound n).fits with
      | false => exact absurd h (by simp [Native.system, hf])
      | true =>
        simp only [Native.system, hf, if_true] at h
        exact Except.ok.inj (Prod.mk.inj h).1
    rw [← hroom]
    split
    · decide
    · by_cases hn : n.toNat ≤ maxInputSize
      · exact Int.ofNat_le.mpr (compressBound_le hn)
      · rw [compressBound, if_neg hn]
        decide
  binds s e h := by
    have hbound : (Except.ok systemConstants : Except Error Constants) = .error e := h
    exact absurd hbound (by simp)

private theorem safe_checkInput (length : Int) :
    Safe (fun _ => length ≤ maxInputSize) (checkInput length) := by
  unfold checkInput
  split
  · exact nofun
  · next h => exact Int.not_lt.mp h

section Typed

variable (hL : L.Typed)

include hL

private theorem hands_create (acceleration : Int) {ask : Call → Prop} :
    Op.Hands ask (fun c => c.acceleration = acceleration ∧ 1 ≤ acceleration)
      (create L acceleration) := by
  unfold create
  refine Op.Hands.ite (fun _ => Op.Hands.throw_bind (by simp [Error.kind]) _) fun ha => ?_
  exact Op.Hands.bind (Op.hands_bind hL) fun k _ => Op.Hands.pure ⟨rfl, Int.not_lt.mp ha⟩

private theorem hands_bound {length : Int} (h : 0 ≤ length) {ask : Call → Prop}
    (hask : length ≤ maxInputSize → ask (.lz4Bound length)) :
    Op.Hands ask (fun room : Int => room ≤ intMax) (bound L length) := by
  refine Op.Hands.bind (Op.Hands.ofExcept (safe_checkInput length)) fun _ hn => ?_
  refine Op.Hands.bind (Op.hands_bind hL) fun _ _ => ?_
  have hsmall := small_bound h hn
  refine (Op.hands_call hL {} hsmall.fits (hask hn)).mono (fun _ h => h) fun room hreply => ?_
  obtain ⟨s, s', hanswer⟩ := hreply
  exact hL.bounds length room s s' hanswer

private theorem hands_compressRange {c : Compressor} (ha : 0 ≤ c.acceleration)
    (hm : c.acceleration ≤ intMax) (src dst : Range) :
    Op.Hands (fun call => Small call ∧ c.Asks src dst call) (fun _ => src.length ≤ maxInputSize)
      (compressRange L c src dst) := by
  unfold compressRange
  refine Op.Hands.bind (Op.Hands.ofExcept (safe_checkInput src.length)) fun _ hn => ?_
  refine Op.Hands.bind (Op.hands_source src) fun source hs => ?_
  have hfit : src.length ≤ maxInputSize := Int.ofNat_le.mp hn
  have hlength : src.length ≤ intMax := Nat.le_trans hfit (by decide)
  have hsmall : Small (.lz4Compress c.stateWords source (min dst.length intMax) c.acceleration) :=
    ⟨by rw [hs]; exact hlength, Nat.min_le_right _ _, ha, hm⟩
  refine Op.Hands.bind (Op.hands_call hL _ hsmall.fits ⟨hsmall, rfl, hs, rfl, rfl⟩)
    fun reply _ => ?_
  refine Op.Hands.bind (Op.hands_store _ _ _) fun _ _ => ?_
  refine Op.Hands.ite (fun _ => Op.Hands.pure hfit) fun _ => ?_
  have hroom := small_bound (Int.natCast_nonneg src.length) hn
  refine Op.Hands.bind (hands_bound hL (Int.natCast_nonneg _) fun _ => ⟨hroom, rfl⟩)
    fun most _ => ?_
  refine Op.Hands.ite (fun _ => ?_) fun _ => ?_
  · exact Op.Hands.throw_bind (by simp [Error.kind]) _
  · exact Op.Hands.throw (by simp [Error.kind])

private theorem hands_decompressRange (src dst : Range) :
    Op.Hands (fun call => Small call ∧ DecompressAsks src dst call)
      (fun _ => src.length ≤ intMax) (decompressRange L src dst) := by
  unfold decompressRange
  refine Op.Hands.ite (fun _ => Op.Hands.throw_bind (by simp [Error.kind]) _) fun hlong => ?_
  have hlength : src.length ≤ intMax := Nat.not_lt.mp hlong
  refine Op.Hands.bind (Op.hands_source src) fun source hs => ?_
  have hsmall : Small (.lz4Decompress source (min dst.length intMax)) :=
    ⟨by rw [hs]; exact hlength, Nat.min_le_right _ _⟩
  refine Op.Hands.bind (Op.hands_call hL _ hsmall.fits ⟨hsmall, hs, rfl⟩) fun reply _ => ?_
  refine Op.Hands.bind (Op.hands_store _ _ _) fun _ _ => ?_
  refine Op.Hands.ite (fun _ => Op.Hands.pure hlength) fun _ => ?_
  refine Op.Hands.bind (Op.hands_bytes src) fun block _ => ?_
  refine Op.Hands.bind (Op.hands_note _ _) fun _ _ => Op.Hands.throw ?_
  rcases kind_decodingError (min dst.length intMax) block reply.result with h | h
  · rw [h]
    decide
  · rw [h]
    decide

private theorem hands_compressBlockRange {given : Option Int}
    (hm : given.getD usualAcceleration ≤ intMax) (src : Range) {dst : Range}
    (hd : dst.length < countLimit) (sized : Bool) :
    Op.Hands Small (fun _ => src.length ≤ maxInputSize)
      (compressBlockRange L src dst given sized) := by
  unfold compressBlockRange
  refine Op.Hands.bind (hands_create hL _) fun c hc => ?_
  obtain ⟨hacceleration, hpos⟩ := hc
  have hrange := fun body =>
    (hands_compressRange hL (c := c) (by omega) (by omega) src body).mono (fun _ h => h.1)
      fun _ h => h
  refine Op.Hands.ite (fun _ => hrange dst) fun _ => ?_
  have hcount : Safe (fun _ => True) dst.count? := by
    rw [Range.count?, if_pos hd]
    trivial
  refine Op.Hands.bind (Op.Hands.ofExcept hcount) fun room _ => ?_
  refine Op.Hands.ite (fun _ => Op.Hands.throw_bind (by simp [Error.kind]) _) fun _ => ?_
  refine Op.Hands.bind (Op.Hands.ofExcept ((Op.safe_checkBounds _ _ _).map _)) fun body _ => ?_
  refine Op.Hands.bind (hrange body) fun n hn => ?_
  have hheader : Safe (fun _ => True) (sizeHeader src.length) := by
    rw [sizeHeader_of_le hn]
    trivial
  refine Op.Hands.bind (Op.Hands.ofExcept hheader) fun header _ => ?_
  exact Op.Hands.bind (Op.hands_write _ _) fun _ _ => Op.Hands.pure hn

private theorem handed_blockBound {w : World σ} (hw : w.Loads) {input : Argument} {src : Range}
    (hs : input.source? w.memory = .ok src) (hn : src.length < countLimit) (sized : Bool) :
    Handed Small (fun room : Int => room < countLimit) w ((blockBound L input sized).run w) := by
  have hinput : (Op.input input).run w = (.ok src, w) := by rw [Op.run_input, hs]
  have hcount : src.count? = .ok src.length := if_pos hn
  unfold blockBound
  rw [Op.run_bind_ok hinput, Op.run_ofExcept_bind hcount]
  have hlength := Int.natCast_nonneg src.length
  refine (Op.Hands.bind (hands_bound hL hlength (small_bound hlength)) fun room hroom => ?_) w hw
  refine Op.Hands.pure ?_
  unfold intMax at hroom
  unfold countLimit sizeWidth
  split
  · omega
  · omega

private theorem handed_compressBlock {given : Option Int}
    (hm : given.getD usualAcceleration ≤ intMax)
    {w : World σ} (hw : w.Loads) {input : Argument} {src : Range}
    (hs : input.source? w.memory = .ok src) (hn : src.length < countLimit) (sized : Bool) :
    Handed Small (fun _ => True) w ((compressBlock L input given sized).run w) := by
  unfold compressBlock
  refine Op.Handed.bind (handed_blockBound hL hw hs hn sized) fun room hroom => ?_
  refine Op.Hands.bind (Op.hands_scratch hroom) fun dst hd => ?_
  refine Op.Hands.bind (Op.hands_input input) fun src _ => ?_
  refine Op.Hands.bind (hands_compressBlockRange hL hm src hd sized) fun n _ => ?_
  exact Op.hands_firstBytes _ _

end Typed

section Long

variable {w : World σ} {src : Range}

private theorem refused_compressBlockRange (hL : L.Typed) (hw : w.Loads) {given : Option Int}
    {c : Compressor} {w' : World σ}
    (hc : (create L (given.getD usualAcceleration)).run w = (.ok c, w'))
    (h : maxInputSize < src.length) {dst : Range} (hd : dst.length < countLimit) (sized : Bool) :
    Refused w ((compressBlockRange L src dst given sized).run w) := by
  have hcalls : CallsOnly (fun _ => False) w w' := by
    have hmade : Handed (fun _ => False) _ w _ :=
      hands_create hL (given.getD usualAcceleration) w hw
    rw [hc] at hmade
    exact hmade.calls
  cases sized with
  | false =>
    unfold compressBlockRange
    rw [Op.run_bind_ok hc, if_pos rfl, run_compressRange_long h]
    exact ⟨⟨_, rfl, rfl⟩, hcalls⟩
  | true =>
    rcases Nat.lt_or_ge dst.length sizeWidth with hnarrow | hwidth
    · rw [run_compressBlockRange_narrow hc hnarrow]
      exact ⟨⟨_, rfl, rfl⟩, hcalls⟩
    · rw [run_compressBlockRange_behind hc hd hwidth,
        Op.run_bind_error (run_compressRange_long h _ _)]
      exact ⟨⟨_, rfl, rfl⟩, hcalls⟩

private theorem run_compressBlock_long {input : Argument} (hs : input.source? w.memory = .ok src)
    (h : maxInputSize < src.length) (hn : src.length < countLimit) (given : Option Int)
    (sized : Bool) :
    (compressBlock L input given sized).run w =
      (.error (.inputTooLong src.length maxInputSize), w) := by
  have hinput : (Op.input input).run w = (.ok src, w) := by rw [Op.run_input, hs]
  have hcount : src.count? = .ok src.length := if_pos hn
  have hroom : (blockBound L input sized).run w =
      (.error (.inputTooLong src.length maxInputSize), w) := by
    unfold blockBound
    rw [Op.run_bind_ok hinput, Op.run_ofExcept_bind hcount, Op.run_bind_error (run_bound_long h)]
  unfold compressBlock
  exact Op.run_bind_error hroom _

end Long

/-- Nobody looks at the upper end of an acceleration: one that does not fit is an error of its own
kind, in the middle of the compression. -/
theorem run_compressRange_overflow (hL : L.Typed) {c : Compressor}
    (hm : (intMax : Int) < c.acceleration) {src : Range} (h : src.length ≤ maxInputSize)
    (dst : Range) (w : World σ) :
    ∃ s, (compressRange L c src dst).run w = (.error .tooLarge, { w with libraries := s }) := by
  have hcheck : checkInput src.length = .ok () := if_neg (by omega)
  have hunfit : (Call.lz4Compress c.stateWords ⟨src.length, w.memory.read? src.start src.length⟩
      (min dst.length intMax) c.acceleration).fits = false := by
    have : fitsInt c.acceleration = false := by
      unfold intMax at hm
      simp only [fitsInt, Bool.and_eq_false_iff, decide_eq_false_iff_not]
      omega
    simp only [Call.fits, this, Bool.and_false]
  obtain ⟨s, hanswer⟩ := hL.refuses _ w.libraries hunfit
  refine ⟨s, ?_⟩
  unfold compressRange
  rw [Op.run_ofExcept_bind hcheck, Op.run_bind_ok (Op.run_source w src),
    Op.run_bind_error (Op.run_call_error hanswer)]

section Taken

variable {w : World σ} {input output : Argument} {src dst : Range}
  (hs : input.source? w.memory = .ok src) (hd : output.destination? w.memory = .ok dst)

include hs hd

private theorem run_taken (f : Range → Range → Op σ α) :
    (do let a ← Op.input input; let b ← Op.output output; f a b : Op σ α).run w =
      (f src dst).run w := by
  have hinput : (Op.input input).run w = (.ok src, w) := by rw [Op.run_input, hs]
  have houtput : (Op.output output).run w = (.ok dst, w) := by rw [Op.run_output, hd]
  rw [Op.run_bind_ok hinput, Op.run_bind_ok houtput]

theorem run_compress_taken (c : Compressor) :
    (compress L c input output).run w = (compressRange L c src dst).run w :=
  run_taken hs hd fun src dst => compressRange L c src dst

private theorem run_decompress_taken :
    (decompress L input output).run w = (decompressRange L src dst).run w :=
  run_taken hs hd fun src dst => decompressRange L src dst

theorem run_compressBlockInto_taken (given : Option Int) (sized : Bool) :
    (compressBlockInto L input output given sized).run w =
      (compressBlockRange L src dst given sized).run w :=
  run_taken hs hd fun src dst => compressBlockRange L src dst given sized

theorem run_decompressBlockInto_taken (sized : Bool) :
    (decompressBlockInto L input output sized).run w =
      (decompressBlockRange L src dst sized).run w :=
  run_taken hs hd fun src dst => decompressBlockRange L src dst sized

end Taken

section Fitting

/-- Every number that the library is handed fits, from a world on: whatever the lengths of the
ranges, and foreign ones may have any, a source that is too long is refused without a call and a
capacity that is too large is cut. Of an acceleration this holds if it fits itself; otherwise
whatever is not refused before ends in the error of a number that is too large. -/
structure Fitting (L : Libraries σ) (w : World σ) : Prop where
  compress : ∀ {acceleration c v v'}, (create L acceleration).run v = (.ok c, v') →
    ∀ {input output src dst}, input.source? w.memory = .ok src →
    output.destination? w.memory = .ok dst →
      (maxInputSize < src.length → Refused w ((compress L c input output).run w)) ∧
      (acceleration ≤ intMax →
        Handed (fun call => Small call ∧ c.Asks src dst call) (fun _ => src.length ≤ maxInputSize) w
          ((compress L c input output).run w)) ∧
      (intMax < acceleration → src.length ≤ maxInputSize →
        ((compress L c input output).run w).1 = .error .tooLarge)
  decompress : ∀ {input output src dst}, input.source? w.memory = .ok src →
    output.destination? w.memory = .ok dst →
      (intMax < src.length → Refused w ((decompress L input output).run w)) ∧
      Handed (fun call => Small call ∧ DecompressAsks src dst call) (fun _ => src.length ≤ intMax) w
        ((decompress L input output).run w)
  compressBlock : ∀ (given : Option Int) (sized : Bool) {input src},
    input.source? w.memory = .ok src → src.length < countLimit →
      (maxInputSize < src.length → Refused w ((compressBlock L input given sized).run w)) ∧
      (given.getD usualAcceleration ≤ intMax →
        Handed Small (fun _ => True) w ((compressBlock L input given sized).run w))
  compressBlockInto : ∀ {given c w'},
    (create L (given.getD usualAcceleration)).run w = (.ok c, w') →
    ∀ (sized : Bool) {input output src dst}, input.source? w.memory = .ok src →
    output.destination? w.memory = .ok dst → dst.length < countLimit →
      (maxInputSize < src.length →
        Refused w ((compressBlockInto L input output given sized).run w)) ∧
      (given.getD usualAcceleration ≤ intMax →
        Handed Small (fun _ => src.length ≤ maxInputSize) w
          ((compressBlockInto L input output given sized).run w))

private theorem gives_accepted (acceleration : Int) :
    Op.Gives (fun c => c.acceleration = acceleration ∧ 1 ≤ acceleration)
      (create L acceleration) := by
  unfold create
  split
  · exact Op.Gives.throw_bind _ _ _
  · next h => exact Op.Gives.after fun _ => Op.Gives.pure ⟨rfl, Int.not_lt.mp h⟩

/-- Whatever is compressed and decompressed, the numbers that the library is handed fit its
parameters. -/
theorem numbers_fit {L : Libraries σ} (hL : L.Typed) {w : World σ} (hw : w.Loads) :
    Fitting L w where
  compress hc input output src dst hs hd := by
    obtain ⟨hacceleration, hpos⟩ := gives_accepted _ _ _ (congrArg Prod.fst hc)
    rw [run_compress_taken hs hd]
    refine ⟨fun hlong => ?_, fun hm => ?_, fun hm hlength => ?_⟩
    · rw [run_compressRange_long hlong]
      exact Refused.at_once rfl
    · exact hands_compressRange hL (by omega) (by omega) src dst w hw
    · rw [← hacceleration] at hm
      obtain ⟨s, hrun⟩ := run_compressRange_overflow hL hm hlength dst w
      rw [hrun]
  decompress hs hd := by
    rw [run_decompress_taken hs hd]
    refine ⟨fun hlong => ?_, hands_decompressRange hL _ _ w hw⟩
    rw [run_decompressRange_long hlong]
    exact Refused.at_once rfl
  compressBlock given sized _ _ hs hn := by
    refine ⟨fun hlong => ?_, fun hm => handed_compressBlock hL hm hw hs hn sized⟩
    rw [run_compressBlock_long hs hlong hn]
    exact Refused.at_once rfl
  compressBlockInto hc sized _ _ src dst hs hd hn := by
    rw [run_compressBlockInto_taken hs hd]
    exact ⟨fun hlong => refused_compressBlockRange hL hw hc hlong hn sized,
      fun hm => hands_compressBlockRange hL hm src hn sized w hw⟩

def threeBytes : World Contexts :=
  { memory := .holding [97, 98, 99] [.fresh 20], libraries := {} }

/-- The largest acceleration that fits compresses. -/
theorem numbers_fit_largest :
    Fitting (system (.ok {})) threeBytes ∧
      ((create (system (.ok {})) intMax).run threeBytes).1 = .ok ⟨intMax, 2052⟩ ∧
      ((compress (system (.ok {})) ⟨intMax, 2052⟩ .first .second).run threeBytes).1 = .ok 4 :=
  ⟨numbers_fit (typed_system (.ok {})) (World.Loads.of_unsettled rfl),
    by decide +kernel, by decide +kernel⟩

/-- The next acceleration is accepted, and is too large for the call. -/
theorem numbers_overflow :
    ((create (system (.ok {})) (intMax + 1)).run threeBytes).1 = .ok ⟨intMax + 1, 2052⟩ ∧
      ((compress (system (.ok {})) ⟨intMax + 1, 2052⟩ .first .second).run threeBytes).1 =
        .error .tooLarge ∧
      ((compressBlock (system (.ok {})) .first (some (intMax + 1)) true).run threeBytes).1 =
        .error .tooLarge :=
  ⟨by decide +kernel, by decide +kernel, by decide +kernel⟩

end Fitting

end NativeCodec.Codec.Lz4
