import NativeCodec.Proofs.Lz4.Compressor
import NativeCodec.Proofs.Lz4.Decompression
import NativeCodec.Proofs.Lz4.Encoder

set_option autoImplicit false
set_option relaxedAutoImplicit false

namespace NativeCodec.Codec.Lz4

open Native NativeCodec.Lz4

variable {σ : Type}

/-- A block that decodes to a content and is no longer than the bound. -/
structure Compressed (content block : Bytes) : Prop where
  pos : 1 ≤ block.length
  length_le : block.length ≤ compressBound content.length
  decodes : decode content.length block = some content

/-- Where there is room for any compression of a content, the library compresses it. -/
def Compresses (L : Libraries σ) (content : Bytes) : Prop :=
  ∀ {source : Source} {capacity : Nat} {acceleration : Int} (words : Int) (s : σ),
    source.length = content.length → source.content = content →
    compressBound content.length ≤ capacity → capacity ≤ intMax →
    1 ≤ acceleration → acceleration ≤ intMax →
    ∃ block s', Compressed content block ∧
      L.answer (.lz4Compress words source capacity acceleration) s =
        (.ok { result := block.length, bytes := block }, s')

theorem compressBound_le {n : Nat} (h : n ≤ maxInputSize) : compressBound n ≤ intMax := by
  rw [compressBound, if_pos h]
  unfold maxInputSize at h
  unfold intMax
  omega

private theorem one_le_length_of_decode {capacity : Nat} {block out : Bytes}
    (h : decode capacity block = some out) : 1 ≤ block.length := by
  cases block with
  | nil =>
    have hwalk := blockLength?_of_decode h
    rw [blockLength?, walk_none (by rfl)] at hwalk
    exact absurd hwalk (by simp)
  | cons b rest =>
    rw [List.length_cons]
    omega

theorem Compresses.system (snappy : Except Error Constants) {content : Bytes}
    (h : content.length ≤ maxInputSize) : Compresses (system snappy) content := by
  intro source capacity acceleration words s hlength hcontent hroom hcapacity hpos hmost
  have hwrites := ofBytes_writes content
  have hdecode := hwrites.decode (Nat.le_refl _)
  have hle : (Block.ofBytes content).encode.length ≤ compressBound content.length := by
    rw [compressBound, if_pos h]
    exact hwrites.length_le
  have hfits : (Call.lz4Compress words source capacity acceleration).fits = true := by
    unfold maxInputSize at h
    unfold intMax at *
    simp only [Call.fits, fitsInt, hlength, Bool.and_eq_true, decide_eq_true_eq]
    omega
  have hcompress : compress? capacity content = some (Block.ofBytes content).encode := by
    unfold compress?
    dsimp only
    rw [if_pos (Nat.le_trans hle hroom)]
  refine ⟨_, s, ⟨one_le_length_of_decode hdecode, hle, hdecode⟩, ?_⟩
  simp only [Native.system, hfits, if_true, systemReply, hcontent, runLz4Compress, hcompress]

/-- A block as it is kept: behind the size of its content, if that is stored. -/
def pack (sized : Bool) (size : Nat) (block : Bytes) : Bytes :=
  if sized then Bytes.ofNat sizeWidth size ++ block else block

def packBound (sized : Bool) (size : Nat) : Nat :=
  compressBound size + if sized then sizeWidth else 0

private theorem packBound_lt {n : Nat} (hn : n ≤ maxInputSize) (sized : Bool) :
    packBound sized n < 0x100000000 := by
  have hbound := compressBound_le hn
  unfold intMax at hbound
  unfold packBound sizeWidth
  split
  · omega
  · omega

theorem Compressed.length_pack_le {content block : Bytes} (h : Compressed content block)
    (sized : Bool) : (pack sized content.length block).length ≤ packBound sized content.length := by
  have := h.length_le
  unfold pack packBound
  split
  · rw [List.length_append, Bytes.length_ofNat]
    omega
  · omega

section Run

variable {L : Libraries σ} {w : World σ} {content : Bytes}

private theorem run_bound (hL : Documented L) (hw : Bindable L w) {n : Nat}
    (hn : n ≤ maxInputSize) :
    ∃ w', (bound L n).run w = (.ok (compressBound n : Int), w') ∧ Bindable L w' ∧
      w'.memory = w.memory := by
  obtain ⟨constants, w₁, hbind, hw₁, hmem⟩ := run_bind_lz4 hw
  obtain ⟨s, hanswer⟩ := hL.bound n w₁.libraries hn
  obtain ⟨w', hrun, hbindings, hmemory⟩ := run_bound_of_bind hn hbind hanswer
  exact ⟨w', hrun, hw₁.of_bindings hbindings (congrArg Memory.limit hmemory),
    hmemory.trans hmem⟩

theorem run_blockBound {input : Argument} (hL : Documented L) (hw : Bindable L w)
    (hi : input.Shows w.memory content) (hn : content.length ≤ maxInputSize) (sized : Bool) :
    ∃ w', (blockBound L input sized).run w = (.ok (packBound sized content.length : Int), w') ∧
      Bindable L w' ∧ w'.memory = w.memory := by
  obtain ⟨src, hinput, hs⟩ := Op.run_input_of_shows hi
  obtain ⟨w', hbound, hw', hmem⟩ := run_bound hL hw hn
  unfold blockBound
  rw [Op.run_bind_ok hinput, Op.run_ofExcept_bind hs.count, Op.run_bind_ok hbound]
  refine ⟨w', ?_, hw', hmem⟩
  unfold packBound
  cases sized with
  | true => rfl
  | false => rfl

variable (hc : Compresses L content) (hn : content.length ≤ maxInputSize) {acceleration : Int}
  (ha : 1 ≤ acceleration) (hm : acceleration ≤ intMax) {src dst : Range}

include hc hn ha hm

private theorem run_compressRange (hs : src.Holds w.memory content) (words : Int)
    (hr : compressBound content.length ≤ dst.length) :
    ∃ block w', Compressed content block ∧
      (compressRange L ⟨acceleration, words⟩ src dst).run w = (.ok (block.length : Int), w') ∧
      w'.memory = w.memory.write dst.start block := by
  have hbound := compressBound_le hn
  obtain ⟨block, s, hblock, hanswer⟩ := hc words w.libraries hs.length_eq hs.content
    (show _ ≤ min dst.length intMax by omega) (Nat.min_le_right _ _) ha hm
  have hpos : (0 : Int) < block.length := Int.natCast_pos.mpr hblock.pos
  have hfit : block.take (min dst.length intMax) = block := by
    have := hblock.length_le
    exact List.take_of_length_le (by omega)
  have hrun := @run_compressRange_written _ L w ⟨acceleration, words⟩ src dst
    (by rw [hs.length_eq]; exact hn) ⟨block.length, block⟩ s hanswer hpos
  refine ⟨block, _, hblock, hrun, ?_⟩
  change w.memory.write dst.start (block.take (min dst.length intMax)) = _
  rw [hfit]

private theorem run_compressBlockRange_plain {given : Option Int}
    (hg : given.getD usualAcceleration = acceleration) (hw : Bindable L w) {old : Bytes}
    (hs : src.Holds w.memory content) (hd : dst.Holds w.memory old)
    (hr : compressBound content.length ≤ old.length) :
    ∃ block w', Compressed content block ∧
      (compressBlockRange L src dst given false).run w = (.ok (block.length : Int), w') ∧
      dst.Holds w'.memory (block ++ old.drop block.length) ∧
      ∀ a : Argument, a.destination? w'.memory = a.destination? w.memory := by
  obtain ⟨words, w₁, hcreate, -, hmem₁⟩ := run_create hw ha
  rw [← hmem₁] at hs hd
  obtain ⟨block, w', hblock, hrun, hmem⟩ := run_compressRange hc hn ha hm hs words
    (by rw [hd.length_eq]; exact hr)
  refine ⟨block, w', hblock, ?_, ?_, ?_⟩
  · unfold compressBlockRange
    rw [hg, Op.run_bind_ok hcreate, if_pos rfl, hrun]
  · rw [hmem]
    exact hd.write (Nat.le_trans hblock.length_le hr)
  · intro a
    rw [hmem, Argument.destination?_write, hmem₁]

private theorem run_compressBlockRange_sized {given : Option Int}
    (hg : given.getD usualAcceleration = acceleration) (hw : Bindable L w) {old : Bytes}
    (hs : src.Holds w.memory content) (hd : dst.Holds w.memory old)
    (hr : compressBound content.length + sizeWidth ≤ old.length) :
    ∃ block w', Compressed content block ∧
      (compressBlockRange L src dst given true).run w =
        (.ok ((block.length : Int) + sizeWidth), w') ∧
      dst.Holds w'.memory (Bytes.ofNat sizeWidth content.length ++ block ++
        old.drop (sizeWidth + block.length)) ∧
      ∀ a : Argument, a.destination? w'.memory = a.destination? w.memory := by
  subst hg
  obtain ⟨words, w₁, hcreate, -, hmem₁⟩ := run_create hw ha
  rw [← hmem₁] at hs hd
  have hlength := hd.length_eq
  have hroom : compressBound content.length ≤ (behindSize true dst).length := by
    change _ ≤ dst.length - sizeWidth
    omega
  obtain ⟨block, w', hblock, hrun, hmem⟩ := run_compressRange hc hn ha hm hs words hroom
  change w'.memory = w₁.memory.write (dst.start.advance sizeWidth) block at hmem
  have hfit := hblock.length_le
  have hsize : sizeHeader src.length = .ok (Bytes.ofNat sizeWidth content.length) := by
    rw [hs.length_eq]
    exact sizeHeader_of_le hn
  have hheader : (Bytes.ofNat sizeWidth content.length).length = sizeWidth :=
    Bytes.length_ofNat _ _
  have htake : (old.take sizeWidth).length = sizeWidth := by
    rw [List.length_take]
    omega
  -- first the block is written behind the place of the size, then the size
  have hbehind : dst.Holds w'.memory
      (old.take sizeWidth ++ (block ++ old.drop (sizeWidth + block.length))) := by
    rw [hmem, ← List.append_assoc]
    exact hd.write_at (by omega)
  have hwhole := hbehind.write (show (Bytes.ofNat sizeWidth content.length).length ≤ _ by
    rw [hheader, List.length_append]
    omega)
  rw [hheader, List.drop_left' htake, ← List.append_assoc] at hwhole
  refine ⟨block, { w' with memory := w'.memory.write dst.start _ }, hblock, ?_, hwhole, ?_⟩
  · rw [run_compressBlockRange_behind hcreate hd.length_lt (by omega), Op.run_bind_ok hrun,
      Op.run_ofExcept_bind hsize]
    rfl
  · intro a
    rw [Argument.destination?_write, hmem, Argument.destination?_write, hmem₁]

private theorem run_compressBlockRange {given : Option Int}
    (hg : given.getD usualAcceleration = acceleration) (hw : Bindable L w) {old : Bytes}
    (hs : src.Holds w.memory content) (hd : dst.Holds w.memory old) (sized : Bool)
    (hr : packBound sized content.length ≤ old.length) :
    ∃ block w', Compressed content block ∧
      (compressBlockRange L src dst given sized).run w =
        (.ok ((pack sized content.length block).length : Int), w') ∧
      dst.Holds w'.memory (pack sized content.length block ++
        old.drop (pack sized content.length block).length) ∧
      ∀ a : Argument, a.destination? w'.memory = a.destination? w.memory := by
  cases sized with
  | false => exact run_compressBlockRange_plain hc hn ha hm hg hw hs hd hr
  | true =>
    obtain ⟨block, w', hblock, hrun, hholds, hplaces⟩ :=
      run_compressBlockRange_sized hc hn ha hm hg hw hs hd hr
    have hlength : (pack true content.length block).length = sizeWidth + block.length := by
      rw [pack, if_pos rfl, List.length_append, Bytes.length_ofNat]
    refine ⟨block, w', hblock, ?_, ?_, hplaces⟩
    · rw [hrun, hlength, Int.natCast_add, Int.add_comm]
    · rw [hlength]
      exact hholds

theorem run_compressBlock {input : Argument} {given : Option Int}
    (hg : given.getD usualAcceleration = acceleration) (hL : Documented L) (hw : Bindable L w)
    (hi : input.Shows w.memory content) (hin : input.Within w.memory) (sized : Bool) :
    ∃ block, Compressed content block ∧
      ((compressBlock L input given sized).run w).1 = .ok (pack sized content.length block) := by
  have hsmall := packBound_lt hn sized
  obtain ⟨w₁, hmost, hw₁, hmem₁⟩ := run_blockBound hL hw hi hn sized
  rw [← hmem₁] at hi hin
  have hscratch := Op.run_scratch (w := w₁) (hw₁.lt_room hsmall)
  have hzeros := Op.scratchRange_holds w₁.memory (Nat.lt_trans hsmall (by decide))
  obtain ⟨src, hinput, hs⟩ := Op.run_input_of_shows
    (w := { w₁ with memory := (w₁.memory.add (.fresh (packBound sized content.length))).2 })
    (hi.add hin _)
  obtain ⟨block, w', hblock, hrun, hholds, -⟩ := run_compressBlockRange
    (w := { w₁ with memory := (w₁.memory.add (.fresh (packBound sized content.length))).2 })
    hc hn ha hm hg (hw₁.of_bindings rfl rfl) hs hzeros sized
    (Nat.le_of_eq List.length_replicate.symm)
  refine ⟨block, hblock, ?_⟩
  unfold compressBlock
  rw [Op.run_bind_ok hmost, Op.run_bind_ok hscratch, Op.run_bind_ok hinput, Op.run_bind_ok hrun,
    Int.toNat_natCast, Op.run_firstBytes_of_holds hholds]

theorem run_compressBlockInto {input output : Argument} {given : Option Int}
    (hg : given.getD usualAcceleration = acceleration) (hw : Bindable L w) {old : Bytes}
    (hi : input.Shows w.memory content) (ho : output.Takes w.memory old) (sized : Bool)
    (hr : packBound sized content.length ≤ old.length) :
    ∃ block, Compressed content block ∧
      ((compressBlockInto L input output given sized).run w).1 =
        .ok ((pack sized content.length block).length : Int) ∧
      output.Takes ((compressBlockInto L input output given sized).run w).2.memory
        (pack sized content.length block ++
          old.drop (pack sized content.length block).length) := by
  obtain ⟨src, hinput, hs⟩ := Op.run_input_of_shows hi
  obtain ⟨dst, hdst, hd⟩ := ho
  have houtput : (Op.output output).run w = (.ok dst, w) := by rw [Op.run_output, hdst]
  obtain ⟨block, w', hblock, hrun, hholds, hplaces⟩ :=
    run_compressBlockRange hc hn ha hm hg hw hs hd sized hr
  refine ⟨block, hblock, ?_⟩
  unfold compressBlockInto
  rw [Op.run_bind_ok hinput, Op.run_bind_ok houtput, hrun]
  exact ⟨rfl, dst, (hplaces output).trans hdst, hholds⟩

end Run

end NativeCodec.Codec.Lz4
