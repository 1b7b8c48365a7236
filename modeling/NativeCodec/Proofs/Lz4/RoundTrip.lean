import NativeCodec.Proofs.Lz4.Compression
import NativeCodec.Proofs.Lz4.StoredSize

/-!
Compressing a content and reading it back.

The compressor of blocks is left open: `Compresses` is what is documented of it. Whatever it makes
of a content `RoundTrips`: it is decompressed to the content in every world, whether its size is
stored or given, and into every destination that the content fits
(`roundTrips_compressBlock`).
-/

set_option autoImplicit false
set_option relaxedAutoImplicit false

namespace NativeCodec.Codec.Lz4

open Native NativeCodec.Lz4

variable {σ : Type}

/-- A content was kept in so many bytes that it can be had back from them wherever they are
shown. -/
structure RoundTrips (L : Libraries σ) (sized : Bool) (content packed : Bytes) : Prop where
  length_le : packed.length ≤ packBound sized content.length
  header : sized = true → sizeHeader content.length = .ok (packed.take sizeWidth) ∧
    Bytes.toNat (packed.take sizeWidth) = content.length
  stored : sized = true → ∀ {w : World σ} {input : Argument}, Bindable L w →
    input.Shows w.memory packed → ((decompressBlock L input none).run w).1 = .ok content
  given : sized = false → ∀ {w : World σ} {input : Argument} {length : Nat}, Bindable L w →
    input.Shows w.memory packed → content.length ≤ length → length < w.memory.room →
    ((decompressBlock L input (some length)).run w).1 = .ok content
  into : ∀ {w : World σ} {input output : Argument} {old : Bytes}, Bindable L w →
    input.Shows w.memory packed → output.Takes w.memory old → content.length ≤ old.length →
    ((decompressBlockInto L input output sized).run w).1 = .ok (content.length : Int) ∧
      output.Takes ((decompressBlockInto L input output sized).run w).2.memory
        (content ++ old.drop content.length)

section Block

variable {L : Libraries σ} (hL : Documented L) {content block : Bytes}
  (hc : Compressed content block) (hn : content.length ≤ maxInputSize)

include hL hc hn

private theorem Compressed.roundTrips_plain : RoundTrips L false content block := by
  have hbound := compressBound_le hn
  have hfit := hc.length_le
  have hdecodes := hL.decodes block (zeroFree_of_decode hc.decodes)
  constructor
  case length_le => exact hfit
  case header => exact fun h => absurd h (by decide)
  case stored => exact fun h => absurd h (by decide)
  case given =>
    intro _ w input length hw hi hroom hlimit
    unfold maxInputSize at hn
    exact run_decompressBlock_given hdecodes hw hi (by omega) hlimit
      (decode_room hc.decodes (by unfold intMax; omega))
  case into =>
    intro w input output old hw hi ho hroom
    unfold maxInputSize at hn
    exact run_decompressBlockInto_plain hdecodes hw hi (by omega) ho
      (decode_room hc.decodes (by unfold intMax; omega))

private theorem Compressed.roundTrips_sized :
    RoundTrips L true content (Bytes.ofNat sizeWidth content.length ++ block) := by
  have hbound := compressBound_le hn
  have hfit := hc.length_le
  have hdecodes := hL.decodes block (zeroFree_of_decode hc.decodes)
  have hwidth : (Bytes.ofNat sizeWidth content.length).length = sizeWidth :=
    Bytes.length_ofNat _ _
  have hword : content.length < 0x100000000 := by
    unfold maxInputSize at hn
    omega
  have hcapacity : min content.length intMax = content.length := by
    unfold maxInputSize at hn
    unfold intMax
    omega
  have hdecode : decode (min content.length intMax) block = some content := by
    rw [hcapacity]
    exact hc.decodes
  constructor
  case length_le => exact hc.length_pack_le true
  case header =>
    intro _
    rw [List.take_left' hwidth, sizeHeader, if_pos hword, Bytes.toNat_ofNat]
    exact ⟨rfl, Nat.mod_eq_of_lt hword⟩
  case stored =>
    intro _ w input hw hi
    exact run_decompressBlock_ok hw hi hword hdecodes (by omega) hdecode rfl
  case given => exact fun h => absurd h (by decide)
  case into =>
    intro w input output old hw hi ho hroom
    exact run_decompressBlockInto_ok hw hi hword hdecodes (by omega) ho hroom hdecode rfl

private theorem Compressed.roundTrips (sized : Bool) :
    RoundTrips L sized content (pack sized content.length block) := by
  cases sized with
  | false => exact hc.roundTrips_plain hL hn
  | true => exact hc.roundTrips_sized hL hn

end Block

/-- A content of any size that the compressor takes is compressed at every acceleration, with its
size in front or without it, as a whole and into every destination of the size that is asked for;
and what it is compressed to can be taken back in every way that there is. -/
theorem roundTrips_compressBlock {L : Libraries σ} (hL : Documented L) {w : World σ}
    (hw : Bindable L w) {input : Argument} {content : Bytes} (hc : Compresses L content)
    (hn : content.length ≤ maxInputSize) (hi : input.Shows w.memory content)
    (hin : input.Within w.memory) {acceleration : Option Int}
    (ha : 1 ≤ acceleration.getD usualAcceleration)
    (hm : acceleration.getD usualAcceleration ≤ intMax) (sized : Bool) :
    (∃ packed, ((compressBlock L input acceleration sized).run w).1 = .ok packed ∧
      RoundTrips L sized content packed) ∧
    ∃ most : Nat, ((blockBound L input sized).run w).1 = .ok (most : Int) ∧
      ∀ (output : Argument) (old : Bytes), output.Takes w.memory old → most ≤ old.length →
        ∃ packed,
          ((compressBlockInto L input output acceleration sized).run w).1 =
            .ok (packed.length : Int) ∧
          output.Takes ((compressBlockInto L input output acceleration sized).run w).2.memory
            (packed ++ old.drop packed.length) ∧
          RoundTrips L sized content packed := by
  constructor
  · obtain ⟨block, hblock, hrun⟩ := run_compressBlock hc hn ha hm rfl hL hw hi hin sized
    exact ⟨_, hrun, hblock.roundTrips hL hn sized⟩
  · obtain ⟨w', hbound, -, -⟩ := run_blockBound hL hw hi hn sized
    refine ⟨packBound sized content.length, by rw [hbound], ?_⟩
    intro output old ho hroom
    obtain ⟨block, hblock, hrun, htakes⟩ :=
      run_compressBlockInto hc hn ha hm rfl hw hi ho sized hroom
    exact ⟨_, hrun, htakes, hblock.roundTrips hL hn sized⟩

/-- Twenty times a byte: their size, a literal, a match that repeats it, and the last literals. -/
theorem roundTrips_compressBlock_repeated :
    RoundTrips (system (.ok {})) true (List.replicate 20 97)
      [20, 0, 0, 0, 0x1A, 97, 1, 0, 0x50, 97, 97, 97, 97, 97] := by
  have hshows := @Argument.first_shows (List.replicate 20 97) [] (by decide)
  have hc := @Compresses.system (.ok {}) (List.replicate 20 97) (by decide)
  have hin : Argument.first.Within (.holding (List.replicate 20 97)) := Nat.zero_lt_one
  obtain ⟨⟨packed, hrun, htrips⟩, -⟩ := @roundTrips_compressBlock _ (system (.ok {})) (.system _)
    { memory := .holding (List.replicate 20 97), libraries := {} }
    (.system _ (Regular.fresh _) (by decide)) _ _ hc (by decide) hshows hin none
    (by decide) (by decide) true
  have hpacked : ((compressBlock (system (.ok {})) .first none true).run
      { memory := .holding (List.replicate 20 97), libraries := {} }).1 =
        .ok [20, 0, 0, 0, 0x1A, 97, 1, 0, 0x50, 97, 97, 97, 97, 97] := by decide +kernel
  rw [← Except.ok.inj (hrun.symm.trans hpacked)]
  exact htrips

end NativeCodec.Codec.Lz4
