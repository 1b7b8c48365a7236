import Mathlib.Algebra.GroupWithZero.Nat
import NativeCodec.Proofs.Zstd.Conforming
import NativeCodec.Proofs.Zstd.Truncation
import NativeCodec.Proofs.Zstd.Validation

/-!
Compressing several contents and reading the results back as one input.

`Emits` is what is promised of a library's compressor for a content, one conforming frame into a
destination of the bound's size, and `Decodes` what is promised of its decoders for some bytes.
Compressions of any contents, each in a world of its own, give frames that one after another
decompress to the contents one after another, record their length, and validate
(`decompress_flatten_compress`).
-/

set_option autoImplicit false
set_option relaxedAutoImplicit false

namespace NativeCodec.Codec.Zstd

open Native NativeCodec.Zstd

variable {σ : Type}

/-- The library says that a content needs at most so much room, and there it compresses it to one
conforming frame. -/
structure Emits (L : Libraries σ) (reader : Reader) (content : Bytes) (level : Int) (bound : Nat) :
    Prop where
  bounds : ∀ s, ∃ s' : σ, L.answer (.zstdBound (content.length : Int)) s = (.ok bound, s')
  emits : ∀ (context : Nat) {source : Source} (s : σ), source.length = content.length →
    source.content = content → ∃ (frame spill : Bytes) (s' : σ),
      L.answer (.zstdCompress context bound source level) s =
        (.ok ⟨frame.length, frame ++ spill⟩, s') ∧
      (frame ++ spill).length ≤ bound ∧ Conforms reader frame content

/-- The library decodes some bytes as the frames that they are, at once, by their headers and as a
stream with some room. -/
structure Decodes (L : Libraries σ) (reader : Reader) (room : Nat) (data : Bytes) : Prop where
  unpacks : Unpacks L reader data
  probes : Probing L data
  reads : ∃ At, Reads L reader room data At

/-- One compression: the world it is done in, the constants of the library and the bound there, the
object that shows the content, and the level. -/
structure Job (σ : Type) where
  world : World σ
  constants : Constants
  input : Argument
  level : Option Int
  content : Bytes
  bound : Nat

/-- The level at which a content is compressed. -/
def Job.usedLevel (j : Job σ) : Int := j.level.getD usualLevel

/-- A compression that can be asked for: of a level that the library knows, and of a content whose
bound is a size that memory can have. -/
structure Job.Ready (L : Libraries σ) (j : Job σ) : Prop where
  binds : Binds L j.world j.constants
  shows : j.input.Shows j.world.memory j.content
  least : j.constants.minLevel ≤ j.usedLevel
  most : j.usedLevel ≤ j.constants.maxLevel
  room : j.bound < j.world.memory.room

section Encoding

variable {L : Libraries σ} {reader : Reader} {w : World σ}

private theorem run_compress_ranges (level : Int) (handle : Nat) {src dst : Range}
    (hd : dst.readOnly = false) (w : World σ) :
    (Compressor.compress L ⟨level, some (owner .compression handle)⟩ (.range src)
      (.range dst)).run w = (compressRange L handle src dst level).run w := by
  have hinput : (Op.input (.range src)).run w = (.ok src, w) := rfl
  have houtput : (Op.output (.range dst)).run w = (.ok dst, w) := by
    change (Range.writable? dst, w) = _
    rw [Range.writable?, if_neg (by simp [hd])]
  unfold Compressor.compress
  rw [Op.run_bind_ok hinput, Op.run_bind_ok houtput]
  rfl

private theorem run_compressRange {src dst : Range} {frame spill : Bytes} {level : Int}
    {handle : Nat} {s : σ}
    (h : L.answer (.zstdCompress handle dst.length
      ⟨src.length, w.memory.read? src.start src.length⟩ level) w.libraries =
        (.ok ⟨frame.length, frame ++ spill⟩, s))
    (hd : dst.length < countLimit) (hfit : (frame ++ spill).length ≤ dst.length) :
    ∃ w', (compressRange L handle src dst level).run w = (.ok frame.length, w') ∧
      w'.memory = w.memory.write dst.start (frame ++ spill) := by
  have hword : isError frame.length = false := by
    rw [List.length_append] at hfit
    exact isError_of_lt (by omega)
  have htake := List.take_of_length_le hfit
  unfold compressRange
  rw [Op.run_bind_ok (Op.run_source w src), Op.run_bind_ok (Op.run_call_ok h),
    Op.run_bind_ok (Op.run_store _ _ _ _), htake, run_sized hword]
  exact ⟨_, rfl, rfl⟩

private theorem run_compress (hlends : Lends L .compression) {j : Job σ} (hj : j.Ready L)
    (he : Emits L reader j.content j.usedLevel j.bound) :
    ∃ frame, Conforms reader frame j.content ∧
      ((compress L j.input j.level).run j.world).1 = .ok frame := by
  obtain ⟨src, hinput, hs⟩ := Op.run_input_of_shows hj.shows
  have hcount : j.bound < countLimit := Nat.lt_of_lt_of_le hj.room (Nat.min_le_right _ _)
  obtain ⟨handle, w₁, hmem₁, hrun⟩ := run_withCompressor hlends hj.binds hj.least hj.most fun c => do
    let dst ← Op.scratch (← bound L (← Op.ofExcept src.count?))
    let n ← c.compress L (.range src) (.range dst)
    Op.firstBytes dst n
  obtain ⟨s, hbound⟩ := he.bounds w₁.libraries
  obtain ⟨w₂, hcall, hmem₂, -⟩ := Op.exists_run_call {} hbound
  have hboundrun : (bound L (j.content.length : Int)).run w₁ = (.ok j.bound, w₂) := by
    unfold bound
    rw [Op.run_bind_ok hcall, run_sized (isError_of_lt hcount)]
  rw [← hmem₁, ← hmem₂] at hs
  have hroom : j.bound < w₂.memory.room := by
    rw [hmem₂, hmem₁]
    exact hj.room
  have hadded : src.Holds (w₂.memory.add (.fresh j.bound)).2 j.content := hs.add _
  obtain ⟨frame, spill, s', hanswer, hfit, hconforms⟩ :=
    he.emits handle w₂.libraries hadded.length_eq hadded.content
  obtain ⟨w₃, hdone, hwritten⟩ := @run_compressRange _ L
    { w₂ with memory := (w₂.memory.add (.fresh j.bound)).2 } src (Op.scratchRange w₂.memory j.bound)
    _ _ _ _ _ hanswer hcount hfit
  have hrange := @run_compress_ranges _ L (j.level.getD usualLevel) handle src
    (Op.scratchRange w₂.memory j.bound) rfl
    { w₂ with memory := (w₂.memory.add (.fresh j.bound)).2 }
  refine ⟨frame, hconforms, ?_⟩
  unfold compress
  rw [Op.run_bind_ok hinput, hrun, Op.run_ofExcept_bind hs.count, Op.run_bind_ok hboundrun,
    Op.run_bind_ok (Op.run_scratch hroom), Op.run_bind_ok (hrange.trans hdone),
    Op.run_firstBytes_scratch_append hcount hfit hwritten]

private theorem run_jobs (hlends : Lends L .compression) {jobs : List (Job σ)}
    (hready : ∀ j ∈ jobs, j.Ready L)
    (hemits : ∀ j ∈ jobs, Emits L reader j.content j.usedLevel j.bound) :
    ∃ parts : List (Bytes × Bytes), (∀ p ∈ parts, Conforms reader p.1 p.2) ∧
      parts.map Prod.snd = jobs.map Job.content ∧
      jobs.map (fun j => ((compress L j.input j.level).run j.world).1) =
        (parts.map Prod.fst).map .ok := by
  induction jobs with
  | nil => exact ⟨[], fun _ h => absurd h List.not_mem_nil, rfl, rfl⟩
  | cons j jobs ih =>
    rw [List.forall_mem_cons] at hready hemits
    obtain ⟨frame, hconforms, hrun⟩ := run_compress hlends hready.1 hemits.1
    obtain ⟨parts, hparts, hcontents, hruns⟩ := ih hready.2 hemits.2
    refine ⟨(frame, j.content) :: parts, List.forall_mem_cons.mpr ⟨hconforms, hparts⟩, ?_, ?_⟩
    · rw [List.map_cons, List.map_cons, hcontents]
    · rw [List.map_cons, List.map_cons, List.map_cons, hrun, hruns]

end Encoding

section Decoding

variable {L : Libraries σ} {reader : Reader} {room : Nat} {w : World σ} {constants : Constants}
  {input : Argument} {parts : List (Bytes × Bytes)}

private theorem probe_parts (hp : ∀ p ∈ parts, Conforms reader p.1 p.2) (hne : parts ≠ [])
    (hs : ∀ p ∈ parts, p.2.length < countLimit) (name : Nat → String) :
    probe name (parts.map Prod.fst).flatten =
      .ok (some (parts.map fun p => p.2.length).sum) := by
  have hsized : ∀ frame ∈ parts.map Prod.fst, SizedFrame frame := by
    refine List.forall_mem_map.mpr fun p hmem => ?_
    have hsize := (hp p hmem).recordedSize_eq
    have hsmall := hs p hmem
    unfold countLimit at hsmall
    refine ⟨(hp p hmem).opens.afterFrame_eq, ?_, ?_⟩
    · unfold unknownSize wordLimit
      omega
    · unfold invalidSize wordLimit
      omega
  have hsizes : (parts.map Prod.fst).map recordedSize = parts.map fun p => p.2.length := by
    rw [List.map_map]
    exact List.map_congr_left fun p hmem => (hp p hmem).recordedSize_eq
  rw [probe_flatten hsized (by simpa using hne), hsizes]

private theorem run_decompress_contents {data : Bytes} {contents : List Bytes}
    (hL : Decodes L reader room data) (hlends : Lends L .decompression) (hw : Binds L w constants)
    (hi : input.Shows w.memory data) (hc : Consists reader data contents)
    (hp : probe L.errorName data = .ok (some contents.flatten.length))
    (hroom : contents.flatten.length < w.memory.room) :
    ((decompress L input none).run w).1 = .ok contents.flatten := by
  have hends := selfSized_decompress hL.unpacks hL.probes hlends hw hi
  generalize ((decompress L input none).run w).1 = outcome at hends
  cases hends with
  | unprobed complaint => exact absurd (complaint.symm.trans hp) (by simp)
  | unknown nothing => exact absurd (nothing.symm.trans hp) (by simp)
  | unavailable size refusal =>
    obtain rfl := Option.some.inj (Except.ok.inj (size.symm.trans hp))
    exact absurd (refusal.symm.trans (Memory.checkSize_of_lt hroom)) (by simp)
  | whole size frames fits room => rw [frames.unique hc]
  | failed size lack room =>
    obtain rfl := Option.some.inj (Except.ok.inj (size.symm.trans hp))
    exact absurd (lack contents hc) (Nat.lt_irrefl _)

end Decoding

private theorem emits_system (snappy : Except Error Constants) (reader : Reader) {content : Bytes}
    (h : content.length ≤ plainLimit) {level : Int} (hlevel : fitsInt level = true) {bound : Nat}
    (hb : compressBound content.length = some bound) :
    Emits (system snappy) reader content level bound := by
  have hlt : content.length ≤ 7 := h
  have hbound : content.length + 63 ≤ bound ∧ bound ≤ content.length + 64 := by
    unfold compressBound at hb
    rw [if_neg (by omega), Option.some.injEq] at hb
    rw [← hb, if_pos (by unfold maxBlock; omega)]
    unfold maxBlock
    omega
  have hlength : (encode content).length = content.length + 9 := by
    unfold encode encodeFields
    dsimp only
    rw [if_pos (by omega), Nat.div_eq_of_lt (by unfold maxBlock; omega)]
    simp only [encodeBlocks, encodeBlock, if_pos h, encodeBlockHeader, List.length_append,
      Bytes.length_ofNat, List.length_cons, List.length_nil]
    omega
  have hcompress : compress? bound content = some (encode content) := by
    unfold compress?
    rw [if_neg (by unfold smallestDestination; omega)]
    dsimp only
    rw [if_pos (by omega)]
  refine ⟨fun s => ⟨s, ?_⟩, fun context source s hsource hcontent => ?_⟩
  · have hfits : (Call.zstdBound (content.length : Int)).fits = true :=
      fitsSize_of_lt (by unfold countLimit; omega)
    rw [answer_system_of_fits hfits, systemReply, Int.toNat_natCast, hb]
    rfl
  · have hfits : (Call.zstdCompress context bound source level).fits = true := by
      simp only [Call.fits, hlevel, fitsSize_of_lt (show bound < countLimit by
        unfold countLimit; omega), fitsSize_of_lt (show source.length < countLimit by
        unfold countLimit; omega), Bool.and_self]
    refine ⟨encode content, [], s, ?_, by rw [List.append_nil]; omega, conforms_encode reader h⟩
    rw [answer_system_of_fits hfits, systemReply, hcontent, runZstdCompress, hcompress,
      List.append_nil]

private def plainJob (level : Option Int) (content : Bytes) (bound : Nat) : Job Contexts where
  world := { memory := .holding content, libraries := {} }
  constants := systemConstants
  input := .first
  level := level
  content := content
  bound := bound

private theorem ready_plainJob (snappy : Except Error Constants) {level : Option Int}
    {content : Bytes} {bound : Nat} (h : content.length ≤ plainLimit)
    (hmin : systemConstants.minLevel ≤ level.getD usualLevel)
    (hmax : level.getD usualLevel ≤ systemConstants.maxLevel)
    (hroom : bound < (Memory.holding content).room) :
    (plainJob level content bound).Ready (system snappy) where
  binds := binds_system snappy (Regular.fresh _)
  shows := Argument.first_shows (Nat.lt_of_le_of_lt h (by decide))
  least := hmin
  most := hmax
  room := hroom

private theorem decodes_system (snappy : Except Error Constants) {data : Bytes}
    (hb : data.length < countLimit) : Decodes (system snappy) entropyReader maxBlock data where
  unpacks := .system snappy hb
  probes := .system snappy hb
  reads := ⟨_, .system snappy data⟩

end NativeCodec.Codec.Zstd
