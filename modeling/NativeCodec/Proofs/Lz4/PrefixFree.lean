import NativeCodec.Proofs.Lz4.Measure
import NativeCodec.Proofs.Lz4.RoundTrip

/-!
Blocks with a stored size among longer and shorter bytes.

A block alone can be cut to a shorter block, and only the size in front of it tells. What is
accepted with a size in front fills a destination of that size (`Filling`), and so do neither the
bytes that it starts with nor those that start with it (`Filling.eq_of_isPrefix`); whatever fills
no such destination is a malformed input (`run_decompressBlock_unfilling`). Nothing more is needed
of the library than that it keeps to the rules when it counts (`Measures`).
-/

set_option autoImplicit false
set_option relaxedAutoImplicit false

namespace NativeCodec.Codec.Lz4

open Native NativeCodec.Lz4

variable {σ : Type}

/-- The library gives as the size of a decompressed block what the rules count, or a negative
status. Which bytes it writes is left open, and whether it takes a match of offset 0. -/
def Measures (L : Libraries σ) : Prop :=
  ∀ (source : Source) (capacity : Nat) (s : σ), (Call.lz4Decompress source capacity).fits = true →
    ∃ (reply : Written Int) (s' : σ),
      L.answer (.lz4Decompress source capacity) s = (.ok reply, s') ∧
        (0 ≤ reply.result → measure capacity source.content = some reply.result.toNat)

theorem Measures.system (snappy : Except Error Constants) : Measures (system snappy) := by
  intro source capacity s hf
  cases hd : decode capacity source.content with
  | none =>
    obtain ⟨status, bytes, s', hneg, hanswer⟩ := (Decodes.system snappy _).refused s rfl hf hd
    exact ⟨_, s', hanswer, fun hpos => absurd hneg (Int.not_lt.mpr hpos)⟩
  | some out =>
    obtain ⟨s', hanswer⟩ := (Decodes.system snappy _).decoded s rfl hf hd
    exact ⟨_, s', hanswer, fun _ => measure_of_decode hd⟩

def Filling (packed : Bytes) : Prop :=
  ∃ size block, size < 0x100000000 ∧ packed = Bytes.ofNat sizeWidth size ++ block ∧
    measure (min size intMax) block = some size

/-- Of two blocks that fill destinations of their stored sizes neither starts with the other. -/
theorem Filling.eq_of_isPrefix {packed other : Bytes} (h : Filling packed) (h' : Filling other)
    (hp : packed <+: other) : packed = other := by
  obtain ⟨size, block, hsize, rfl, hm⟩ := h
  obtain ⟨size', block', hsize', rfl, hm'⟩ := h'
  obtain ⟨more, hmore⟩ := hp
  rw [List.append_assoc] at hmore
  obtain ⟨hheader, hblock⟩ := List.append_inj hmore (by rw [Bytes.length_ofNat, Bytes.length_ofNat])
  have hread := congrArg Bytes.toNat hheader
  rw [Bytes.toNat_ofNat, Bytes.toNat_ofNat] at hread
  obtain rfl : size = size' :=
    (Nat.mod_eq_of_lt hsize).symm.trans (hread.trans (Nat.mod_eq_of_lt hsize'))
  have hfit := measure_le hm
  rw [Nat.min_eq_left (by omega)] at hm hm'
  rw [eq_of_measure hm hm' ⟨more, hblock⟩]

private theorem Compressed.filling {content block : Bytes} (hc : Compressed content block)
    (hn : content.length ≤ maxInputSize) : Filling (pack true content.length block) := by
  unfold maxInputSize at hn
  refine ⟨content.length, block, by omega, if_pos rfl, ?_⟩
  rw [Nat.min_eq_left (by unfold intMax; omega)]
  exact measure_of_decode hc.decodes

private theorem exists_header {packed : Bytes} (h : sizeWidth ≤ packed.length) :
    ∃ size block, size < 0x100000000 ∧ packed = Bytes.ofNat sizeWidth size ++ block := by
  have hlength : (packed.take sizeWidth).length = sizeWidth := by
    rw [List.length_take, Nat.min_eq_left h]
  have hlt := Bytes.toNat_lt (packed.take sizeWidth)
  have hheader := Bytes.ofNat_toNat (packed.take sizeWidth)
  rw [hlength] at hlt hheader
  exact ⟨_, packed.drop sizeWidth, hlt, by rw [hheader, List.take_append_drop]⟩

section Range

variable {L : Libraries σ} {w : World σ} {src dst : Range} {size : Nat} {block : Bytes}

private theorem run_decompressRange_measured (hL : Measures L) (hs : src.Holds w.memory block)
    (hb : block.length ≤ intMax) :
    (∃ n w', measure (min dst.length intMax) block = some n ∧
      (decompressRange L src dst).run w = (.ok (n : Int), w')) ∨
    ∃ found status w', (decompressRange L src dst).run w =
      (.error (decodingError (min dst.length intMax) found status), w') := by
  obtain ⟨reply, s, hanswer, hcount⟩ := hL ⟨src.length, w.memory.read? src.start src.length⟩
    (min dst.length intMax) w.libraries (fits_decompress dst hs hb)
  rw [hs.content] at hcount
  rcases Int.lt_or_le reply.result 0 with hneg | hpos
  · obtain ⟨found, w', -, hrun⟩ := run_decompressRange_refused dst hs hb hanswer hneg
    exact Or.inr ⟨found, _, w', hrun⟩
  · obtain ⟨w', hrun, -⟩ := run_decompressRange_taken dst hs hb hanswer hpos
    rw [← Int.toNat_of_nonneg hpos] at hrun
    exact Or.inl ⟨_, w', hcount hpos, hrun⟩

/-- A block that is longer than the library takes is complained of, and not for want of room. -/
theorem run_decompressRange_long (hb : intMax < src.length) :
    (decompressRange L src dst).run w = (.error (.blockTooLong src.length intMax), w) := by
  unfold decompressRange
  rw [if_pos hb, Op.run_bind_error (Op.run_throw _ _)]

end Range

section Object

variable {L : Libraries σ} {w : World σ} {input : Argument} {packed : Bytes}

private theorem run_decompressBlock_short (hi : input.Shows w.memory packed)
    (h : packed.length < sizeWidth) :
    ((decompressBlock L input none).run w).1 = .error .sizeMissing := by
  obtain ⟨src, hinput, hs⟩ := Op.run_input_of_shows hi
  have hshort : (storedSize src).run w = (.error .sizeMissing, w) := by
    unfold storedSize
    rw [Op.run_ofExcept_bind hs.count, if_pos h, Op.run_bind_error (Op.run_throw _ _)]
  unfold decompressBlock
  rw [Op.run_bind_ok hinput]
  dsimp only
  rw [Op.run_bind_error hshort]

variable (hw : Bindable L w) (hi : input.Shows w.memory packed)

include hw hi

/-- What does not fill a destination of its stored size is a malformed input. -/
theorem run_decompressBlock_unfilling (hL : Measures L)
    (hb : packed.length ≤ sizeWidth + intMax) (hne : ¬ Filling packed) :
    ∃ e, ((decompressBlock L input none).run w).1 = .error e ∧ e.kind = .malformedInput := by
  rcases Nat.lt_or_ge packed.length sizeWidth with hshort | hlong
  · exact ⟨_, run_decompressBlock_short hi hshort, rfl⟩
  obtain ⟨size, block, hm, rfl⟩ := exists_header hlong
  rw [List.length_append, Bytes.length_ofNat] at hb
  refine run_decompressBlock_fails hw hi hm (fun _ => rfl) fun hg src w₁ hs hw₁ => ?_
  refine run_decompressSized_refused _ hw₁ hs hm hg
    (by show size < _; unfold countLimit; omega) (Nat.le_refl _)
    fun w₂ body part _ hbody hpart => ?_
  refine (run_decompressRange_measured hL hbody (by omega)).imp ?_ fun h => ⟨_, h⟩
  rintro ⟨n, w', hn, hrun⟩
  refine ⟨n, w', hrun, ?_⟩
  rintro rfl
  exact hne ⟨n, block, hm, rfl, by rw [← hn, hpart]⟩

private theorem run_decompressBlock_long (hb : sizeWidth + intMax < packed.length) :
    ∃ e, ((decompressBlock L input none).run w).1 = .error e := by
  obtain ⟨size, block, hm, rfl⟩ := exists_header (by omega : sizeWidth ≤ packed.length)
  rw [List.length_append, Bytes.length_ofNat] at hb
  have hfails := run_decompressBlock_fails (P := fun _ => True) hw hi hm (fun _ => trivial)
    fun hg src w₁ hs hw₁ => by
      obtain ⟨w₂, body, part, -, hbody, -, -, hrun⟩ := run_decompressSized
        (Op.scratchRange w.memory size) hw₁ hs hm hg
        (by show size < _; unfold countLimit; omega) (Nat.le_refl _)
      rw [hrun, Op.run_bind_error]
      · exact ⟨_, _, rfl, trivial⟩
      · rw [Op.run_tryCatch, run_decompressRange_long (by rw [hbody.length_eq]; omega)]
        rfl
  exact hfails.imp fun _ h => h.1

private theorem filling_of_decompressBlock (hL : Measures L) {out : Bytes}
    (h : ((decompressBlock L input none).run w).1 = .ok out) :
    Filling packed ∧ packed.length ≤ sizeWidth + intMax := by
  have hb : packed.length ≤ sizeWidth + intMax := by
    refine Nat.le_of_not_lt fun hlong => ?_
    obtain ⟨e, hrun⟩ := run_decompressBlock_long hw hi hlong
    rw [hrun] at h
    exact absurd h (by simp)
  refine ⟨Classical.byContradiction fun hne => ?_, hb⟩
  obtain ⟨e, hrun, -⟩ := run_decompressBlock_unfilling hw hi hL hb hne
  rw [hrun] at h
  exact absurd h (by simp)

end Object

/-- Nothing that is decompressed by the size in front of it is the start of anything else that is:
cut short anywhere or continued it is a malformed input, and so is what the compressor made of any
content once a byte of it is missing, also where the rest would be a block by itself. -/
theorem decompressBlock_prefixFree {L : Libraries σ} (hL : Measures L) :
    (∀ {w w' : World σ} {input cut : Argument} {packed bytes out : Bytes}, Bindable L w →
      Bindable L w' → input.Shows w.memory packed → cut.Shows w'.memory bytes →
      ((decompressBlock L input none).run w).1 = .ok out → bytes ≠ packed →
      bytes <+: packed ∨ packed <+: bytes ∧ bytes.length ≤ sizeWidth + intMax →
      ∃ e, ((decompressBlock L cut none).run w').1 = .error e ∧ e.kind = .malformedInput) ∧
    ∀ {w : World σ} {input : Argument} {content : Bytes} {acceleration : Option Int},
      Documented L → Compresses L content → Bindable L w → input.Shows w.memory content →
      input.Within w.memory → content.length ≤ maxInputSize →
      1 ≤ acceleration.getD usualAcceleration → acceleration.getD usualAcceleration ≤ intMax →
      ∃ packed, ((compressBlock L input acceleration true).run w).1 = .ok packed ∧
        ∀ {w' : World σ} {cut : Argument} {bytes : Bytes}, Bindable L w' →
          cut.Shows w'.memory bytes → bytes <+: packed → bytes ≠ packed →
          ∃ e, ((decompressBlock L cut none).run w').1 = .error e ∧ e.kind = .malformedInput := by
  constructor
  · intro w w' input cut packed bytes out hw hw' hi hcut hrun hne hp
    obtain ⟨hfilling, hb⟩ := filling_of_decompressBlock hw hi hL hrun
    rcases hp with hp | ⟨hp, hlong⟩
    · have hshort := hp.length_le
      exact run_decompressBlock_unfilling hw' hcut hL (by omega)
        fun h => hne (h.eq_of_isPrefix hfilling hp)
    · exact run_decompressBlock_unfilling hw' hcut hL hlong
        fun h => hne (hfilling.eq_of_isPrefix h hp).symm
  · intro w input content acceleration hD hC hw hi hin hn ha hm
    obtain ⟨block, hblock, hrun⟩ := run_compressBlock hC hn ha hm rfl hD hw hi hin true
    refine ⟨_, hrun, fun {w' cut bytes} hw' hcut hp hne => ?_⟩
    have hbound := compressBound_le hn
    have hlength := hblock.length_le
    have hshort := hp.length_le
    rw [pack, if_pos rfl, List.length_append, Bytes.length_ofNat] at hshort
    exact run_decompressBlock_unfilling hw' hcut hL (by omega)
      fun h => hne (h.eq_of_isPrefix (hblock.filling hn) hp)

/-- Twenty times a byte, cut behind the literal that the first sequence begins with: a block of one
byte by itself, and with the size of twenty in front a malformed input. So is a block of one
literal with a byte behind it. -/
theorem decompressBlock_prefixFree_literal :
    decode 1 [0x1A, 97] = some [97] ∧
    (∃ e, ((decompressBlock (system (.ok {})) .first none).run
      { memory := .holding [20, 0, 0, 0, 0x1A, 97], libraries := {} }).1 = .error e ∧
        e.kind = .malformedInput) ∧
    ∃ e, ((decompressBlock (system (.ok {})) .first none).run
      { memory := .holding [1, 0, 0, 0, 0x10, 97, 97], libraries := {} }).1 = .error e ∧
        e.kind = .malformedInput := by
  have hw : ∀ bytes, Bindable (system (.ok {})) { memory := .holding bytes, libraries := {} } :=
    fun _ => .system _ (Regular.fresh _)
      (show 0x100000000 ≤ ({} : Memory).limit by decide)
  obtain ⟨hany, hcompress⟩ := decompressBlock_prefixFree (.system (.ok {}))
  refine ⟨by decide +kernel, ?_, ?_⟩
  · have hc := @Compresses.system (.ok {}) (List.replicate 20 97) (by decide)
    obtain ⟨packed, hrun, hcut⟩ := @hcompress
      { memory := .holding (List.replicate 20 97), libraries := {} } .first (List.replicate 20 97)
      none (.system _) hc (hw _) (Argument.first_shows (by decide))
      Nat.zero_lt_one (by decide) (by decide) (by decide)
    have hpacked : ((compressBlock (system (.ok {})) .first none true).run
        { memory := .holding (List.replicate 20 97), libraries := {} }).1 =
          .ok [20, 0, 0, 0, 0x1A, 97, 1, 0, 0x50, 97, 97, 97, 97, 97] := by decide +kernel
    obtain rfl := Except.ok.inj (hrun.symm.trans hpacked)
    exact hcut (hw _) (Argument.first_shows (by decide)) (by decide) (by decide)
  · have hrun : ((decompressBlock (system (.ok {})) .first none).run
        { memory := .holding [1, 0, 0, 0, 0x10, 97], libraries := {} }).1 = .ok [97] := by
      decide +kernel
    exact hany (hw _) (hw _) (Argument.first_shows (by decide)) (Argument.first_shows (by decide))
      hrun (by decide) (.inr ⟨by decide, by decide⟩)

end NativeCodec.Codec.Lz4
