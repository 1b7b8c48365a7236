import NativeCodec.Proofs.Lz4.Decompression
import NativeCodec.Proofs.Transfer.Ranges

/-!
LZ4 blocks with a stored size.

Decompressing a block with a size in front gives what the library makes of the block when that is
exactly as long as the size says, and the complaint of a malformed input in every other case
(`decompressBlock_stored`). The size is refused early when no block of that length stands for so
much, and then the library would not have come to it.
-/

set_option autoImplicit false
set_option relaxedAutoImplicit false

namespace NativeCodec.Codec.Lz4

open Native NativeCodec.Lz4

private theorem kind_refute_decodingError (size capacity : Nat) (block : Bytes) (status : Int) :
    (refute size (decodingError capacity block status)).kind = .malformedInput := by
  unfold decodingError
  split
  · rfl
  · split <;> rfl

private theorem le_guard_of_spans {block : Bytes} {size : Nat} (h : Spans block size) :
    size ≤ maxExpansion * block.length + maxExpansion := by
  have := h.le_expansion
  unfold byteWorth at this
  unfold maxExpansion
  omega

section Run

variable {σ : Type} {L : Libraries σ} {w : World σ} {src : Range} (dst : Range) {size : Nat}
  {block : Bytes}

private theorem storedIn_of_holds {m : Memory}
    (hs : src.Holds m (Bytes.ofNat sizeWidth size ++ block))
    (hm : size < 0x100000000) : storedIn m src = size := by
  have hread := Memory.read?_advance hs.read_eq (show 0 + sizeWidth ≤ src.length by
    rw [hs.length_eq, List.length_append, Bytes.length_ofNat]
    omega)
  rw [List.drop_zero, List.take_left' (Bytes.length_ofNat _ _)] at hread
  change m.read? src.start sizeWidth = _ at hread
  unfold storedIn
  rw [hread, Option.getD_some, Bytes.toNat_ofNat]
  exact Nat.mod_eq_of_lt hm

private theorem run_storedSize (hs : src.Holds w.memory (Bytes.ofNat sizeWidth size ++ block))
    (hm : size < 0x100000000) :
    (storedSize src).run w =
      (if maxExpansion * block.length + maxExpansion < size then
          .error (.sizeUnlikely size (block.length + sizeWidth))
        else .ok size, w) := by
  have hn : src.length = block.length + sizeWidth := by
    rw [hs.length_eq, List.length_append, Bytes.length_ofNat, Nat.add_comm]
  rw [run_storedSize_wide hs.length_lt (by omega), storedIn_of_holds hs hm, hn,
    Nat.add_sub_cancel]

variable (hw : Bindable L w) (hs : src.Holds w.memory (Bytes.ofNat sizeWidth size ++ block))
  (hm : size < 0x100000000)

include hw hs hm

/-- What is left to do once the stored size is read and there is room for it: to decompress what
follows the size into a part of the destination, and to compare. -/
theorem run_decompressSized (hg : size ≤ maxExpansion * block.length + maxExpansion)
    (hd : dst.length < countLimit) (hr : size ≤ dst.length) :
    ∃ w₁ body part, w₁.memory = w.memory ∧ body.Holds w.memory block ∧ part.length = size ∧
      part.start = dst.start ∧ (decompressSized L src dst).run w =
        (do
          let n ← tryCatch (decompressRange L body part) fun e =>
            throw (refute size e)
          if n ≠ size then throw (.sizeWrong size n)
          return n : Op σ Int).run w₁ := by
  have hn : (Bytes.ofNat sizeWidth size ++ block).length = sizeWidth + block.length := by
    rw [List.length_append, Bytes.length_ofNat]
  obtain ⟨words, w₁, hc, -, hmem⟩ := run_create hw (show 1 ≤ usualAcceleration by decide)
  obtain ⟨body, hbody, hblock⟩ := hs.part sizeWidth block.length
    (show none.getD _ = _ by rw [hs.length_eq, hn, Option.getD_none]; omega) (by omega)
  have hpart : dst.slice? 0 (some size) = .ok { dst with length := size } :=
    Range.slice?_eq_ok_iff.mpr ⟨0, size, rfl, rfl, by omega, rfl⟩
  have hrest : ((Bytes.ofNat sizeWidth size ++ block).drop sizeWidth).take block.length =
      block := by
    rw [List.drop_left' (Bytes.length_ofNat _ _), List.take_length]
  rw [hrest] at hblock
  refine ⟨w₁, body, { dst with length := size }, hmem, hblock, rfl, rfl, ?_⟩
  have hsize := run_storedSize hs hm
  rw [if_neg (by omega)] at hsize
  have hcount : dst.count? = .ok dst.length := by rw [Range.count?, if_pos hd]
  unfold decompressSized
  rw [Op.run_bind_ok hsize, Op.run_ofExcept_bind hcount, if_neg (by omega), Op.run_bind_ok hc,
    Op.run_ofExcept_bind hbody, Op.run_ofExcept_bind hpart]

/-- A block behind a stored size is a malformed input if it comes to another number of bytes, or is
complained of for what its headers say. -/
theorem run_decompressSized_refused (hg : size ≤ maxExpansion * block.length + maxExpansion)
    (hd : dst.length < countLimit) (hr : size ≤ dst.length)
    (h : ∀ (w₁ : World σ) (body part : Range), w₁.memory = w.memory → body.Holds w₁.memory block →
      part.length = size →
      (∃ (n : Nat) (w' : World σ), (decompressRange L body part).run w₁ = (.ok (n : Int), w') ∧
        n ≠ size) ∨
      ∃ capacity found status w', (decompressRange L body part).run w₁ =
        (.error (decodingError capacity found status), w')) :
    ∃ e w', (decompressSized L src dst).run w = (.error e, w') ∧ e.kind = .malformedInput := by
  obtain ⟨w₁, body, part, hmem, hbody, hlength, -, hrun⟩ :=
    run_decompressSized dst hw hs hm hg hd hr
  rw [← hmem] at hbody
  rcases h w₁ body part hmem hbody hlength with
    ⟨n, w', hdone, hne⟩ | ⟨capacity, found, status, w', hfail⟩
  · have htry : (tryCatch (decompressRange L body part) fun e =>
        throw (refute size e)).run w₁ = (.ok (n : Int), w') := by
      rw [Op.run_tryCatch, hdone]
    rw [hrun, Op.run_bind_ok htry, if_pos (by omega)]
    exact ⟨_, w', rfl, rfl⟩
  · have htry : (tryCatch (decompressRange L body part) fun e =>
        throw (refute size e)).run w₁ =
          (.error (refute size (decodingError capacity found status)), w') := by
      rw [Op.run_tryCatch, hfail]
      rfl
    rw [hrun, Op.run_bind_error htry]
    exact ⟨_, w', rfl, kind_refute_decodingError _ _ _ _⟩

private theorem run_decompressSized_taken {written : Bytes}
    (hg : size ≤ maxExpansion * block.length + maxExpansion) (hd : dst.length < countLimit)
    (hr : size ≤ dst.length)
    (h : ∀ (w₁ : World σ) (body part : Range), body.Holds w₁.memory block → part.length = size →
      ∃ w', (decompressRange L body part).run w₁ = (.ok (size : Int), w') ∧
        w'.memory = w₁.memory.write part.start written) :
    ∃ w', (decompressSized L src dst).run w = (.ok (size : Int), w') ∧
      w'.memory = w.memory.write dst.start written := by
  obtain ⟨w₁, body, part, hmem, hbody, hlength, hstart, hrun⟩ :=
    run_decompressSized dst hw hs hm hg hd hr
  rw [← hmem] at hbody
  obtain ⟨w', hdone, hwritten⟩ := h w₁ body part hbody hlength
  refine ⟨w', ?_, by rw [hwritten, hmem, hstart]⟩
  have htry : (tryCatch (decompressRange L body part) fun e =>
      throw (refute size e)).run w₁ = (.ok (size : Int), w') := by
    rw [Op.run_tryCatch, hdone]
  rw [hrun, Op.run_bind_ok htry, if_neg (by simp)]
  rfl

variable (hL : Decodes L block) (hb : block.length ≤ intMax)

include hL hb

private theorem run_decompressSized_ok {out : Bytes} (hd : dst.length < countLimit)
    (hr : size ≤ dst.length) (ho : decode (min size intMax) block = some out)
    (hsize : out.length = size) :
    ∃ w', (decompressSized L src dst).run w = (.ok (size : Int), w') ∧
      w'.memory = w.memory.write dst.start out := by
  have hg := le_guard_of_spans (decode_spans ho).2
  rw [hsize] at hg
  refine run_decompressSized_taken dst hw hs hm hg hd hr fun w₁ body part hbody hlength => ?_
  rw [← hlength] at ho
  obtain ⟨w', hdone, hwritten⟩ := run_decompressRange_ok part hL hbody hb ho
  rw [hsize] at hdone
  exact ⟨w', hdone, hwritten⟩

end Run

section Object

variable {σ : Type} {L : Libraries σ} {w : World σ} {input : Argument} {size : Nat} {block : Bytes}
  (hw : Bindable L w) (hi : input.Shows w.memory (Bytes.ofNat sizeWidth size ++ block))
  (hm : size < 0x100000000)

include hw hi hm

/-- Decompression behind a stored size fails as it does once the size is read and there is a
destination of that size, if no block of that length has it. -/
theorem run_decompressBlock_fails {P : Error → Prop}
    (hunlikely : ∀ length, P (.sizeUnlikely size length))
    (h : size ≤ maxExpansion * block.length + maxExpansion → ∀ (src : Range) (w₁ : World σ),
      src.Holds w₁.memory (Bytes.ofNat sizeWidth size ++ block) → Bindable L w₁ →
      ∃ e w', (decompressSized L src (Op.scratchRange w.memory size)).run w₁ = (.error e, w') ∧
        P e) :
    ∃ e, ((decompressBlock L input none).run w).1 = .error e ∧ P e := by
  obtain ⟨src, hinput, hs⟩ := Op.run_input_of_shows hi
  have hstored := run_storedSize hs hm
  unfold decompressBlock
  rw [Op.run_bind_ok hinput]
  dsimp only
  by_cases hg : maxExpansion * block.length + maxExpansion < size
  · rw [if_pos hg] at hstored
    rw [Op.run_bind_error hstored]
    exact ⟨_, rfl, hunlikely _⟩
  · rw [if_neg hg] at hstored
    have hscratch : (Op.scratch (size : Int)).run w = (.ok (Op.scratchRange w.memory size), _) :=
      Op.run_scratch (hw.lt_room hm)
    obtain ⟨e, w', hrun, he⟩ := h (by omega) src
      { w with memory := (w.memory.add (.fresh size)).2 } (hs.add _) (hw.of_bindings rfl rfl)
    rw [Op.run_bind_ok hstored, Op.run_bind_ok hscratch]
    unfold decompressBlockRange
    rw [if_pos rfl, Op.run_bind_error hrun]
    exact ⟨e, rfl, he⟩

private theorem run_decompressBlock_taken {written : Bytes} (hwritten : written.length = size)
    (hg : size ≤ maxExpansion * block.length + maxExpansion)
    (h : ∀ (src : Range) (w₁ : World σ), src.Holds w₁.memory (Bytes.ofNat sizeWidth size ++ block) →
      Bindable L w₁ → ∃ w', (decompressSized L src (Op.scratchRange w.memory size)).run w₁ =
        (.ok (size : Int), w') ∧
        w'.memory = w₁.memory.write (Op.scratchRange w.memory size).start written) :
    ((decompressBlock L input none).run w).1 = .ok written := by
  obtain ⟨src, hinput, hs⟩ := Op.run_input_of_shows hi
  have hscratch : (Op.scratch (size : Int)).run w = (.ok (Op.scratchRange w.memory size), _) :=
    Op.run_scratch (hw.lt_room hm)
  have hstored := run_storedSize hs hm
  rw [if_neg (by omega)] at hstored
  obtain ⟨w', hrun, hmem⟩ := h src { w with memory := (w.memory.add (.fresh size)).2 } (hs.add _)
    (hw.of_bindings rfl rfl)
  have hread :=
    Op.run_firstBytes_scratch (by unfold countLimit; omega) (Nat.le_of_eq hwritten) hmem
  rw [hwritten] at hread
  unfold decompressBlock
  rw [Op.run_bind_ok hinput]
  dsimp only
  rw [Op.run_bind_ok hstored, Op.run_bind_ok hscratch]
  unfold decompressBlockRange
  rw [if_pos rfl, Op.run_bind_ok hrun, Int.toNat_natCast, hread]

variable (hL : Decodes L block) (hb : block.length ≤ intMax)

include hL hb

theorem run_decompressBlock_ok {out : Bytes} (hd : decode (min size intMax) block = some out)
    (hsize : out.length = size) : ((decompressBlock L input none).run w).1 = .ok out := by
  have hg := le_guard_of_spans (decode_spans hd).2
  refine run_decompressBlock_taken hw hi hm hsize (by omega) fun src w₁ hs hw₁ => ?_
  exact run_decompressSized_ok (Op.scratchRange w.memory size) hw₁ hs hm hL hb
    (by show size < _; unfold countLimit; omega) (Nat.le_refl _) hd hsize

theorem run_decompressBlockInto_ok {output : Argument} {old out : Bytes}
    (ho : output.Takes w.memory old) (hr : size ≤ old.length)
    (hd : decode (min size intMax) block = some out) (hsize : out.length = size) :
    ((decompressBlockInto L input output true).run w).1 = .ok (size : Int) ∧
      output.Takes ((decompressBlockInto L input output true).run w).2.memory
        (out ++ old.drop out.length) := by
  obtain ⟨src, hinput, hs⟩ := Op.run_input_of_shows hi
  obtain ⟨dst, hdst, hholds⟩ := ho
  have houtput : (Op.output output).run w = (.ok dst, w) := by rw [Op.run_output, hdst]
  obtain ⟨w', hrun, hmem⟩ := run_decompressSized_ok dst hw hs hm hL hb hholds.length_lt
    (by rw [hholds.length_eq]; exact hr) hd hsize
  unfold decompressBlockInto decompressBlockRange
  rw [Op.run_bind_ok hinput, Op.run_bind_ok houtput, if_pos rfl, hrun]
  rw [hmem]
  exact ⟨rfl, Argument.takes_write hdst hholds (by omega)⟩

end Object

section Stored

variable {σ : Type} {L : Libraries σ} {block : Bytes} {reply : Nat → Written Int}

/-- What the library replies for a block at each capacity: what it comes to was written and fits the
capacity, and the sequences of the block stand for it. -/
structure Replies (L : Libraries σ) (block : Bytes) (reply : Nat → Written Int) : Prop where
  answer : ∀ {source : Source} {capacity : Nat} (s : σ), source.content = block →
    (Call.lz4Decompress source capacity).fits = true →
    ∃ s', L.answer (.lz4Decompress source capacity) s = (.ok (reply capacity), s')
  le_capacity : ∀ capacity (n : Nat), (reply capacity).result = n → n ≤ capacity
  written : ∀ capacity (n : Nat), (reply capacity).result = n → n ≤ (reply capacity).bytes.length
  spans : ∀ capacity (n : Nat), (reply capacity).result = n → Spans block n

theorem Replies.system (snappy : Except Error Constants) (block : Bytes) :
    Replies (system snappy) block (runLz4Decompress block) := by
  have hdecoded : ∀ {capacity n : Nat}, (runLz4Decompress block capacity).result = n →
      ∃ out, decode capacity block = some out ∧ out.length = n ∧
        (runLz4Decompress block capacity).bytes = out := by
    intro capacity n h
    unfold runLz4Decompress at h ⊢
    cases hd : decode capacity block with
    | none =>
      rw [hd] at h
      dsimp only at h
      omega
    | some out =>
      rw [hd] at h
      exact ⟨out, rfl, Int.ofNat.inj h, rfl⟩
  constructor
  case answer =>
    intro source capacity s hs hf
    refine ⟨s, ?_⟩
    simp only [Native.system, hf, if_true, systemReply, hs]
  case le_capacity =>
    intro capacity n h
    obtain ⟨out, hd, rfl, -⟩ := hdecoded h
    exact length_decode_le_capacity hd
  case written =>
    intro capacity n h
    obtain ⟨out, -, rfl, hbytes⟩ := hdecoded h
    exact Nat.le_of_eq (congrArg List.length hbytes.symm)
  case spans =>
    intro capacity n h
    obtain ⟨out, hd, rfl, -⟩ := hdecoded h
    exact (decode_spans hd).2

variable (hL : Replies L block reply) {w : World σ} {input : Argument} {size : Nat}
  (hw : Bindable L w) (hi : input.Shows w.memory (Bytes.ofNat sizeWidth size ++ block))
  (hm : size < 0x100000000) (hb : block.length ≤ intMax)

include hL hw hi hm hb

private theorem run_decompressBlock_stored (h : (reply (min size intMax)).result = size) :
    ((decompressBlock L input none).run w).1 =
      .ok ((reply (min size intMax)).bytes.take size) := by
  have hcapacity : min size intMax = size := by
    have := hL.le_capacity _ _ h
    omega
  have hlength : ((reply (min size intMax)).bytes.take size).length = size := by
    have := hL.written _ _ h
    rw [List.length_take]
    omega
  have hg := le_guard_of_spans (hL.spans _ _ h)
  refine run_decompressBlock_taken hw hi hm hlength hg fun src w₁ hs hw₁ => ?_
  refine run_decompressSized_taken (Op.scratchRange w.memory size) hw₁ hs hm hg
    (by show size < _; unfold countLimit; omega) (Nat.le_refl _) fun w₂ body part hbody hpart => ?_
  obtain ⟨s, hanswer⟩ := hL.answer w₂.libraries hbody.content (fits_decompress part hbody hb)
  rw [hpart] at hanswer
  obtain ⟨w', hrun, hmem⟩ := run_decompressRange_taken part hbody hb (by rw [hpart]; exact hanswer)
    (by rw [h]; exact Int.natCast_nonneg _)
  rw [h] at hrun
  rw [hpart, hcapacity] at hmem
  rw [hcapacity]
  exact ⟨w', hrun, hmem⟩

private theorem run_decompressBlock_other (h : (reply (min size intMax)).result ≠ size) :
    ∃ e, ((decompressBlock L input none).run w).1 = .error e ∧ e.kind = .malformedInput := by
  refine run_decompressBlock_fails hw hi hm (fun _ => rfl) fun hg src w₁ hs hw₁ => ?_
  refine run_decompressSized_refused (Op.scratchRange w.memory size) hw₁ hs hm hg
    (by show size < _; unfold countLimit; omega) (Nat.le_refl _)
    fun w₂ body part _ hbody hpart => ?_
  obtain ⟨s, hanswer⟩ := hL.answer w₂.libraries hbody.content (fits_decompress part hbody hb)
  rcases Int.lt_or_le (reply (min part.length intMax)).result 0 with hneg | hpos
  · obtain ⟨found, w', -, hrun⟩ := run_decompressRange_refused part hbody hb hanswer hneg
    exact .inr ⟨_, found, _, w', hrun⟩
  · obtain ⟨w', hrun, -⟩ := run_decompressRange_taken part hbody hb hanswer hpos
    rw [hpart] at hrun hpos
    refine .inl ⟨(reply (min size intMax)).result.toNat, w', ?_, fun hsame => h ?_⟩
    · rw [hrun, Int.toNat_of_nonneg hpos]
    · exact (Int.toNat_of_nonneg hpos).symm.trans (congrArg _ hsame)

end Stored

/-- A block behind a stored size decompresses to what the library makes of it where that has exactly
the stored size, and is a malformed input in every other case; in particular the complaint is never
about room, and no block that comes to the stored size is refused for it. -/
theorem decompressBlock_stored {σ : Type} {L : Libraries σ} {block : Bytes}
    {reply : Nat → Written Int} (hL : Replies L block reply) {w : World σ} {input : Argument}
    {size : Nat} (hw : Bindable L w)
    (hi : input.Shows w.memory (Bytes.ofNat sizeWidth size ++ block)) (hm : size < 0x100000000)
    (hb : block.length ≤ intMax) :
    let made := reply (min size intMax)
    (made.result = size →
      ((decompressBlock L input none).run w).1 = .ok (made.bytes.take size)) ∧
    (made.result ≠ size →
      ∃ e, ((decompressBlock L input none).run w).1 = .error e ∧ e.kind = .malformedInput) ∧
    (∀ bytes, ((decompressBlock L input none).run w).1 = .ok bytes → bytes.length = size) ∧
    (∀ e, ((decompressBlock L input none).run w).1 = .error e → e.kind ≠ .bufferTooSmall) ∧
    (∀ capacity (n : Nat), (reply capacity).result = n →
      n ≤ maxExpansion * block.length + maxExpansion) := by
  intro made
  have hguard : ∀ capacity (n : Nat), (reply capacity).result = n →
      n ≤ maxExpansion * block.length + maxExpansion :=
    fun capacity n h => le_guard_of_spans (hL.spans capacity n h)
  by_cases hexact : made.result = size
  · have hrun := run_decompressBlock_stored hL hw hi hm hb hexact
    refine ⟨fun _ => hrun, fun hne => absurd hexact hne, ?_, ?_, hguard⟩
    · intro bytes hbytes
      rw [hrun] at hbytes
      have hwritten := hL.written _ _ hexact
      rw [← Except.ok.inj hbytes, List.length_take]
      omega
    · intro e he
      rw [hrun] at he
      exact absurd he (by simp)
  · obtain ⟨e', he', hkind⟩ := run_decompressBlock_other hL hw hi hm hb hexact
    refine ⟨fun h => absurd h hexact, fun _ => ⟨e', he', hkind⟩, ?_, ?_, hguard⟩
    · intro bytes hbytes
      rw [he'] at hbytes
      exact absurd hbytes (by simp)
    · intro e he
      rw [he', Except.error.injEq] at he
      rw [← he, hkind]
      decide

/-- One literal, a match that repeats it, and the last literals, behind their size. -/
theorem decompressBlock_stored_match :
    ((decompressBlock (system (.ok {})) .first none).run
      { memory := .holding (Bytes.ofNat sizeWidth 20 ++
          [0x1A, 97, 1, 0, 0x50, 1, 2, 3, 4, 5]), libraries := {} }).1 =
      .ok (List.replicate 15 97 ++ [1, 2, 3, 4, 5]) := by
  have hw : Bindable (system (.ok {})) { memory := .holding (Bytes.ofNat sizeWidth 20 ++
      [0x1A, 97, 1, 0, 0x50, 1, 2, 3, 4, 5]), libraries := {} } :=
    .system _ (Regular.fresh _) (by decide)
  have hshows : Argument.first.Shows (Memory.holding (Bytes.ofNat sizeWidth 20 ++
      [0x1A, 97, 1, 0, 0x50, 1, 2, 3, 4, 5])) (Bytes.ofNat sizeWidth 20 ++
        [0x1A, 97, 1, 0, 0x50, 1, 2, 3, 4, 5]) := Argument.first_shows (by decide)
  have hstored := (decompressBlock_stored (.system (.ok {}) [0x1A, 97, 1, 0, 0x50, 1, 2, 3, 4, 5])
    hw hshows (by decide) (by decide)).1 (by decide +kernel)
  rw [hstored]
  decide +kernel

end NativeCodec.Codec.Lz4
