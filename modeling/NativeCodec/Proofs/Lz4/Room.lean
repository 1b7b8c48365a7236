import NativeCodec.Proofs.Lz4.Decompression
import NativeCodec.Proofs.Lz4.Ending
import NativeCodec.Proofs.Memory.Chain

/-!
Decompressing a block into destinations of every size.

Where a block is decompressed the size of the destination decides nothing but whether it is large
enough, and the complaint about a smaller one says how large that is (`decompress_stable`). Where a
block is refused, the complaint is about room exactly when its headers describe more than there is
room for; whether a larger destination helps is another question, since the decoder keeps margins
that the headers know nothing of (`decompress_refused`).
-/

set_option autoImplicit false
set_option relaxedAutoImplicit false

namespace NativeCodec.Codec.Lz4

open Native NativeCodec.Lz4

variable {σ : Type}

private theorem decodingError_of_length {capacity size : Nat} {block : Bytes} {status : Int}
    (h : blockLength? block = some size) :
    decodingError capacity block status =
      if capacity < size then .blockRoom capacity size else .malformedBlock status := by
  rw [decodingError, h]

private theorem decodingError_of_none {capacity : Nat} {block : Bytes} {status : Int}
    (h : blockLength? block = none) : decodingError capacity block status =
      .malformedBlock status := by
  rw [decodingError, h]

section Run

variable {L : Libraries σ} {w : World σ} {input output : Argument} {block : Bytes} {dst : Range}
  (hL : Decodes L block) (hi : input.Shows w.memory block)
  (ho : output.destination? w.memory = .ok dst)

include hL hi ho

private theorem run_decompress_ok {out : Bytes} (hb : block.length ≤ intMax)
    (hd : decode (min dst.length intMax) block = some out) :
    ((decompress L input output).run w).1 = .ok (out.length : Int) ∧
      ((decompress L input output).run w).2.memory = w.memory.write dst.start out := by
  obtain ⟨src, hinput, hs⟩ := Op.run_input_of_shows hi
  have houtput : (Op.output output).run w = (.ok dst, w) := by rw [Op.run_output, ho]
  obtain ⟨w', hrun, hmem⟩ := run_decompressRange_ok dst hL hs hb hd
  unfold decompress
  rw [Op.run_bind_ok hinput, Op.run_bind_ok houtput, hrun]
  exact ⟨rfl, hmem⟩

private theorem run_decompress_error (hb : block.length ≤ intMax)
    (hd : decode (min dst.length intMax) block = none) :
    ∃ status found, status < 0 ∧ (input.Apart output w.memory → found = block) ∧
      ((decompress L input output).run w).1 =
        .error (decodingError (min dst.length intMax) found status) := by
  obtain ⟨src, hsource, hs⟩ := hi
  have hinput : (Op.input input).run w = (.ok src, w) := by rw [Op.run_input, hsource]
  have houtput : (Op.output output).run w = (.ok dst, w) := by rw [Op.run_output, ho]
  obtain ⟨status, found, w', hneg, hfound, hrun⟩ := run_decompressRange_error dst hL hs hb hd
  unfold decompress
  rw [Op.run_bind_ok hinput, Op.run_bind_ok houtput, hrun]
  refine ⟨status, found, hneg, fun hapart => hfound ?_, rfl⟩
  exact hapart src dst hsource (Argument.source?_of_destination ho).1

private theorem decompress_eq_ok {n : Int} (h : ((decompress L input output).run w).1 = .ok n) :
    block.length ≤ intMax ∧
      ∃ out, decode (min dst.length intMax) block = some out ∧ n = out.length := by
  by_cases hb : block.length ≤ intMax
  · refine ⟨hb, ?_⟩
    cases hd : decode (min dst.length intMax) block with
    | none =>
      obtain ⟨status, found, -, -, hrun⟩ := run_decompress_error hL hi ho hb hd
      rw [hrun] at h
      exact absurd h (by simp)
    | some out =>
      obtain ⟨hrun, -⟩ := run_decompress_ok hL hi ho hb hd
      rw [hrun, Except.ok.injEq] at h
      exact ⟨out, rfl, h.symm⟩
  · obtain ⟨src, hinput, hs⟩ := Op.run_input_of_shows hi
    have houtput : (Op.output output).run w = (.ok dst, w) := by rw [Op.run_output, ho]
    unfold decompress decompressRange at h
    rw [Op.run_bind_ok hinput, Op.run_bind_ok houtput,
      if_pos (by rw [hs.length_eq]; omega), Op.run_bind_error (Op.run_throw _ _)] at h
    exact absurd h (by simp)

private theorem decompress_eq_error {e : Error} (hb : block.length ≤ intMax)
    (ha : input.Apart output w.memory) (h : ((decompress L input output).run w).1 = .error e) :
    decode (min dst.length intMax) block = none ∧
      ∃ status, decodingError (min dst.length intMax) block status = e := by
  cases hd : decode (min dst.length intMax) block with
  | none =>
    obtain ⟨status, found, -, hfound, hrun⟩ := run_decompress_error hL hi ho hb hd
    obtain rfl := hfound ha
    exact ⟨rfl, status, Except.error.inj (hrun.symm.trans h)⟩
  | some out =>
    obtain ⟨hrun, -⟩ := run_decompress_ok hL hi ho hb hd
    rw [hrun] at h
    exact absurd h (by simp)

end Run

/-- A block that is decompressed once has the length that its headers describe. It is decompressed
to the same bytes into every destination that is not smaller, and for a destination that is smaller
than these bytes, and does not lie over the block, the complaint is about room and names both
sizes. -/
theorem decompress_stable {L : Libraries σ} (hL : Documented L) {w : World σ}
    {input output : Argument} {block : Bytes} {dst : Range} {n : Int} (hz : zeroFree block = true)
    (hi : input.Shows w.memory block) (ho : output.destination? w.memory = .ok dst)
    (hn : ((decompress L input output).run w).1 = .ok n) :
    ∃ out : Bytes, n = out.length ∧ blockLength? block = some out.length ∧
      ((decompress L input output).run w).2.memory = w.memory.write dst.start out ∧
      ∀ (v : World σ) (source target : Argument) (part : Range), source.Shows v.memory block →
        target.destination? v.memory = .ok part →
        (min dst.length intMax ≤ part.length →
          ((decompress L source target).run v).1 = .ok n ∧
            ((decompress L source target).run v).2.memory = v.memory.write part.start out) ∧
        (source.Apart target v.memory → part.length < out.length → ∃ e,
          ((decompress L source target).run v).1 = .error e ∧ e.kind = .bufferTooSmall ∧ e.text =
            s!"Output buffer too small: {part.length} bytes, block decompresses to {n}") := by
  have hblock := hL.decodes block hz
  obtain ⟨hb, out, hd, rfl⟩ := decompress_eq_ok hblock hi ho hn
  obtain ⟨-, hwritten⟩ := run_decompress_ok hblock hi ho hb hd
  have hlength := blockLength?_of_decode hd
  have hfit := length_decode_le_capacity hd
  refine ⟨out, rfl, hlength, hwritten, ?_⟩
  intro v source target part hshows hpart
  constructor
  · intro hroom
    exact run_decompress_ok hblock hshows hpart hb (decode_room hd (by omega))
  · intro hapart hsmall
    have hcapacity : min part.length intMax = part.length := by omega
    have hnone : decode (min part.length intMax) block = none := by
      rw [hcapacity]
      exact decode_eq_none_of_lt hd hsmall
    obtain ⟨status, found, -, hfound, hrun⟩ := run_decompress_error hblock hshows hpart hb hnone
    obtain rfl := hfound hapart
    rw [hcapacity, decodingError_of_length hlength, if_pos hsmall] at hrun
    exact ⟨_, hrun, rfl, rfl⟩

/-- Fifteen times a byte and five other bytes, into twenty bytes and into ten. -/
theorem decompress_stable_match :
    ∃ e, ((decompress (system (.ok {})) .first .second).run
      { memory := .holding [0x1A, 97, 1, 0, 0x50, 1, 2, 3, 4, 5] [.fresh 10],
        libraries := {} }).1 = .error e ∧
      e.text = "Output buffer too small: 10 bytes, block decompresses to 20" := by
  have hlarge := @Argument.first_shows [0x1A, 97, 1, 0, 0x50, 1, 2, 3, 4, 5] [.fresh 20]
    (by decide)
  have hsmall := @Argument.first_shows [0x1A, 97, 1, 0, 0x50, 1, 2, 3, 4, 5] [.fresh 10]
    (by decide)
  obtain ⟨out, hn, -, -, hmore⟩ := @decompress_stable _ (system (.ok {})) (.system _)
    { memory := _, libraries := {} } _ .second _ ⟨⟨.managed 1, 0⟩, 20, "bytearray", false⟩ 20
    (by decide +kernel) hlarge rfl (Op.eq_ok_of_toOption (by decide +kernel))
  obtain ⟨e, hrun, -, htext⟩ := (hmore { memory := _, libraries := {} } _ .second
    ⟨⟨.managed 1, 0⟩, 10, "bytearray", false⟩ hsmall rfl).2
    (Argument.apart_of_ne rfl rfl rfl rfl (by decide) _) (show 10 < out.length by omega)
  exact ⟨e, hrun, htext⟩

/-- A complaint about room is right where some destination takes the block, and a complaint about
the block where none does. -/
def RightlyRefused (block : Bytes) (e : Error) : Prop :=
  (e.kind = .bufferTooSmall ∧ ∃ room, room ≤ intMax ∧ (decode room block).isSome) ∨
    (e.kind = .malformedInput ∧ ∀ room, room ≤ intMax → decode room block = none)

section Refused

variable {length : Nat} {block : Bytes} {status : Int}

private theorem rightlyRefused_of_decode {room : Nat} {out : Bytes} (hroom : room ≤ intMax)
    (hd : decode room block = some out) (hnone : decode (min length intMax) block = none) :
    RightlyRefused block (decodingError (min length intMax) block status) ∨
      ((decodingError (min length intMax) block status).kind = .malformedInput ∧
        out.length ≤ length ∧ length < out.length + slack) := by
  rw [decodingError_of_length (blockLength?_of_decode hd)]
  by_cases hsmall : min length intMax < out.length
  · rw [if_pos hsmall]
    exact Or.inl (Or.inl ⟨rfl, room, hroom, by rw [hd]; rfl⟩)
  · rw [if_neg hsmall]
    refine Or.inr ⟨rfl, by omega, Nat.lt_of_not_le fun hlarge => ?_⟩
    -- with more room the block would have been decoded
    have hd' : decode (min length intMax) block = some out := by
      by_cases hcapacity : length ≤ intMax
      · exact decode_slack hd (by omega)
      · exact decode_room hd (by omega)
    rw [hnone] at hd'
    exact absurd hd' (by simp)

/-- The complaint about a block that no destination takes is right, unless its headers describe
more than there is room for. -/
private theorem rightlyRefused_of_never
    (hnever : ∀ room, room ≤ intMax → decode room block = none) :
    RightlyRefused block (decodingError (min length intMax) block status) ∨
      ((decodingError (min length intMax) block status).kind = .bufferTooSmall ∧
        ∃ size, blockLength? block = some size ∧ min length intMax < size) := by
  cases hlength : blockLength? block with
  | none =>
    rw [decodingError_of_none hlength]
    exact Or.inl (Or.inr ⟨rfl, hnever⟩)
  | some size =>
    rw [decodingError_of_length hlength]
    by_cases hsmall : min length intMax < size
    · rw [if_pos hsmall]
      exact Or.inr ⟨rfl, size, rfl, hsmall⟩
    · rw [if_neg hsmall]
      exact Or.inl (Or.inr ⟨rfl, hnever⟩)

private theorem rightlyRefused_of_encode {b : Block} (hg : Grounded 0 b.sequences)
    (he : EndsApart b.sequences b.tail) (hpos : 0 < b.size) (hsize : b.size ≤ intMax)
    (hnone : decode (min length intMax) b.encode = none) :
    RightlyRefused b.encode (decodingError (min length intMax) b.encode status) := by
  have hsmall : min length intMax < b.size := by
    refine Nat.lt_of_not_le fun hlarge => ?_
    rw [decode_encode hg he hlarge (by omega)] at hnone
    exact absurd hnone (by simp)
  have hd := decode_encode hg he (Nat.le_refl b.size) (by omega)
  rw [decodingError_of_length (blockLength?_encode hg), if_pos hsmall]
  exact Or.inl ⟨rfl, b.size, hsize, by rw [hd]; rfl⟩

end Refused

/-- The complaint about a block that is refused, and that the destination does not lie over, is
right but in two cases: when no destination takes the block although its headers are consistent,
and when the destination is hardly larger than what the block decodes to. Neither occurs where the
block keeps the rules for its end. -/
theorem decompress_refused {L : Libraries σ} (hL : Documented L) {w : World σ}
    {input output : Argument} {block : Bytes} {dst : Range} {e : Error}
    (hz : zeroFree block = true) (hb : block.length ≤ intMax) (hi : input.Shows w.memory block)
    (ho : output.destination? w.memory = .ok dst) (ha : input.Apart output w.memory)
    (he : ((decompress L input output).run w).1 = .error e) :
    (RightlyRefused block e ∨
      (e.kind = .bufferTooSmall ∧ (∀ room, room ≤ intMax → decode room block = none) ∧
        ∃ size, blockLength? block = some size ∧ min dst.length intMax < size) ∨
      (e.kind = .malformedInput ∧ ∃ room out, room ≤ intMax ∧ decode room block = some out ∧
        out.length ≤ dst.length ∧ dst.length < out.length + slack)) ∧
    ∀ b : Block, b.encode = block → Grounded 0 b.sequences → EndsApart b.sequences b.tail →
      0 < b.size → b.size ≤ intMax → RightlyRefused block e := by
  have hblock := hL.decodes block hz
  obtain ⟨hnone, status, rfl⟩ := decompress_eq_error hblock hi ho hb ha he
  refine ⟨?_, ?_⟩
  · by_cases hsome : ∃ room out, room ≤ intMax ∧ decode room block = some out
    · obtain ⟨room, out, hroom, hd⟩ := hsome
      rcases rightlyRefused_of_decode hroom hd hnone with h | ⟨hkind, hfit, hslack⟩
      · exact Or.inl h
      · exact Or.inr (Or.inr ⟨hkind, room, out, hroom, hd, hfit, hslack⟩)
    · have hnever : ∀ room, room ≤ intMax → decode room block = none := by
        intro room hroom
        cases hd : decode room block with
        | none => rfl
        | some out => exact absurd ⟨room, out, hroom, hd⟩ hsome
      rcases rightlyRefused_of_never hnever with h | ⟨hkind, hsize⟩
      · exact Or.inl h
      · exact Or.inr (Or.inl ⟨hkind, hnever, hsize⟩)
  · rintro b rfl hg hends hpos hsize
    exact rightlyRefused_of_encode hg hends hpos hsize hnone

/-- Fifteen times a byte and five other bytes, into ten bytes. -/
theorem decompress_refused_match :
    ∃ e, ((decompress (system (.ok {})) .first .second).run
      { memory := .holding [0x1A, 97, 1, 0, 0x50, 1, 2, 3, 4, 5] [.fresh 10],
        libraries := {} }).1 = .error e ∧
      RightlyRefused [0x1A, 97, 1, 0, 0x50, 1, 2, 3, 4, 5] e := by
  have hshows := @Argument.first_shows [0x1A, 97, 1, 0, 0x50, 1, 2, 3, 4, 5] [.fresh 10]
    (by decide)
  have hrun : ((decompress (system (.ok {})) .first .second).run
      { memory := .holding [0x1A, 97, 1, 0, 0x50, 1, 2, 3, 4, 5] [.fresh 10],
        libraries := {} }).1 = .error (.blockRoom 10 20) := by
    decide +kernel
  refine ⟨_, hrun, ?_⟩
  refine (@decompress_refused _ _ (.system _) { memory := _, libraries := {} } _ _ _
    ⟨⟨.managed 1, 0⟩, 10, "bytearray", false⟩ _ (by decide +kernel) (by decide) hshows rfl
    (Argument.apart_of_ne rfl rfl rfl rfl (by decide) _) hrun).2
    ⟨[⟨[97], 1, 14⟩], [1, 2, 3, 4, 5], 0⟩ ?_ ?_ ?_ ?_ ?_
  · decide
  · exact ⟨by decide, by decide, by decide, by decide, trivial⟩
  · intro s hs
    obtain rfl : ⟨[97], 1, 14⟩ = s := Option.some.inj hs
    decide
  · decide
  · decide

/-- Both cases occur: a match right before the end that no destination takes, although there seems
to be no room for it, and ten bytes that only decode where there is room for thirteen. -/
theorem decompress_refused_wrongly :
    (((decompress (system (.ok {})) .first .second).run
        { memory := .holding [0x10, 97, 1, 0, 0] [.fresh 4], libraries := {} }).1 =
          .error (.blockRoom 4 5) ∧
      ∀ room, decode room [0x10, 97, 1, 0, 0] = none) ∧
    (((decompress (system (.ok {})) .first .second).run
        { memory := .holding [0x10, 97, 1, 0, 0x50, 1, 2, 3, 4, 5] [.fresh 10],
          libraries := {} }).1 = .error (.malformedBlock (-1)) ∧
      (decode 13 [0x10, 97, 1, 0, 0x50, 1, 2, 3, 4, 5]).isSome) := by
  refine ⟨⟨by decide +kernel, ?_⟩, by decide +kernel, by decide +kernel⟩
  intro room
  unfold decode
  split
  · rfl
  · have hread : Piece.read? [0x10, 97, 1, 0, 0] = some (.inner [97] ⟨1, 4⟩ [0]) := by decide
    rw [decodeFrom_inner hread, if_neg]
    intro hfits
    obtain ⟨-, hsource, -⟩ := Copy.fits_iff.mp hfits
    exact absurd hsource (by decide)

end NativeCodec.Codec.Lz4
