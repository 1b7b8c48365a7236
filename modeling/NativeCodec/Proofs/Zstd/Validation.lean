import NativeCodec.Proofs.Zstd.Draining
import NativeCodec.Proofs.Zstd.Unpacking

/-!
Validation against decompression.

Whatever validates decompresses into every destination that is large enough, unless a frame of it
has a fault that a stream decoder passes over, and then it decompresses into none
(`decompresses_of_validate`). Whatever decompresses validates just if every frame of it keeps to the
limits of a stream decoder (`validate_of_decompress`). Neither says anything of frames whose matches
reach back further than their window, unless they are decoded at once.
-/

set_option autoImplicit false
set_option relaxedAutoImplicit false

namespace NativeCodec.Codec.Zstd

open Native NativeCodec.Zstd

variable {σ : Type} {L : Libraries σ} {reader : Reader} {room n : Nat} {data : Bytes}
  {At : Nat → Nat → Nat → Nat → σ → Prop} {w : World σ} {d : Decompressor}
  {input output : Argument}

/-- What validates is not empty. It decompresses into every destination that is large enough, and
any other is too small for it; unless a frame of it has a length that cannot be added to its
header's, a compressed block of no bytes or a recorded size that is not its own, and then it
decompresses into no destination. -/
theorem decompresses_of_validate (hL : Unpacks L reader data) (hreads : Reads L reader room data At)
    (hlends : Lends L .decompression) (hroom : room < w.memory.room)
    (hi : input.Shows w.memory data) (hv : ((validate L input).run w).1 = .ok true) :
    data ≠ [] ∧
      ((∀ ahead ∈ frameStarts data, ¬Lax reader ahead ∧ Near reader room ahead) →
        ∃ out, Decompresses L data out) ∧
      ((∃ ahead ∈ frameStarts data, Lax reader ahead) → Refused L data) := by
  refine ⟨?_, ?_, ?_⟩
  · rintro rfl
    rw [run_validate_nil hi] at hv
    exact absurd hv (by simp)
  · intro hsound
    obtain ⟨valid, hvalid, hiff⟩ := run_validate hreads hlends hroom hi hsound
    rw [hv, Except.ok.injEq] at hvalid
    obtain ⟨-, ⟨contents, hc⟩, -⟩ :=
      (drains_iff fun ahead ha => (hsound ahead ha).1).mp (hiff.mp hvalid.symm)
    exact ⟨contents.flatten, decompresses_of_consists hL hlends hc⟩
  · rintro ⟨ahead, hahead, hlax⟩ w' d input' output' n hi' hn
    obtain ⟨contents, -, -, hc, -⟩ := consists_of_decompress hL hi' hn
    exact hc.not_lax ahead hahead hlax

private theorem raw_starts : frameStarts [0x28, 0xB5, 0x2F, 0xFD, 0x20, 3, 0x19, 0, 0, 7, 8, 9] =
    [[0x28, 0xB5, 0x2F, 0xFD, 0x20, 3, 0x19, 0, 0, 7, 8, 9]] := by decide +kernel

private theorem raw_start : Start.read [0x28, 0xB5, 0x2F, 0xFD, 0x20, 3, 0x19, 0, 0, 7, 8, 9] =
    .ok (.data ⟨some 3, 3, 0, false⟩, [0x19, 0, 0, 7, 8, 9]) := by rfl

private theorem raw_near : ∀ ahead ∈
    frameStarts [0x28, 0xB5, 0x2F, 0xFD, 0x20, 3, 0x19, 0, 0, 7, 8, 9],
    Near entropyReader maxBlock ahead := by
  rw [raw_starts]
  intro ahead hahead h body hs
  rw [List.mem_singleton.mp hahead] at hs ⊢
  obtain ⟨rfl, rfl⟩ := Start.read_data_unique raw_start hs
  exact .inl (by decide +kernel)

/-- A frame of three bytes. -/
theorem decompresses_of_validate_raw : ∃ out, Decompresses (system (.ok {}))
    [0x28, 0xB5, 0x2F, 0xFD, 0x20, 3, 0x19, 0, 0, 7, 8, 9] out := by
  have hL := Unpacks.system (.ok {})
    (show [0x28, 0xB5, 0x2F, 0xFD, 0x20, 3, 0x19, 0, 0, 7, 8, 9].length < countLimit by decide)
  have hi := @Argument.first_shows [0x28, 0xB5, 0x2F, 0xFD, 0x20, 3, 0x19, 0, 0, 7, 8, 9]
    [.fresh 3] (by decide)
  obtain ⟨contents, -, -, hc, -⟩ := @consists_of_decompress _ _ _ _
    { memory := .holding [0x28, 0xB5, 0x2F, 0xFD, 0x20, 3, 0x19, 0, 0, 7, 8, 9] [.fresh 3],
      libraries := {} } ⟨none⟩ .first .second hL hi 3 (by decide +kernel)
  have hv : ((validate (system (.ok {})) .first).run
      { memory := .holding [0x28, 0xB5, 0x2F, 0xFD, 0x20, 3, 0x19, 0, 0, 7, 8, 9] [.fresh 3],
        libraries := {} }).1 = .ok true := by decide +kernel
  exact (decompresses_of_validate hL (.system (.ok {}) _) (.system (.ok {}) .decompression)
    (show maxBlock < (Memory.holding [0x28, 0xB5, 0x2F, 0xFD, 0x20, 3, 0x19, 0, 0, 7, 8, 9]
      [.fresh 3]).room by decide) hi hv).2.1
    fun ahead ha => ⟨hc.not_lax ahead ha, raw_near ahead ha⟩

/-- A frame without any bytes that records 2 ^ 32 - 1, and one with a compressed block of no bytes:
both validate, and neither decompresses. -/
theorem decompresses_of_validate_lax :
    (((validate (system (.ok {})) .first).run
        { memory := .holding [0x28, 0xB5, 0x2F, 0xFD, 0xC0, 0, 0xFF, 0xFF, 0xFF, 0xFF, 0, 0, 0, 0,
            1, 0, 0] [.fresh 4], libraries := {} }).1 = .ok true ∧
      ((Decompressor.decompress (system (.ok {})) ⟨none⟩ .first .second).run
        { memory := .holding [0x28, 0xB5, 0x2F, 0xFD, 0xC0, 0, 0xFF, 0xFF, 0xFF, 0xFF, 0, 0, 0, 0,
            1, 0, 0] [.fresh 4], libraries := {} }).1 =
        .error (.malformedFrame "decompression" "Data corruption detected")) ∧
    (((validate (system (.ok {})) .first).run
        { memory := .holding [0x28, 0xB5, 0x2F, 0xFD, 0, 0x58, 5, 0, 0] [.fresh 4],
          libraries := {} }).1 = .ok true ∧
      ((Decompressor.decompress (system (.ok {})) ⟨none⟩ .first .second).run
        { memory := .holding [0x28, 0xB5, 0x2F, 0xFD, 0, 0x58, 5, 0, 0] [.fresh 4],
          libraries := {} }).1 =
        .error (.malformedFrame "decompression" "Data corruption detected")) := by
  refine ⟨⟨?_, ?_⟩, ⟨?_, ?_⟩⟩
  · decide +kernel
  · decide +kernel
  · decide +kernel
  · decide +kernel

/-- What decompresses into some destination validates just if every frame of it is skippable,
records a size that the room of a stream decoder is enough for, or has a window and blocks no
larger than the limits of a stream decoder. -/
theorem validate_of_decompress {w' : World σ} {input' : Argument} (hL : Unpacks L reader data)
    (hreads : Reads L reader room data At) (hlends : Lends L .decompression)
    (hroom : room < w'.memory.room) (hi : input.Shows w.memory data)
    (hi' : input'.Shows w'.memory data) (hne : data ≠ [])
    (hn : ((d.decompress L input output).run w).1 = .ok n)
    (hnear : ∀ ahead ∈ frameStarts data, Near reader room ahead) :
    ∃ valid, ((validate L input').run w').1 = .ok valid ∧
      (valid = true ↔ ∀ ahead ∈ frameStarts data, Limited reader room ahead) := by
  obtain ⟨contents, -, -, hc, -⟩ := consists_of_decompress hL hi hn
  obtain ⟨valid, hvalid, hiff⟩ := run_validate hreads hlends hroom hi'
    fun ahead ha => ⟨hc.not_lax ahead ha, hnear ahead ha⟩
  refine ⟨valid, hvalid, hiff.trans ((drains_iff hc.not_lax).trans ?_)⟩
  exact ⟨fun h => h.2.2, fun h => ⟨hne, ⟨contents, hc⟩, h⟩⟩

/-- A frame of three bytes that records their number. -/
theorem validate_of_decompress_raw :
    ((validate (system (.ok {})) .first).run
      { memory := .holding [0x28, 0xB5, 0x2F, 0xFD, 0x20, 3, 0x19, 0, 0, 7, 8, 9] [.fresh 3],
        libraries := {} }).1 = .ok true := by
  have hi := @Argument.first_shows [0x28, 0xB5, 0x2F, 0xFD, 0x20, 3, 0x19, 0, 0, 7, 8, 9]
    [.fresh 3] (by decide)
  obtain ⟨valid, hvalid, hiff⟩ := @validate_of_decompress _ _ _ _ 3 _ _
    { memory := .holding [0x28, 0xB5, 0x2F, 0xFD, 0x20, 3, 0x19, 0, 0, 7, 8, 9] [.fresh 3],
      libraries := {} } ⟨none⟩ .first .second
    { memory := .holding [0x28, 0xB5, 0x2F, 0xFD, 0x20, 3, 0x19, 0, 0, 7, 8, 9] [.fresh 3],
      libraries := {} } .first (.system (.ok {}) (by decide))
    (.system (.ok {}) _) (.system (.ok {}) .decompression)
    (show maxBlock < (Memory.holding [0x28, 0xB5, 0x2F, 0xFD, 0x20, 3, 0x19, 0, 0, 7, 8, 9]
      [.fresh 3]).room by decide) hi hi (by decide) (by decide +kernel) raw_near
  rw [hvalid, Except.ok.injEq, hiff, raw_starts]
  intro ahead hahead
  rw [List.mem_singleton.mp hahead]
  exact .recorded raw_start rfl (by decide)

/-- A window of 2 ^ 28 bytes, and a block that stands for more bytes than its frame's window: both
decompress, and neither validates. -/
theorem validate_of_decompress_unlimited :
    (((Decompressor.decompress (system (.ok {})) ⟨none⟩ .first .second).run
        { memory := .holding [0x28, 0xB5, 0x2F, 0xFD, 0, 0x90, 0x19, 0, 0, 0x66, 0x6F, 0x6F]
            [.fresh 3], libraries := {} }).1 = .ok 3 ∧
      ((validate (system (.ok {})) .first).run
        { memory := .holding [0x28, 0xB5, 0x2F, 0xFD, 0, 0x90, 0x19, 0, 0, 0x66, 0x6F, 0x6F]
            [.fresh 3], libraries := {} }).1 = .ok false) ∧
    (((Decompressor.decompress (system (.ok {})) ⟨none⟩ .first .second).run
        { memory := .holding [0x28, 0xB5, 0x2F, 0xFD, 0, 0, 0x0B, 0x20, 0, 9] [.fresh 1025],
          libraries := {} }).1 = .ok 1025 ∧
      ((validate (system (.ok {})) .first).run
        { memory := .holding [0x28, 0xB5, 0x2F, 0xFD, 0, 0, 0x0B, 0x20, 0, 9] [.fresh 1025],
          libraries := {} }).1 = .ok false) := by
  refine ⟨⟨?_, ?_⟩, ⟨?_, ?_⟩⟩
  · decide +kernel
  · decide +kernel
  · decide +kernel
  · decide +kernel

end NativeCodec.Codec.Zstd
