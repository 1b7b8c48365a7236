import NativeCodec.Proofs.Lz4.StoredSize
import NativeCodec.Proofs.Lz4.Sufficient

/-!
What a size in front of a block protects.

A block is decompressed into as many bytes as the size in front of it says, and a size that is
missing or is not to be believed, or for which there is no room, is refused before anything is done
(`Unpacked`). A block is compressed behind the place of its size, which is written when all else is
done; until then that place is as it was (`Packed`).
-/

set_option autoImplicit false
set_option relaxedAutoImplicit false

namespace NativeCodec.Codec.Lz4

open Native NativeCodec.Lz4

variable {σ : Type} {L : Libraries σ} {w : World σ} {src dst : Range}

/-- An error of some kind, and nothing else was done since a world. -/
def Declined (kind : Kind) (w : World σ) (result : Except Error Int × World σ) : Prop :=
  ∃ e, result = (.error e, w) ∧ e.kind = kind

/-- What becomes of decompressing a block with a size in front. Bytes of the destination from the
stored size on are as before, whatever becomes of it, and a success returns the stored size. If
there is no size, or no block of that length stands for so much, or so much does not fit the
destination, nothing is done. -/
structure Unpacked (w : World σ) (src dst : Range) (result : Except Error Int × World σ) :
    Prop where
  beyond : Memory.SameOutside (granted w.memory src dst) w.memory result.2.memory
  count_eq : ∀ n, result.1 = .ok n → n = storedIn w.memory src
  missing : src.length < sizeWidth → Declined .malformedInput w result
  unlikely : sizeWidth ≤ src.length →
    maxExpansion * (src.length - sizeWidth) + maxExpansion < storedIn w.memory src →
    Declined .malformedInput w result
  narrow : ∀ block, src.Holds w.memory block → sizeWidth ≤ src.length →
    storedIn w.memory src ≤ maxExpansion * (src.length - sizeWidth) + maxExpansion →
    dst.length < storedIn w.memory src → Declined .bufferTooSmall w result

section Unpacked

private theorem spec_decompressSized :
    Op.Spec (fun v => v.memory = w.memory) (decompressSized L src dst)
    fun o _ => ∀ n, o = .ok n → n = storedIn w.memory src := by
  refine Op.Spec.bind (R := fun o _ => ∀ size, o = .ok size → size = storedIn w.memory src)
    (fun v hv size h => eq_storedIn hv h) (fun size v hsize n hn => ?_) fun e _ _ n hn =>
      absurd hn (by simp)
  rw [← hsize size rfl]
  refine (?_ : Op.Gives (fun n : Int => n = size) _) v n hn
  refine Op.Gives.after fun room => Op.Gives.ite (Op.Gives.throw_bind _ _ _) ?_
  refine Op.Gives.after fun _ => Op.Gives.after fun body => Op.Gives.after fun part => ?_
  refine Op.Gives.after fun n => ?_
  change Op.Gives _ (if n ≠ size then _ else _)
  split
  · exact Op.Gives.throw_bind _ _ _
  · next h => exact Op.Gives.pure (Decidable.not_not.mp h)

private theorem unpacked_decompressSized :
    Unpacked w src dst ((decompressSized L src dst).run w) where
  beyond :=
    (confines_decompressSized src dst w (⟨rfl, Nat.zero_le _⟩ : Op.Stands w.memory 0 w)).memory
  count_eq := spec_decompressSized w rfl
  missing hshort := by
    refine ⟨.sizeMissing, ?_, rfl⟩
    unfold decompressSized
    rw [Op.run_bind_error (run_storedSize_short hshort)]
  unlikely hwidth hlarge := by
    have hsize := storedIn_lt w.memory src
    have hcount : src.length < countLimit := by
      unfold maxExpansion sizeWidth at hlarge
      unfold countLimit
      omega
    have hstored := run_storedSize_wide (w := w) hcount hwidth
    rw [if_pos hlarge] at hstored
    refine ⟨.sizeUnlikely (storedIn w.memory src) src.length, ?_, rfl⟩
    unfold decompressSized
    rw [Op.run_bind_error hstored]
  narrow block hblock hwidth hplausible hnarrow := by
    have hsize := storedIn_lt w.memory src
    have hstored := run_storedSize_wide (w := w) hblock.length_lt hwidth
    rw [if_neg (Nat.not_lt.mpr hplausible)] at hstored
    have hroom := Range.count?_of_le (r := dst) (n := 0x100000000) (by omega) (by decide)
    refine ⟨.storedRoom dst.length (storedIn w.memory src), ?_, rfl⟩
    unfold decompressSized
    rw [Op.run_bind_ok hstored, Op.run_ofExcept_bind hroom, if_pos hnarrow,
      Op.run_bind_error (Op.run_throw _ _)]

end Unpacked

/-- What becomes of compressing an object behind its size. Unless this succeeds, all bytes in front
are as before. A success says how many bytes the compressor wrote and those of the size in
addition, and the size is in front, the lowest byte first. A destination that is too small for the
size is refused with no coding call and with memory as it was. -/
structure Packed (L : Libraries σ) (w : World σ) (given : Option Int) (src dst : Range)
    (result : Except Error Int × World σ) : Prop where
  inside : Memory.SameOutside dst w.memory result.2.memory
  spared : ∀ e, result.1 = .error e →
    Memory.SameOutside (behindSize true dst) w.memory result.2.memory
  headed : ∀ n, result.1 = .ok n → src.length ≤ maxInputSize ∧
    (∃ c w₁ s, ∃ reply : Written Int,
      (create L (given.getD usualAcceleration)).run w = (.ok c, w₁) ∧
      L.answer (c.call w.memory src (behindSize true dst)) w₁.libraries = (.ok reply, s) ∧
      n = reply.result + sizeWidth) ∧
    ∀ front, (dst.part 0 sizeWidth).Holds w.memory front →
      (dst.part 0 sizeWidth).Holds result.2.memory (Bytes.ofNat sizeWidth src.length)
  narrow : dst.length < sizeWidth → 1 ≤ given.getD usualAcceleration → Bindable L w →
    ∃ e, result.1 = .error e ∧ e.kind = .bufferTooSmall ∧ Still w result.2

section Packed

variable {c : Compressor} {given : Option Int}

private theorem gives_settle (src : Range) (capacity : Nat) (result : Int) :
    Op.Gives (fun n => n = result) (settle L src capacity result) := by
  unfold settle
  refine Op.Gives.ite (Op.Gives.pure rfl) (Op.Gives.after fun most => ?_)
  exact Op.Gives.ite (Op.Gives.throw_bind _ _ _) (Op.Gives.throw _ _)

private theorem replied_of_compressRange {n : Int} {w' : World σ}
    (h : (compressRange L c src dst).run w = (.ok n, w')) :
    src.length ≤ maxInputSize ∧ ∃ s, ∃ reply : Written Int,
      L.answer (c.call w.memory src dst) w.libraries = (.ok reply, s) ∧ n = reply.result := by
  rcases Nat.lt_or_ge maxInputSize src.length with hlong | hn
  · rw [run_compressRange_long hlong] at h
    exact absurd h (by simp)
  · rcases hanswer : L.answer (c.call w.memory src dst) w.libraries with ⟨e | reply, s⟩
    · rw [run_compressRange_refused hn hanswer] at h
      exact absurd h (by simp)
    · rw [run_compressRange_replied hn hanswer] at h
      exact ⟨hn, s, reply, rfl, gives_settle src _ _ _ n (congrArg Prod.fst h)⟩

private theorem front_apart_behindSize (dst : Range) :
    (dst.part 0 sizeWidth).Apart (behindSize true dst) := by
  rintro place index ⟨first, hfirst, -, hlt⟩ ⟨first', hfirst', hle, -⟩
  have hstart := Pointer.location?_advance hfirst
  have hstart' := Pointer.location?_advance hfirst'
  have hsame := (Prod.mk.inj (Option.some.inj (hstart.symm.trans hstart'))).2
  change (index : Int) < first + sizeWidth at hlt
  omega

private theorem holds_front_write {m m' : Memory} {front header : Bytes}
    (hfront : (dst.part 0 sizeWidth).Holds m front)
    (hm : Memory.SameOutside (behindSize true dst) m m') (hheader : header.length = sizeWidth) :
    (dst.part 0 sizeWidth).Holds (m'.write dst.start header) header := by
  have hlength : front.length = sizeWidth := hfront.length_eq.symm
  have hwritten := (hfront.of_apart hm (front_apart_behindSize dst)).write
    (show header.length ≤ front.length by omega)
  rw [List.drop_eq_nil_of_le (by omega), List.append_nil] at hwritten
  exact hwritten

/-- Compressing behind a size comes to an error with the bytes in front as they were, or else the
size is written there at the end. -/
private theorem compressBlockRange_cases (L : Libraries σ) (w : World σ) (given : Option Int)
    (src dst : Range) :
    (∃ e w', (compressBlockRange L src dst given true).run w = (.error e, w') ∧
      Memory.SameOutside (behindSize true dst) w.memory w'.memory) ∨
    (∃ c w₁ s m w', ∃ reply : Written Int,
      (create L (given.getD usualAcceleration)).run w = (.ok c, w₁) ∧
      L.answer (c.call w.memory src (behindSize true dst)) w₁.libraries = (.ok reply, s) ∧
      src.length ≤ maxInputSize ∧ Memory.SameOutside (behindSize true dst) w.memory m ∧
      w'.memory = m.write dst.start (Bytes.ofNat sizeWidth src.length) ∧
      (compressBlockRange L src dst given true).run w = (.ok (reply.result + sizeWidth), w')) := by
  have hrefl := Memory.SameOutside.refl (behindSize true dst) w.memory
  rcases hc : (create L (given.getD usualAcceleration)).run w with ⟨e | c, w₁⟩
  · have hmemory := ((quiet_create _).still hc).memory_eq
    exact .inl ⟨e, w₁, Op.run_bind_error hc _, hmemory ▸ hrefl⟩
  have hmemory := ((quiet_create _).still hc).memory_eq
  rcases Nat.lt_or_ge dst.length sizeWidth with hnarrow | hwidth
  · exact .inl ⟨_, w₁, run_compressBlockRange_narrow hc hnarrow, hmemory ▸ hrefl⟩
  rcases Nat.lt_or_ge dst.length countLimit with hcount | hcountless
  · rw [run_compressBlockRange_behind hc hcount hwidth]
    have hconduct := relays_compressRange (L := L) c src (behindSize true dst) w₁
      (⟨rfl, Nat.zero_le _⟩ : Op.Stands w₁.memory 0 w₁)
    have hinside := hconduct.memory
    rw [hmemory] at hinside
    rcases hrun : (compressRange L c src (behindSize true dst)).run w₁ with ⟨e | n, w₂⟩
    · rw [hrun] at hinside
      exact .inl ⟨e, w₂, Op.run_bind_error hrun _, hinside⟩
    · rw [hrun] at hinside
      obtain ⟨hn, s, reply, hreply, rfl⟩ := replied_of_compressRange hrun
      rw [hmemory] at hreply
      have hwrite := Op.run_ofExcept_bind (sizeHeader_of_le hn) (fun header =>
        Op.write dst.start header >>= fun _ => (pure (reply.result + sizeWidth) : Op σ Int)) w₂
      exact .inr ⟨c, w₁, s, w₂.memory, _, reply, rfl, hreply, hn, hinside, rfl,
        (Op.run_bind_ok hrun _).trans hwrite⟩
  · exact .inl ⟨_, w₁, run_compressBlockRange_countless hc hcountless, hmemory ▸ hrefl⟩

private theorem declined_compressBlockRange (hnarrow : dst.length < sizeWidth)
    (hacceleration : 1 ≤ given.getD usualAcceleration) (hbind : Bindable L w) :
    ∃ e, ((compressBlockRange L src dst given true).run w).1 = .error e ∧
      e.kind = .bufferTooSmall ∧ Still w ((compressBlockRange L src dst given true).run w).2 := by
  obtain ⟨words, w₁, hc, -, -⟩ := run_create hbind hacceleration
  rw [run_compressBlockRange_narrow hc hnarrow]
  exact ⟨_, rfl, rfl, (quiet_create _).still hc⟩

private theorem packed_compressBlockRange (L : Libraries σ) (w : World σ) (given : Option Int)
    (src dst : Range) :
    Packed L w given src dst ((compressBlockRange L src dst given true).run w) where
  inside := (confines_compressBlockRange given true src dst w
    (⟨rfl, Nat.zero_le _⟩ : Op.Stands w.memory 0 w)).memory
  spared e he := by
    rcases compressBlockRange_cases L w given src dst with
      ⟨e', w', hrun, hsame⟩ | ⟨c, w₁, s, m, w', reply, -, -, -, -, -, hrun⟩
    · rw [hrun]
      exact hsame
    · rw [hrun] at he
      exact absurd he (by simp)
  headed n hn := by
    rcases compressBlockRange_cases L w given src dst with
      ⟨e, w', hrun, -⟩ | ⟨c, w₁, s, m, w', reply, hc, hreply, hlength, hm, hw', hrun⟩
    · rw [hrun] at hn
      exact absurd hn (by simp)
    · rw [hrun] at hn ⊢
      refine ⟨hlength, ⟨c, w₁, s, reply, hc, hreply, (Except.ok.inj hn).symm⟩, ?_⟩
      intro front hfront
      dsimp only
      rw [hw']
      exact holds_front_write hfront hm (Bytes.length_ofNat _ _)
  narrow hnarrow hacceleration hbind := declined_compressBlockRange hnarrow hacceleration hbind

end Packed

/-- Both forms with a size in front spare the bytes that are not theirs. -/
theorem sized_spares {input output : Argument} (hs : input.source? w.memory = .ok src)
    (hd : output.destination? w.memory = .ok dst) :
    Unpacked w src dst ((decompressBlockInto L input output true).run w) ∧
      ∀ given, Packed L w given src dst ((compressBlockInto L input output given true).run w) := by
  constructor
  · rw [run_decompressBlockInto_taken hs hd]
    exact unpacked_decompressSized
  · intro given
    rw [run_compressBlockInto_taken hs hd]
    exact packed_compressBlockRange L w given src dst

def sizedThree (room : Nat) : World Contexts where
  memory := .holding [3, 0, 0, 0, 0x30, 97, 98, 99] [.fresh room]
  libraries := {}

/-- The three bytes take three of five, and with room for two nothing is done. What is compressed
into three bytes is complained of, and these are as before. -/
theorem sized_spares_three :
    Memory.SameOutside ⟨⟨.managed 1, 0⟩, 3, "bytearray", false⟩ (sizedThree 5).memory
        ((decompressBlockInto (system (.ok {})) .first .second true).run (sizedThree 5)).2.memory ∧
      ((decompressBlockInto (system (.ok {})) .first .second true).run (sizedThree 5)).1 = .ok 3 ∧
      Declined .bufferTooSmall (sizedThree 2)
        ((decompressBlockInto (system (.ok {})) .first .second true).run (sizedThree 2)) ∧
      ∃ e, ((compressBlockInto (system (.ok {})) .first .second none true).run
          (sizedThree 3)).1 = .error e ∧ e.kind = .bufferTooSmall ∧
        Still (sizedThree 3) ((compressBlockInto (system (.ok {})) .first .second none true).run
          (sizedThree 3)).2 := by
  have hsource (room : Nat) : Argument.first.source? (sizedThree room).memory =
      .ok ⟨⟨.managed 0, 0⟩, 8, "bytes", true⟩ := rfl
  have hdest : ∀ room ∈ [2, 3, 5], Argument.second.destination? (sizedThree room).memory =
      .ok ⟨⟨.managed 1, 0⟩, room, "bytearray", false⟩ := by
    decide +kernel
  have hbind : Bindable (system (.ok {})) (sizedThree 3) :=
    .system _ (Regular.fresh _) (by decide)
  have hgranted : granted (sizedThree 5).memory ⟨⟨.managed 0, 0⟩, 8, "bytes", true⟩
      ⟨⟨.managed 1, 0⟩, 5, "bytearray", false⟩ = ⟨⟨.managed 1, 0⟩, 3, "bytearray", false⟩ := by
    decide +kernel
  have hbeyond := (sized_spares (L := system (.ok {})) (hsource 5) (hdest 5 (by simp))).1.beyond
  have hdeclined := (sized_spares (L := system (.ok {})) (hsource 2) (hdest 2 (by simp))).1
  have hpacked := (sized_spares (L := system (.ok {})) (hsource 3) (hdest 3 (by simp))).2 none
  rw [hgranted] at hbeyond
  refine ⟨hbeyond, by decide +kernel, ?_, ?_⟩
  · exact hdeclined.narrow [3, 0, 0, 0, 0x30, 97, 98, 99] ⟨rfl, by decide +kernel, by decide⟩
      (by decide) (by decide +kernel) (by decide +kernel)
  · exact hpacked.narrow (by decide) (by decide) hbind

/-- In enough room the size of the eight bytes is in front of their block. -/
example :
    let result := (compressBlockInto (system (.ok {})) .first .second none true).run (sizedThree 28)
    result.1 = .ok 13 ∧ result.2.memory.read? ⟨.managed 1, 0⟩ 4 = some [8, 0, 0, 0] := by
  decide +kernel

end NativeCodec.Codec.Lz4
