import NativeCodec.Proofs.Context.Operations
import NativeCodec.Proofs.Reuse.Codecs
import NativeCodec.Proofs.Status.Replies

set_option autoImplicit false
set_option relaxedAutoImplicit false

namespace NativeCodec

/-- Of this library's own kinds of error, those of a library that cannot be bound. -/
def Error.OfBinding (e : Error) : Prop :=
  e.kind.isA .package = true → e.kind = .libraryLoad ∨ e.kind = .symbolResolution

namespace Native

variable {σ : Type}

def Call.left : (c : Call) → c.Reply → Option Nat
  | .snappyCompress .., reply => reply.cell
  | .snappyDecompress .., reply => reply.cell
  | .snappyLength .., reply => reply.cell
  | _, _ => none

/-- What is documented of native libraries. Contexts are freed without fail; LZ4 says for every
length that its compressor takes how much room it asks for, and snappy says so for every length that
its compressor was called with; a length cell holds 64 bits; a call whose arguments do not fit is
refused with one of the general errors; and a library that cannot be bound could not be loaded or
lacks a symbol. -/
structure Libraries.Reliable (L : Libraries σ) : Prop where
  frees : L.FreesAlways
  lz4Bound : ∀ n ≤ Lz4.maxInputSize, ∀ s, ∃ room s', L.answer (.lz4Bound n) s = (.ok room, s')
  snappyBound : ∀ source capacity cell reply s s',
    L.answer (.snappyCompress source capacity cell) s = (.ok reply, s') →
      ∀ t, ∃ n t', L.answer (.snappyBound source.length) t = (.ok n, t')
  cell : ∀ c reply s s', L.answer c s = (.ok reply, s') → ∀ n ∈ c.left reply, n < wordLimit
  refused : ∀ c e s s', L.answer c s = (.error e, s') → e.kind.isA .package = false
  unbound : ∀ a e s, (L.bind a s).1.outcome = .error e → e.OfBinding

def World.Bound (a : Algorithm) (w : World σ) : Prop := ∃ k, (w.bindings a).settled = some (.ok k)

end Native

namespace Codec

open Native

variable {σ α : Type} {L : Libraries σ} {ask : Call → Prop} {before : Prop}

namespace Lz4

open NativeCodec.Lz4

private theorem mute_bound (length : Int) : Op.Mute (bound L length) := by
  unfold bound
  refine Op.Mute.bind (Op.Mute.ofExcept _) fun _ => ?_
  exact Op.Mute.bind (Op.mute_bind _) fun _ => Op.Mute.call rfl

private theorem le_of_checkInput {n : Nat} {a : Unit} (h : checkInput n = .ok a) :
    n ≤ maxInputSize := by
  unfold checkInput at h
  split at h
  · exact absurd h (by simp)
  · omega

variable (hL : L.Reliable)
include hL

private theorem run_bound_of_le {n : Nat} (hn : n ≤ maxInputSize) {w : World σ}
    (hw : w.Bound .lz4) :
    ∃ room w', L.Needs n room ∧ (bound L n).run w = (.ok room, w') := by
  obtain ⟨k, hk⟩ := hw
  obtain ⟨room, s, hs⟩ := hL.lz4Bound n hn w.libraries
  have hcheck : checkInput n = .ok () := if_neg (by omega)
  have hcall := @Op.run_call_ok _ L (.lz4Bound n) {} _ _ _ hs
  have hbind := Op.run_bind_settled (L := L) hk
  have hrun : (bound L n).run w = _ :=
    (Op.run_ofExcept_bind hcheck _ w).trans ((Op.run_bind_ok hbind _).trans hcall)
  exact ⟨room, _, ⟨_, s, hs⟩, hrun⟩

private theorem heeds_compressRange (hask : ∀ words source capacity acceleration,
      ask (.lz4Compress words source capacity acceleration)) (c : Compressor) (src dst : Range) :
    Op.Heeds L ask before (World.Bound .lz4) .number (compressRange L c src dst) := by
  unfold compressRange
  refine Op.Heeds.outcome fun _ hcheck => Op.Heeds.source fun bytes => ?_
  refine Op.Heeds.call (hask _ _ _ _) (fun _ _ _ hw => hw) (fun reply => ?_) ?_
  · refine Op.Mute.heeds (Op.Mute.bind (Op.Mute.of_events fun _ => rfl) fun _ => ?_) trivial
    refine Op.Mute.ite (Op.Mute.pure _) (Op.Mute.bind (mute_bound _) fun _ => ?_)
    exact Op.Mute.ite (Op.Mute.throw_bind _ _) (Op.Mute.throw _)
  · intro (reply : Written Int) s s' _ w hw
    rw [Op.run_bind_ok (Op.run_store ..)]
    change if 0 < reply.result then _ else _
    by_cases hpos : 0 < reply.result
    · rw [if_pos hpos, if_pos hpos]
      rfl
    rw [if_neg hpos, if_neg hpos]
    obtain ⟨room, w', hneeds, hrun⟩ := run_bound_of_le hL (le_of_checkInput hcheck) (w := { w with
      memory := w.memory.write dst.start (reply.bytes.take (min dst.length intMax)) }) hw
    refine ⟨room, hneeds, ?_⟩
    rw [Op.run_bind_ok hrun]
    split
    · rw [Op.run_bind_error (Op.run_throw _ _)]
      exact ⟨_, rfl, rfl⟩
    · exact ⟨_, rfl, rfl, rfl⟩

omit hL in
theorem kind_decodingError (capacity : Nat) (block : Bytes) (status : Int) :
    (decodingError capacity block status).kind = .bufferTooSmall ∨
      (decodingError capacity block status).kind = .malformedInput := by
  unfold decodingError
  split
  · exact Or.inr rfl
  · split
    · exact Or.inl rfl
    · exact Or.inr rfl

omit hL in
private theorem heeds_decompressRange
    (hask : ∀ source capacity, ask (.lz4Decompress source capacity))
    (src dst : Range) :
    Op.Heeds L ask before (fun _ => True) .number (decompressRange L src dst) := by
  unfold decompressRange
  refine Op.Heeds.ite (Op.Heeds.throw_bind _ _) (Op.Heeds.source fun bytes => ?_)
  refine Op.Heeds.call (hask _ _) (fun _ _ _ hw => hw) (fun reply => ?_) ?_
  · refine Op.Mute.heeds (Op.Mute.bind (Op.Mute.of_events fun _ => rfl) fun _ => ?_) trivial
    refine Op.Mute.ite (Op.Mute.pure _) (Op.Mute.bind (Op.Mute.of_events fun _ => rfl) fun _ => ?_)
    exact Op.Mute.bind (Op.mute_note _ _) fun _ => Op.Mute.throw _
  · intro (reply : Written Int) s s' _ w _
    rw [Op.run_bind_ok (Op.run_store ..)]
    change if 0 ≤ reply.result then _ else _
    by_cases hdone : 0 ≤ reply.result
    · rw [if_pos hdone, if_pos hdone]
      rfl
    · rw [if_neg hdone, if_neg hdone]
      exact ⟨_, rfl, kind_decodingError _ _ _⟩

end Lz4

namespace Snappy

structure Coder.Stands (c : Coder) (w : World σ) : Prop where
  bound : w.Bound .snappy
  cell_lt : c.cell < w.cells.length

structure Coder.Holds (c : Coder) (n : Nat) (w : World σ) : Prop extends c.Stands w where
  value : w.cells.getD c.cell 0 = n

private theorem mute_bound (length : Int) : Op.Mute (bound L length) :=
  Op.Mute.bind (Op.mute_bind _) fun _ => Op.Mute.call rfl

private theorem Coder.mute_leave (c : Coder) (reply : Counted) :
    Op.Mute (c.leave reply : Op σ Unit) := by
  unfold leave
  split
  · exact Op.Mute.pure _
  · exact Op.mute_setCell _ _

private theorem Coder.spec_setCell (c : Coder) {n : Nat} (hn : n < wordLimit) :
    Op.Spec c.Stands (Op.setCell c.cell n : Op σ Unit) fun o w => o = .ok () ∧ c.Holds n w := by
  intro w ⟨hbound, hcell⟩
  unfold Op.setCell
  rw [Op.run_of, if_neg (by omega)]
  refine ⟨rfl, ⟨hbound, ?_⟩, ?_⟩
  · rw [List.length_set]
    exact hcell
  · change (w.cells.set c.cell n).getD c.cell 0 = n
    rw [List.getD_eq_getElem?_getD, List.getElem?_set_self hcell]
    rfl

private theorem Coder.spec_store (c : Coder) {n : Nat} (dst : Range) (capacity : Nat)
    (written : Bytes) :
    Op.Spec (c.Holds n) (Op.store dst capacity written : Op σ Unit) fun o w =>
      o = .ok () ∧ c.Holds n w :=
  fun _ hw => ⟨rfl, ⟨hw.bound, hw.cell_lt⟩, hw.value⟩

private theorem Coder.spec_leave (c : Coder) {reply : Counted} {n : Nat}
    (hreply : ∀ m ∈ reply.cell, m < wordLimit) :
    Op.Spec (c.Holds n) (c.leave reply : Op σ Unit) fun o w =>
      o = .ok () ∧ c.Holds (reply.cell.getD n) w := by
  unfold leave
  split
  · next hnone =>
    intro w hw
    rw [hnone]
    exact ⟨rfl, hw⟩
  · next m hsome =>
    rw [hsome]
    intro w hw
    exact c.spec_setCell (hreply m hsome) w hw.toStands

private theorem Coder.run_cell {c : Coder} {n : Nat} {w : World σ} (hw : c.Holds n w) :
    (Op.cell c.cell).run w = (.ok n, w) :=
  Prod.ext (congrArg Except.ok hw.value) rfl

private theorem Coder.Holds.replied {c : Coder} {n : Nat} {w : World σ} (hw : c.Holds n w) (s : σ)
    (events : List Event) : c.Holds n { w with libraries := s, events := events } :=
  ⟨⟨hw.bound, hw.cell_lt⟩, hw.value⟩

private theorem Coder.outcome_end {c : Coder} {n : Nat} {w : World σ} (hw : c.Holds n w)
    (operation : String) (status : Int) :
    ((if status ≠ done then
        (throw (.failedWith operation status) : Op σ Unit) >>= fun _ => Op.cell c.cell
      else Op.cell c.cell).run w).1 =
      if status = 0 then .ok n else .error (.failedWith operation status) := by
  by_cases hdone : status = done
  · have hzero : status = 0 := hdone
    rw [if_neg (not_not_intro hdone), if_pos hzero, c.run_cell hw]
  · have hzero : ¬ status = 0 := hdone
    rw [if_pos hdone, if_neg hzero, Op.run_bind_error (Op.run_throw _ _)]

private theorem Coder.heeds_primed {g : α → Answer} (c : Coder) (n : Nat)
    {f : Nat → Op σ α} (hf : Op.Heeds L ask before (c.Holds n) g (f n)) :
    Op.Heeds L ask before c.Stands g
      (Op.setCell c.cell n >>= fun _ => Op.cell c.cell >>= f) := by
  by_cases hn : n < wordLimit
  · refine Op.Heeds.bind (R := fun _ => c.Holds n) (Op.mute_setCell _ _) ?_ fun _ => ?_
    · intro w hw _ _
      exact (c.spec_setCell hn w hw).2
    · intro w hw
      rw [Op.run_bind_ok (c.run_cell hw)]
      exact hf w hw
  · intro w hw
    have hlarge : (Op.setCell c.cell n).run w = (.error .tooLarge, w) := if_pos (by omega)
    rw [Op.run_bind_error hlarge]
    exact Op.Heeds.throw .tooLarge w hw

private theorem run_bound_of_taken (hL : L.Reliable) {source : Source} {capacity cell : Nat}
    {reply : Counted} {s s' : σ}
    (hs : L.answer (.snappyCompress source capacity cell) s = (.ok reply, s')) {w : World σ}
    (hw : w.Bound .snappy) : ∃ n w', (bound L source.length).run w = (.ok n, w') := by
  obtain ⟨k, hk⟩ := hw
  obtain ⟨n, t, ht⟩ := hL.snappyBound source capacity cell reply s s' hs w.libraries
  have hcall := @Op.run_call_ok _ L (.snappyBound source.length) {} _ _ _ ht
  have hbind := Op.run_bind_settled (L := L) hk
  exact ⟨n, _, (Op.run_bind_ok hbind _).trans hcall⟩

private theorem heeds_compressRange (hL : L.Reliable)
    (hask : ∀ source capacity cell, ask (.snappyCompress source capacity cell)) (c : Coder)
    (src dst : Range) :
    Op.Heeds L ask before c.Stands (fun n : Nat => .number n)
      (compressRange L c src dst) := by
  unfold compressRange
  refine Op.Heeds.source fun bytes => c.heeds_primed dst.length ?_
  refine Op.Heeds.call (hask _ _ _) (fun _ s events hw => hw.replied s events) (fun reply => ?_) ?_
  · refine Op.Mute.heeds (Op.Mute.bind (Op.Mute.of_events fun _ => rfl) fun _ => ?_) trivial
    refine Op.Mute.bind (c.mute_leave reply) fun _ => Op.Mute.ite ?_ ?_
    · exact Op.Mute.bind (mute_bound _) fun _ => Op.Mute.throw_bind _ _
    · exact Op.Mute.ite (Op.Mute.throw_bind _ _) (Op.Mute.of_events fun _ => rfl)
  · intro (reply : Counted) s s' hs
    have hleft : ∀ n ∈ reply.cell, n < wordLimit := hL.cell _ _ _ _ hs
    refine Op.Spec.succeed (c.spec_store dst _ _) ?_
    refine Op.Spec.succeed (c.spec_leave hleft) fun w hw => ?_
    change if reply.status = 0 then _ else _
    dsimp only
    by_cases hsmall : reply.status = tooSmall
    · -- the message asks for the bound, which must not fail in place of the error
      obtain ⟨n, w', hrun⟩ := run_bound_of_taken hL hs hw.bound
      have htwo : reply.status = 2 := hsmall
      rw [if_pos hsmall, Op.run_bind_ok hrun, Op.run_bind_error (Op.run_throw _ _), htwo]
      exact ⟨_, rfl, rfl⟩
    have htwo : ¬ reply.status = 2 := hsmall
    rw [if_neg hsmall, c.outcome_end hw, if_neg htwo]
    by_cases hzero : reply.status = 0
    · rw [if_pos hzero, if_pos hzero]
      rfl
    · rw [if_neg hzero, if_neg hzero]
      exact ⟨_, rfl, rfl, rfl⟩

private theorem heeds_decompressRange (hL : L.Reliable)
    (hask : ∀ source capacity cell, ask (.snappyDecompress source capacity cell)) (c : Coder)
    (src dst : Range) :
    Op.Heeds L ask before c.Stands (fun n : Nat => .number n)
      (decompressRange L c src dst) := by
  unfold decompressRange
  refine Op.Heeds.source fun bytes => c.heeds_primed dst.length ?_
  refine Op.Heeds.call (hask _ _ _) (fun _ s events hw => hw.replied s events) (fun reply => ?_) ?_
  · refine Op.Mute.heeds (Op.Mute.bind (Op.Mute.of_events fun _ => rfl) fun _ => ?_) trivial
    refine Op.Mute.bind (c.mute_leave reply) fun _ => Op.Mute.ite (Op.Mute.throw_bind _ _) ?_
    refine Op.Mute.ite (Op.Mute.throw_bind _ _) (Op.Mute.ite (Op.Mute.throw_bind _ _) ?_)
    exact Op.Mute.of_events fun _ => rfl
  · intro (reply : Counted) s s' hs
    have hleft : ∀ n ∈ reply.cell, n < wordLimit := hL.cell _ _ _ _ hs
    refine Op.Spec.succeed (c.spec_store dst _ _) ?_
    refine Op.Spec.succeed (c.spec_leave hleft) fun w hw => ?_
    change if reply.status = 0 then _ else _
    dsimp only
    by_cases hinvalid : reply.status = invalidInput
    · have hone : reply.status = 1 := hinvalid
      rw [if_pos hinvalid, Op.run_bind_error (Op.run_throw _ _), hone]
      exact ⟨_, rfl, rfl⟩
    rw [if_neg hinvalid]
    by_cases hsmall : reply.status = tooSmall
    · have htwo : reply.status = 2 := hsmall
      rw [if_pos hsmall, Op.run_bind_error (Op.run_throw _ _), htwo]
      exact ⟨_, rfl, rfl⟩
    have hone : ¬ reply.status = 1 := hinvalid
    have htwo : ¬ reply.status = 2 := hsmall
    rw [if_neg hsmall, c.outcome_end hw, if_neg hone, if_neg htwo]
    by_cases hzero : reply.status = 0
    · rw [if_pos hzero, if_pos hzero]
      rfl
    · rw [if_neg hzero, if_neg hzero]
      exact ⟨_, rfl, rfl, rfl⟩

private theorem heeds_lengthOfRange (hL : L.Reliable)
    (hask : ∀ source cell, ask (.snappyLength source cell)) (c : Coder) (src : Range) :
    Op.Heeds L ask before c.Stands (fun n : Nat => .extent (some n))
      (lengthOfRange L c src) := by
  unfold lengthOfRange
  refine Op.Heeds.source fun bytes => c.heeds_primed 0 ?_
  refine Op.Heeds.call (hask _ _) (fun _ s events hw => hw.replied s events) (fun reply => ?_) ?_
  · refine Op.Mute.heeds (Op.Mute.bind (c.mute_leave reply) fun _ => ?_) trivial
    refine Op.Mute.ite (Op.Mute.throw_bind _ _) (Op.Mute.ite (Op.Mute.throw_bind _ _) ?_)
    exact Op.Mute.of_events fun _ => rfl
  · intro (reply : Counted) s s' hs
    have hleft : ∀ n ∈ reply.cell, n < wordLimit := hL.cell _ _ _ _ hs
    refine Op.Spec.succeed (c.spec_leave hleft) fun w hw => ?_
    change if reply.status = 0 then _ else _
    dsimp only
    by_cases hinvalid : reply.status = invalidInput
    · have hone : reply.status = 1 := hinvalid
      rw [if_pos hinvalid, Op.run_bind_error (Op.run_throw _ _), hone]
      exact ⟨_, rfl, rfl⟩
    have hone : ¬ reply.status = 1 := hinvalid
    rw [if_neg hinvalid, c.outcome_end hw, if_neg hone]
    by_cases hzero : reply.status = 0
    · rw [if_pos hzero, if_pos hzero]
      rfl
    · rw [if_neg hzero, if_neg hzero]
      exact ⟨_, rfl, rfl, rfl⟩

private theorem mute_validateRange (src : Range) : Op.Mute (validateRange L src) := by
  unfold validateRange
  refine Op.Mute.bind (Op.Mute.of_events fun _ => rfl) fun source => ?_
  exact Op.Mute.bind (Op.Mute.call rfl) fun _ => Op.Mute.pure _

end Snappy

namespace Zstd

open NativeCodec.Zstd

section Result

variable (operation : String) (decoding : Bool)

theorem classed_failure (code : Nat) (name : Nat → String) :
    (failure operation code (name code) decoding).Classed name decoding code := by
  unfold failure
  by_cases hroom : code = roomCode
  · rw [if_pos hroom, hroom]
    exact ⟨iff_of_true rfl rfl, iff_of_false (by simp [Error.kind]) (by simp [roomCode]),
      fun h => absurd rfl h⟩
  rw [if_neg hroom]
  by_cases hinput : decoding = true ∧ code ∈ inputCodes
  · rw [if_pos hinput]
    exact ⟨iff_of_false (by simp [Error.kind]) hroom, iff_of_true rfl hinput,
      fun _ h => absurd rfl h⟩
  · rw [if_neg hinput]
    exact ⟨iff_of_false (by simp [Error.kind]) hroom, iff_of_false (by simp [Error.kind]) hinput,
      fun _ _ => ⟨⟨rfl, rfl⟩, rfl⟩⟩

private theorem mute_fail (word : Nat) : Op.Mute (fail L operation word decoding : Op σ α) := by
  unfold fail
  exact Op.Mute.bind (Op.mute_note _ _) fun _ => Op.Mute.throw _

private theorem mute_sized (word : Nat) : Op.Mute (sized L operation word decoding) := by
  unfold sized
  exact Op.Mute.ite (Op.Mute.bind (mute_fail _ _ _) fun _ => Op.Mute.pure _) (Op.Mute.pure _)

private theorem isError_eq_false_iff (word : Nat) :
    isError word = false ↔ word ≤ wordLimit - 120 := by
  unfold isError errorWords
  rw [decide_eq_false_iff_not, Nat.not_lt]

private theorem run_sized_of_le {word : Nat} (h : word ≤ wordLimit - 120) (w : World σ) :
    (sized L operation word decoding).run w = (.ok word, w) := by
  have hno : isError word = false := (isError_eq_false_iff word).mpr h
  unfold sized
  rw [hno]
  rfl

private theorem raises_sized {word : Nat} (h : ¬ word ≤ wordLimit - 120) (w : World σ) :
    ∃ e w', (sized L operation word decoding).run w = (.error e, w') ∧
      e.Classed L.errorName decoding (wordLimit - word) := by
  have hyes : isError word = true := by
    rw [← Bool.not_eq_false, isError_eq_false_iff]
    exact h
  have hcode : errorCode word = wordLimit - word := if_pos hyes
  have hclassed := classed_failure operation decoding (wordLimit - word) L.errorName
  unfold sized
  rw [if_pos hyes]
  unfold fail
  rw [hcode]
  exact ⟨_, _, rfl, hclassed⟩

private theorem spec_sized (word : Nat) :
    Op.Spec (fun _ => True) (sized L operation word decoding) fun o _ =>
      Sized L.errorName decoding word (o.map fun n : Nat => .number n) := by
  intro w _
  unfold Sized
  split
  · next h =>
    rw [run_sized_of_le operation decoding h]
    rfl
  · next h =>
    obtain ⟨e, w', hrun, hclassed⟩ := raises_sized (L := L) operation decoding h w
    rw [hrun]
    exact ⟨e, rfl, hclassed⟩

end Result

private theorem passes_sized {f : Nat → Op σ (Option Nat)} (operation : String) (word : Nat)
    (w : World σ) :
    Passes L.errorName word (((sized L operation word true >>= f).run w).1.map .extent) := by
  unfold Passes
  split
  · rcases (sized L operation word true >>= f).run w with ⟨e | found, w'⟩
    · exact fun a ha => absurd ha (by simp [Except.map])
    · exact fun a ha => ⟨found, (Except.ok.inj ha).symm⟩
  · next h =>
    obtain ⟨e, w', hrun, hclassed⟩ := raises_sized (L := L) operation true h w
    rw [Op.run_bind_error hrun]
    exact ⟨e, rfl, hclassed⟩

private theorem heeds_bound (hask : ∀ size, ask (.zstdBound size)) (length : Int) :
    Op.Heeds L ask before (fun _ => True) (fun n : Nat => .number n) (bound L length) := by
  unfold bound
  refine Op.Heeds.call (hask _) (fun _ _ _ hw => hw) (fun word => ?_) ?_
  · exact (mute_sized _ _ word).heeds trivial
  · intro word s s' _
    exact spec_sized _ _ word

private theorem heeds_compressRange
    (hask : ∀ context capacity source level, ask (.zstdCompress context capacity source level))
    (context : Nat) (src dst : Range) (level : Int) :
    Op.Heeds L ask before (fun _ => True) (fun n : Nat => .number n)
      (compressRange L context src dst level) := by
  unfold compressRange
  refine Op.Heeds.source fun bytes => ?_
  refine Op.Heeds.call (hask _ _ _ _) (fun _ _ _ hw => hw) (fun reply => ?_) ?_
  · refine Op.Mute.heeds (Op.Mute.bind (Op.Mute.of_events fun _ => rfl) fun _ => ?_) trivial
    exact mute_sized _ _ _
  · intro reply s s' _
    exact Op.Spec.succeed (fun _ _ => ⟨rfl, trivial⟩) (spec_sized _ _ reply.result)

private theorem heeds_decompressRange
    (hask : ∀ context capacity source, ask (.zstdDecompress context capacity source))
    (context : Nat) (src dst : Range) :
    Op.Heeds L ask before (fun _ => True) (fun n : Nat => .number n)
      (decompressRange L context src dst) := by
  unfold decompressRange
  refine Op.Heeds.source fun bytes => ?_
  refine Op.Heeds.call (hask _ _ _) (fun _ _ _ hw => hw) (fun reply => ?_) ?_
  · refine Op.Mute.heeds (Op.Mute.bind (Op.Mute.of_events fun _ => rfl) fun _ => ?_) trivial
    exact mute_sized _ _ _
  · intro reply s s' _
    exact Op.Spec.succeed (fun _ _ => ⟨rfl, trivial⟩) (spec_sized _ _ reply.result)

private theorem gives_probeFrom (source : Source) (start : Pointer)
    (patience position total : Nat) :
    Op.Gives (fun found : Option Nat => ∀ n ∈ found, total ≤ n)
      (probeFrom L source start patience position total) := by
  induction patience generalizing position total with
  | zero => exact Op.Gives.throw _ _
  | succ patience ih =>
    unfold probeFrom
    dsimp only
    refine Op.Gives.after fun (content : Nat) => ?_
    refine Op.Gives.ite (Op.Gives.pure (by simp)) (Op.Gives.ite (Op.Gives.throw_bind _ _ _) ?_)
    refine Op.Gives.after fun (word : Nat) => Op.Gives.after fun extent => ?_
    refine Op.Gives.ite (Op.Gives.pure ?_) fun w found hfound n hn => ?_
    · intro n hn
      have hn : total + content = n := Option.some.inj hn
      omega
    · have hle : total + content ≤ n := ih _ _ w found hfound n hn
      omega

private theorem counts_of_gives {x : Op σ (Option Nat)} {content : Nat} (total : Nat)
    (hx : Op.Gives (fun found : Option Nat => ∀ n ∈ found, total + content ≤ n) x) (w : World σ)
    (hunknown : content ≠ unknownSize) (hinvalid : content ≠ invalidSize) :
    Counts content ((x.run w).1.map .extent) := by
  have hunknown' : ¬ content = wordLimit - 1 := hunknown
  have hinvalid' : ¬ content = wordLimit - 2 := hinvalid
  unfold Counts
  rw [if_neg hunknown', if_neg hinvalid']
  intro a ha
  rcases hr : (x.run w).1 with e | found
  · rw [hr] at ha
    exact absurd ha (by simp [Except.map])
  · rw [hr] at ha
    refine ⟨found, (Except.ok.inj ha).symm, fun n hn => ?_⟩
    have hle := hx w found hr n hn
    omega

private theorem heeds_probeFrom (hsize : ∀ source, ask (.zstdContentSize source))
    (hend : ∀ source, ask (.zstdFrameSize source)) (source : Source) (start : Pointer)
    (patience position total : Nat) :
    Op.Heeds L ask before (fun _ => True) .extent
      (probeFrom L source start patience position total) := by
  induction patience generalizing position total before with
  | zero => exact Op.Heeds.throw _
  | succ patience ih =>
    unfold probeFrom
    dsimp only
    refine Op.Heeds.call (hsize _) (fun _ _ _ hw => hw) (fun (content : Nat) => ?_) ?_
    · refine Op.Heeds.ite ((Op.Mute.pure _).heeds trivial) ?_
      refine Op.Heeds.ite (Op.Heeds.throw_bind _ _) ?_
      refine Op.Heeds.call (hend _) (fun _ _ _ hw => hw) (fun (word : Nat) => ?_) ?_
      · refine Op.Heeds.bind (R := fun _ _ => True) (mute_sized _ _ _) (fun _ _ _ _ => trivial) ?_
        exact fun extent => Op.Heeds.ite ((Op.Mute.pure _).heeds trivial) (ih _ _)
      · intro (word : Nat) s s' _ w _
        exact passes_sized _ word w
    · intro (content : Nat) s s' _ w _
      change Counts content _
      split
      · next hunknown =>
        rw [hunknown]
        exact rfl
      split
      · next hinvalid =>
        rw [hinvalid, Op.run_bind_error (Op.run_throw _ _)]
        exact ⟨_, rfl, rfl⟩
      · next hunknown hinvalid =>
        -- whatever the later frames add, the size of this one stays in the total
        refine counts_of_gives total ?_ w hunknown hinvalid
        refine Op.Gives.after fun (word : Nat) => Op.Gives.after fun extent => ?_
        refine Op.Gives.ite (Op.Gives.pure ?_) (gives_probeFrom _ _ _ _ _)
        exact fun n hn => Nat.le_of_eq (Option.some.inj hn)

private theorem heeds_lengthOfRange (hsize : ∀ source, ask (.zstdContentSize source))
    (hend : ∀ source, ask (.zstdFrameSize source)) (src : Range) :
    Op.Heeds L ask before (fun _ => True) .extent (lengthOfRange L src) :=
  Op.Heeds.source fun _ => heeds_probeFrom hsize hend _ _ _ _ _

section Context

private theorem mute_acquire (d : Direction) : Op.Mute (acquire L d) :=
  Op.Mute.bind (Op.Mute.call rfl) fun _ => Op.Mute.ofExcept _

private theorem mute_free (d : Direction) (handle : Nat) :
    Op.Mute (free L d handle) := Op.Mute.call rfl

private theorem mute_drainFrom (context room : Nat) (source : Source) (site : Site)
    (patience consumed : Nat) :
    Op.Mute (drainFrom L context room source site patience consumed) := by
  induction patience generalizing consumed with
  | zero => exact Op.Mute.throw _
  | succ patience ih =>
    unfold drainFrom
    refine Op.Mute.bind (Op.Mute.call rfl) fun reply => ?_
    refine Op.Mute.ite (Op.Mute.ite ?_ (Op.Mute.pure _)) (Op.Mute.ite (Op.Mute.pure _) ?_)
    · exact Op.Mute.bind (mute_fail _ _ _) fun _ => Op.Mute.pure _
    · exact Op.Mute.ite (Op.Mute.pure _) (ih _)

private theorem mute_validateRange (src : Range) : Op.Mute (validateRange L src) := by
  unfold validateRange
  refine Op.Mute.ite (Op.Mute.pure _) ?_
  refine Op.Mute.bind (Op.Mute.call rfl) fun room => ?_
  refine Op.Mute.bind (Op.Mute.of_events fun _ => rfl) fun _ => ?_
  refine Op.Mute.bind (mute_acquire _) fun c => Op.Mute.ensuring ?_ (mute_free _ _)
  refine Op.Mute.bind (Op.Mute.of_events fun _ => rfl) fun source => ?_
  exact Op.Mute.ite (Op.Mute.throw_bind _ _) (mute_drainFrom _ _ _ _ _ _)

private theorem heeds_within (hL : L.FreesAlways) (d : Direction) (own : Option Context)
    {body : Nat → Op σ α} {g : α → Answer}
    (hbody : ∀ handle, Op.Heeds L ask before (fun _ => True) g (body handle)) :
    Op.Heeds L ask before (fun _ => True) g (within L d own body) := by
  cases own with
  | none =>
    refine Op.Heeds.bind (R := fun _ _ => True) (mute_acquire d) (fun _ _ _ _ => trivial) ?_
    intro c
    refine Op.Heeds.ensuring (hbody c.handle) (mute_free d c.handle) fun w => ?_
    obtain ⟨s, hs⟩ := hL d c.handle w.libraries
    exact congrArg Prod.fst (Op.run_call_ok hs)
  | some c => exact Op.Heeds.outcome fun handle _ => hbody handle

end Context

end Zstd

namespace Facade

/-- The calls that an operation of a codec is decided by. Validation never comes to a length, and
the bounds of LZ4 and snappy cannot fail. -/
def Asks : Facade → Operation → Call → Prop
  | .lz4Compressor _, .compress .., .lz4Compress .. => True
  | .lz4Decompressor, .decompress .., .lz4Decompress .. => True
  | .snappyCompressor _, .compress .., .snappyCompress .. => True
  | .snappyDecompressor _, .decompress .., .snappyDecompress .. => True
  | .snappyDecompressor _, .length _, .snappyLength .. => True
  | .zstdCompressor _, .bound _, .zstdBound _ => True
  | .zstdCompressor _, .compress .., .zstdCompress .. => True
  | .zstdDecompressor _, .bound _, .zstdBound _ => True
  | .zstdDecompressor _, .decompress .., .zstdDecompress .. => True
  | .zstdDecompressor _, .length _, .zstdContentSize _ => True
  | .zstdDecompressor _, .length _, .zstdFrameSize _ => True
  | _, _, _ => False

variable {f : Facade}

private theorem Ready.stands {c : Snappy.Coder} {w : World σ} (hw : f.Ready w)
    (ha : f.algorithm = .snappy) (hc : f.cell? = some c.cell) : c.Stands w :=
  ⟨ha ▸ hw.bound, hw.cell _ hc⟩

private theorem heeds_compress (hL : L.Reliable) (f : Facade) (input output : Argument) :
    Op.Heeds L (f.Asks (.compress input output)) before f.Ready .number
      (f.compress L input output) := by
  cases f with
  | lz4Compressor c =>
    refine Op.Heeds.mono (Op.Heeds.ranges _ _ ?_) fun w hw => hw.bound
    exact Lz4.heeds_compressRange hL (fun _ _ _ _ => trivial) c
  | snappyCompressor c =>
    refine Op.Heeds.map (Op.Heeds.mono (Op.Heeds.ranges _ _ ?_) fun w hw => hw.stands rfl rfl)
    exact Snappy.heeds_compressRange hL (fun _ _ _ => trivial) c
  | zstdCompressor c =>
    refine Op.Heeds.map (Op.Heeds.mono (Op.Heeds.ranges _ _ ?_) fun _ _ => trivial)
    exact fun src dst => Zstd.heeds_within hL.frees _ _ fun handle =>
      Zstd.heeds_compressRange (fun _ _ _ _ => trivial) handle src dst c.level
  | _ => exact Op.Heeds.throw _

private theorem heeds_decompress (hL : L.Reliable) (f : Facade) (input output : Argument) :
    Op.Heeds L (f.Asks (.decompress input output)) before f.Ready .number
      (f.decompress L input output) := by
  cases f with
  | lz4Decompressor =>
    refine Op.Heeds.mono (Op.Heeds.ranges _ _ ?_) fun _ _ => trivial
    exact Lz4.heeds_decompressRange fun _ _ => trivial
  | snappyDecompressor c =>
    refine Op.Heeds.map (Op.Heeds.mono (Op.Heeds.ranges _ _ ?_) fun w hw => hw.stands rfl rfl)
    exact Snappy.heeds_decompressRange hL (fun _ _ _ => trivial) c
  | zstdDecompressor d =>
    refine Op.Heeds.map (Op.Heeds.mono (Op.Heeds.ranges _ _ ?_) fun _ _ => trivial)
    exact fun src dst => Zstd.heeds_within hL.frees _ _ fun handle =>
      Zstd.heeds_decompressRange (fun _ _ _ => trivial) handle src dst
  | _ => exact Op.Heeds.throw _

private theorem heeds_length (hL : L.Reliable) (f : Facade) (input : Argument) :
    Op.Heeds L (f.Asks (.length input)) before f.Ready .extent (f.length L input) := by
  cases f with
  | snappyDecompressor c =>
    refine Op.Heeds.map (Op.Heeds.mono (Op.Heeds.range _ ?_) fun w hw => hw.stands rfl rfl)
    exact Snappy.heeds_lengthOfRange hL (fun _ _ => trivial) c
  | zstdDecompressor d =>
    refine Op.Heeds.mono (Op.Heeds.range _ ?_) fun _ _ => trivial
    exact Zstd.heeds_lengthOfRange (fun _ => trivial) fun _ => trivial
  | _ => exact Op.Heeds.throw _

private theorem mute_validate (f : Facade) (input : Argument) : Op.Mute (f.validate L input) := by
  have hrange {g : Range → Op σ Bool} (hg : ∀ src, Op.Mute (g src)) :
      Op.Mute (Op.input input >>= g) := Op.Mute.bind (Op.Mute.of_events fun _ => rfl) hg
  cases f with
  | snappyDecompressor c => exact hrange Snappy.mute_validateRange
  | zstdDecompressor d => exact hrange Zstd.mute_validateRange
  | _ => exact Op.Mute.throw _

private theorem heeds_bound (f : Facade) (size : Int) :
    Op.Heeds L (f.Asks (.bound size)) (∀ c, ¬ f.Asks (.bound size) c) f.Ready .number
      (f.bound L size) := by
  have hzstd {ask : Call → Prop} {before : Prop} (hask : ∀ size, ask (.zstdBound size)) (n : Int) :
      Op.Heeds L ask before f.Ready .number ((fun n : Nat => (n : Int)) <$> Zstd.bound L n) :=
    Op.Heeds.map (Op.Heeds.mono (Zstd.heeds_bound hask n) fun _ _ => trivial)
  refine Op.Heeds.outcome fun n _ => ?_
  cases f with
  | lz4Compressor | lz4Decompressor => exact (Lz4.mute_bound n).heeds fun _ h => h
  | snappyCompressor | snappyDecompressor => exact (Snappy.mute_bound n).heeds fun _ h => h
  | zstdCompressor | zstdDecompressor => exact hzstd (fun _ => trivial) n

end Facade

theorem Operation.heeds (hL : L.Reliable) (f : Facade) (o : Operation) :
    Op.Heeds L (f.Asks o) (∀ c, ¬ f.Asks o c) f.Ready (fun a => a) (o.op L f) := by
  cases o with
  | bound size => exact Op.Heeds.map (Facade.heeds_bound f size)
  | compress input output => exact Op.Heeds.map (Facade.heeds_compress hL f input output)
  | decompress input output => exact Op.Heeds.map (Facade.heeds_decompress hL f input output)
  | length input => exact Op.Heeds.map (Facade.heeds_length hL f input)
  | validate input =>
    exact (Op.Mute.map _ (Facade.mute_validate f input)).heeds (by cases f <;> exact fun _ h => h)

end Codec

end NativeCodec
