import NativeCodec.Proofs.Zstd.Blocks
import NativeCodec.Proofs.Zstd.Contents

set_option autoImplicit false
set_option relaxedAutoImplicit false

namespace NativeCodec.Zstd

variable {capacity : Nat} {bytes content rest : Bytes} {contents : List Bytes}

private theorem Descriptor.one_le_fieldWidth (d : Descriptor) : 1 ≤ d.fieldWidth := by
  unfold fieldWidth windowWidth sizeWidth
  cases d.single with
  | false =>
    rw [if_neg (by decide)]
    omega
  | true =>
    simp only [if_true]
    split
    · omega
    · omega
    · omega
    · omega

private theorem Chain.blockHeader_le_length {bytes rest : Bytes}
    (h : (Chain.read bytes).ending = .ok rest) : blockHeader ≤ bytes.length := by
  rw [Chain.read] at h
  split at h
  · exact absurd h (by simp)
  · next hb => exact Nat.le_trans (Nat.le_add_left _ _) (Block.read_length_lt hb)

private theorem holdsHeader_of_read {bytes body tail : Bytes} {h : Header}
    (hs : Start.read bytes = .ok (.data h, body)) (he : (Chain.read body).ending = .ok tail) :
    holdsHeader bytes = true := by
  have hbody := Chain.blockHeader_le_length he
  obtain ⟨a, b, c, d, e, fields, rfl, -, hwidth, -⟩ := Start.eq_of_read_data hs
  have hone := (Descriptor.ofByte e).one_le_fieldWidth
  simp only [holdsHeader, Bytes.holds_eq_decide, List.length_cons, List.length_append, hwidth,
    Bool.and_eq_true, decide_eq_true_eq, Descriptor.headerWidth]
  unfold smallestHeader
  omega

theorem decodeFrame_of_stands {h : Header} {body out tail : Bytes}
    (hs : Stands entropyReader bytes h body out tail rest) :
    decodeFrame capacity bytes =
      if out.length ≤ capacity then .ok (out.reverse, rest) else .error .destinationTooSmall := by
  have hheld := holdsHeader_of_read hs.start hs.ending
  have hblocks : decodeBlocks capacity (Chain.read body).blocks {} {} = _ :=
    decodeBlocks_of_play hs.blocks (Chain.read_single body) (Nat.zero_le capacity)
  unfold decodeFrame
  rw [if_neg (by simp [hheld]), hs.start]
  dsimp only
  rw [if_neg (by simp [hs.dictionary])]
  unfold decodeBody
  dsimp only
  rw [hblocks, hs.ending]
  by_cases hfit : out.length ≤ capacity
  · have hagrees : h.agrees (Output.of out).size = true := hs.agrees
    have hverified : verify h (Output.of out).toBytes tail = .ok rest := hs.verified
    rw [if_pos hfit, if_pos hfit]
    dsimp only
    rw [if_neg (by simp [hagrees]), hverified]
    rfl
  · rw [if_neg hfit, if_neg hfit]

theorem stands_of_decodeFrame (hd : decodeFrame capacity bytes = .ok (content, rest)) :
    ∃ h body out tail, Stands entropyReader bytes h body out tail rest ∧ content = out.reverse ∧
      out.length ≤ capacity := by
  unfold decodeFrame at hd
  split at hd
  · exact absurd hd (by simp)
  split at hd
  · exact absurd hd (by simp)
  · exact absurd hd (by simp)
  · exact absurd hd (by simp)
  next h body hstart =>
  split at hd
  · exact absurd hd (by simp)
  next hdictionary =>
  unfold decodeBody at hd
  dsimp only at hd
  split at hd
  · exact absurd hd (by simp)
  next o hblocks =>
  obtain ⟨out, hplay, rfl, hfit⟩ :=
    @play_of_decodeBlocks _ _ _ [] _ hblocks Recent.Reaching.start (Chain.read_single body)
  split at hd
  · exact absurd hd (by simp)
  next tail hending =>
  split at hd
  · exact absurd hd (by simp)
  next hagrees =>
  cases hv : verify h (Output.of out).toBytes tail with
  | error f => simp [hv, Except.map] at hd
  | ok after =>
    simp only [hv, Except.map, Except.ok.injEq, Prod.mk.injEq] at hd
    obtain ⟨rfl, rfl⟩ := hd
    exact ⟨h, body, out, tail,
      { start := hstart
        dictionary := Decidable.not_not.mp hdictionary
        blocks := hplay
        ending := hending
        agrees := Decidable.not_not.mp fun h => hagrees (Bool.eq_false_iff.mpr h)
        verified := hv }, rfl, hfit (Nat.zero_le capacity)⟩

private theorem decodeFrames_nil (capacity : Nat) (later : Bool) :
    decodeFrames capacity later [] = .ok [] := by
  rw [decodeFrames, if_pos (by decide)]
  rfl

private theorem decodeFrames_of_opens (h : Opens entropyReader bytes content rest) (later : Bool) :
    ∃ later', (decodeFrames capacity later bytes).map List.flatten =
      if content.length ≤ capacity then
        (decodeFrames (capacity - content.length) later' rest).map fun contents =>
          content ++ contents.flatten
      else .error .destinationTooSmall := by
  have hafter := h.afterFrame_eq
  cases h with
  | skippable start skip =>
    refine ⟨later, ?_⟩
    rw [decodeFrames, if_neg (by rw [Start.holds_of_read start]; decide),
      if_pos (Start.read_skippable_magic start), List.length_nil, if_pos (Nat.zero_le capacity)]
    split
    · next ha => exact absurd (ha.symm.trans hafter) (by simp)
    · next ha =>
      rw [Except.ok.inj (ha.symm.trans hafter)]
      rfl
  | @data h body out tail rest stands =>
    refine ⟨true, ?_⟩
    have hdecode := @decodeFrame_of_stands capacity _ _ _ _ _ _ stands
    rw [decodeFrames, if_neg (by rw [Start.holds_of_read stands.start]; decide),
      if_neg (by rw [Start.read_data_magic stands.start]; decide), List.length_reverse]
    by_cases hfit : out.length ≤ capacity
    · rw [if_pos hfit] at hdecode ⊢
      split
      · next hd => exact absurd (hd.symm.trans hdecode) (by simp)
      · next content' rest' hd =>
        obtain ⟨rfl, rfl⟩ := Prod.mk.inj (Except.ok.inj (hd.symm.trans hdecode))
        rw [List.length_reverse]
        cases hrest : decodeFrames (capacity - out.length) true rest' with
        | error f => rfl
        | ok contents => rfl
    · rw [if_neg hfit] at hdecode ⊢
      split
      · next hd =>
        rw [Except.error.inj (hd.symm.trans hdecode)]
        rfl
      · next hd => exact absurd (hd.symm.trans hdecode) (by simp)

private theorem decodeFrames_of_consists (h : Consists entropyReader bytes contents)
    (later : Bool) :
    (decodeFrames capacity later bytes).map List.flatten =
      if contents.flatten.length ≤ capacity then .ok contents.flatten
      else .error .destinationTooSmall := by
  induction h generalizing capacity later with
  | nil =>
    rw [decodeFrames_nil, List.flatten_nil, List.length_nil, if_pos (Nat.zero_le capacity)]
    rfl
  | @cons bytes content rest contents first more ih =>
    obtain ⟨later', hstep⟩ := @decodeFrames_of_opens capacity _ _ _ first later
    rw [hstep, List.flatten_cons, List.length_append]
    by_cases hfit : content.length ≤ capacity
    · have hmore := @ih (capacity - content.length) later'
      rw [if_pos hfit]
      by_cases hrest : contents.flatten.length ≤ capacity - content.length
      · rw [if_pos hrest] at hmore
        rw [if_pos (by omega)]
        cases hd : decodeFrames (capacity - content.length) later' rest with
        | error f => simp [hd, Except.map] at hmore
        | ok found =>
          rw [hd] at hmore
          exact congrArg (fun out => Except.ok (content ++ out)) (Except.ok.inj hmore)
      · rw [if_neg hrest] at hmore
        rw [if_neg (by omega)]
        cases hd : decodeFrames (capacity - content.length) later' rest with
        | error f =>
          rw [hd] at hmore
          exact congrArg Except.error (Except.error.inj hmore)
        | ok found => simp [hd, Except.map] at hmore
    · rw [if_neg hfit, if_neg (by omega)]

private theorem consists_of_decodeFrames {later : Bool}
    (h : decodeFrames capacity later bytes = .ok contents) :
    ∃ contents', Consists entropyReader bytes contents' := by
  induction hn : bytes.length using Nat.strongRecOn generalizing capacity later bytes contents with
  | ind n ih =>
    subst hn
    by_cases hb : bytes = []
    · exact ⟨[], hb ▸ .nil⟩
    rw [decodeFrames] at h
    split at h
    · split at h
      · next he => exact absurd (List.isEmpty_iff.mp he) hb
      · exact absurd h (by simp)
    split at h
    · next hm =>
      split at h
      · exact absurd h (by simp)
      · next rest ha =>
        have hopens : Opens entropyReader bytes [] rest := by
          have hafter := ha
          unfold afterFrame at hafter
          split at hafter
          · exact absurd hafter (by simp)
          · exact absurd hafter (by simp)
          · next hs => exact .skippable hs hafter
          · next hs => exact absurd hm (by simp [Start.read_data_magic hs])
        obtain ⟨more, hmore⟩ := ih rest.length (afterFrame_length_lt ha) h rfl
        exact ⟨[] :: more, .cons hopens hmore⟩
    · split at h
      · exact absurd h (by simp)
      · next content rest hd =>
        obtain ⟨header, body, out, tail, hstands, -, -⟩ := stands_of_decodeFrame hd
        cases hr : decodeFrames (capacity - content.length) true rest with
        | error f => simp [hr, Except.map] at h
        | ok later' =>
          obtain ⟨more, hmore⟩ := ih rest.length (decodeFrame_length_lt hd) hr rfl
          exact ⟨_, .cons (.data hstands) hmore⟩

theorem decode_of_consists (h : Consists entropyReader bytes contents) (capacity : Nat) :
    decode capacity bytes = if contents.flatten.length ≤ capacity then .ok contents.flatten
      else .error .destinationTooSmall :=
  decodeFrames_of_consists h false

theorem consists_of_decode {out : Bytes} (h : decode capacity bytes = .ok out) :
    ∃ contents, Consists entropyReader bytes contents := by
  unfold decode at h
  cases hd : decodeFrames capacity false bytes with
  | error f => simp [hd, Except.map] at h
  | ok contents => exact consists_of_decodeFrames hd

end NativeCodec.Zstd
