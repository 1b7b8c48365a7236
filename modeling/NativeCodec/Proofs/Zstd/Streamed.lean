import NativeCodec.Proofs.Zstd.Agreement
import NativeCodec.Proofs.Zstd.Decoding

set_option autoImplicit false
set_option relaxedAutoImplicit false

namespace NativeCodec.Zstd

section Blocks

variable {limit : Nat} {e e' : Entropy} {out out' : Bytes} {o : Output} {b : Block}
  {blocks : List Block}

private theorem Block.stream_of_not_isEmpty (h : b.isEmpty = false) {p : Entropy × Output} :
    b.stream limit e (.of out) = .ok p ↔
      b.content.length ≤ limit ∧ b.decode (out.length + limit) e (.of out) = .ok p := by
  have hsize : (Output.of out).size = out.length := rfl
  unfold Block.stream
  rw [if_neg (by simp [h]), hsize]
  by_cases hlimit : b.content.length ≤ limit
  · rw [if_neg (by simp; omega)]
    split
    · next hd => simp [hd]
    · simp [hlimit]
  · rw [if_pos (by simp; omega)]
    simp [hlimit]

private theorem play_of_streamBlocks (h : streamBlocks limit blocks e (.of out) = .ok o)
    (he : e.recent.Reaching) (hb : ∀ b ∈ blocks, b.Single) :
    ∃ out', o = .of out' ∧ play entropyReader (filled blocks) e out = some out' ∧
      Within entropyReader limit (filled blocks) e := by
  induction blocks generalizing e out with
  | nil => exact ⟨out, (Except.ok.inj h).symm, rfl, trivial⟩
  | cons b blocks ih =>
    have hmore := fun c hc => hb c (List.mem_cons_of_mem b hc)
    rw [streamBlocks] at h
    split at h
    · exact absurd h (by simp)
    next e₁ o₁ hs =>
    cases hempty : b.isEmpty with
    | true =>
      unfold Block.stream at hs
      rw [if_pos hempty] at hs
      obtain ⟨rfl, rfl⟩ := Prod.mk.inj (Except.ok.inj hs)
      rw [filled_of_isEmpty hempty]
      exact ih h he hmore
    | false =>
      obtain ⟨htakes, hdecodes⟩ := (Block.stream_of_not_isEmpty hempty).mp hs
      obtain ⟨r, mid, hrecipe, hfollow, rfl, hreach, hfit⟩ :=
        Block.recipe_of_decode hdecodes he (hb b (List.mem_cons_self ..))
      obtain ⟨out', ho, hplay, hwithin⟩ := ih h hreach hmore
      have hlength := Recipe.length_follow hfollow
      rw [filled_of_not_isEmpty hempty]
      refine ⟨out', ho, play_cons.mpr ⟨e₁, r, mid, hrecipe, hfollow, hplay⟩, fun e' r' hr => ?_⟩
      obtain ⟨rfl, rfl⟩ := Prod.mk.inj (Option.some.inj (hrecipe.symm.trans hr))
      exact ⟨⟨htakes, by omega⟩, hwithin⟩

private theorem streamBlocks_of_play (h : play entropyReader (filled blocks) e out = some out')
    (hw : Within entropyReader limit (filled blocks) e) (hb : ∀ b ∈ blocks, b.Single) :
    streamBlocks limit blocks e (.of out) = .ok (.of out') := by
  induction blocks generalizing e out with
  | nil => exact congrArg (fun out => Except.ok (Output.of out)) (Option.some.inj h)
  | cons b blocks ih =>
    have hmore := fun c hc => hb c (List.mem_cons_of_mem b hc)
    rw [streamBlocks]
    cases hempty : b.isEmpty with
    | true =>
      rw [filled_of_isEmpty hempty] at h hw
      have hs : b.stream limit e (.of out) = .ok (e, .of out) := by
        unfold Block.stream
        rw [if_pos hempty]
      rw [hs]
      exact ih h hw hmore
    | false =>
      rw [filled_of_not_isEmpty hempty] at h hw
      obtain ⟨e₁, r, mid, hrecipe, hfollow, hplay⟩ := play_cons.mp h
      obtain ⟨⟨htakes, hsize⟩, hwithin⟩ := hw e₁ r hrecipe
      have hlength := Recipe.length_follow hfollow
      have hdecode := @Block.decode_of_recipe (out.length + limit) _ _ _ _ _ _ hrecipe hfollow
        (hb b (List.mem_cons_self ..))
      unfold outcome at hdecode
      rw [if_pos (by omega)] at hdecode
      rw [(Block.stream_of_not_isEmpty hempty).mpr ⟨htakes, hdecode⟩]
      exact ih hplay hwithin hmore

end Blocks

variable {room : Nat} {bytes content rest : Bytes}

private theorem taken_of_streamBody {h : Header} {body : Bytes}
    (start : Start.read bytes = .ok (.data h, body)) (large : decodesAtOnce h room bytes = false)
    (dictionary : h.dictionary = 0) (window : h.window ≤ streamWindowLimit)
    (hs : streamBody h body = .ok (some (content, rest))) :
    Taken entropyReader room bytes content rest := by
  unfold streamBody at hs
  dsimp only at hs
  split at hs
  · exact absurd hs (by simp)
  next o hblocks =>
  obtain ⟨out, rfl, hplay, hwithin⟩ := @play_of_streamBlocks _ _ [] _ _ hblocks
    Recent.Reaching.start (Chain.read_single body)
  split at hs
  · exact absurd hs (by simp)
  · exact absurd hs (by simp)
  next tail hending =>
  split at hs
  · exact absurd hs (by simp)
  next hrecorded =>
  split at hs
  · exact absurd hs (by simp)
  cases hv : verify h (Output.of out).toBytes tail with
  | error f => simp [hv, Except.map] at hs
  | ok after =>
    simp only [hv, Except.map, Except.ok.injEq, Option.some.injEq, Prod.mk.injEq] at hs
    obtain ⟨rfl, rfl⟩ := hs
    refine .blockwise start large dictionary window hplay hwithin hending ?_ hv
    by_cases hend : endsEmpty (Chain.read body).blocks = true
    · exact Or.inl hend
    · by_cases hagrees : h.agrees (Output.of out).size = true
      · exact Or.inr hagrees
      · exact absurd ⟨by simpa using hend, by simpa using hagrees⟩ hrecorded

private theorem streamBody_of_play {h : Header} {body out tail : Bytes}
    (blocks : play entropyReader (filled (Chain.read body).blocks) {} [] = some out)
    (limited : Within entropyReader h.blockLimit (filled (Chain.read body).blocks) {})
    (ending : (Chain.read body).ending = .ok tail)
    (agrees : endsEmpty (Chain.read body).blocks = true ∨ h.agrees out.length = true)
    (verified : verify h out.reverse tail = .ok rest) :
    streamBody h body = .ok (some (out.reverse, rest)) := by
  have hblocks : streamBlocks h.blockLimit (Chain.read body).blocks {} {} = .ok (.of out) :=
    streamBlocks_of_play blocks limited (Chain.read_single body)
  have hverified : verify h (Output.of out).toBytes tail = .ok rest := verified
  have hagrees : ¬(endsEmpty (Chain.read body).blocks = false ∧
      h.agrees (Output.of out).size = false) := by
    rintro ⟨hend, hwrong⟩
    rcases agrees with ha | ha
    · exact absurd (ha.symm.trans hend) (by simp)
    · exact absurd (ha.symm.trans hwrong) (by simp)
  obtain ⟨stored, hchecksum⟩ := afterChecksum_of_verify verified
  unfold streamBody
  dsimp only
  rw [hblocks, ending]
  dsimp only
  rw [if_neg hagrees, hchecksum]
  dsimp only
  rw [hverified]
  rfl

private theorem taken_of_streamFrame (hs : streamFrame room bytes = .ok (some (content, rest))) :
    Taken entropyReader room bytes content rest := by
  unfold streamFrame at hs
  split at hs
  · exact absurd hs (by simp)
  · exact absurd hs (by simp)
  · next length after hstart =>
    obtain ⟨⟨skipped, later⟩, hsplit, hpair⟩ := Option.map_eq_some_iff.mp (Except.ok.inj hs)
    obtain ⟨rfl, rfl⟩ := Prod.mk.inj hpair
    exact .skippable hstart hsplit
  · next h body hstart =>
    split at hs
    · next hfits =>
      cases hd : decodeFrame room bytes with
      | error f => simp [hd, Except.map] at hs
      | ok result =>
        simp only [hd, Except.map, Except.ok.injEq, Option.some.injEq] at hs
        subst hs
        obtain ⟨h', body', out, tail, hstands, rfl, -⟩ := stands_of_decodeFrame hd
        obtain ⟨rfl, rfl⟩ := Start.read_data_unique hstands.start hstart
        exact .atOnce hfits hstands
    · next hlarge =>
      split at hs
      · exact absurd hs (by simp)
      next hdictionary =>
      split at hs
      · exact absurd hs (by simp)
      next hwindow =>
      exact taken_of_streamBody hstart (by simpa using hlarge) (Decidable.not_not.mp hdictionary)
        (Nat.not_lt.mp hwindow) hs

private theorem streamFrame_of_taken (ht : Taken entropyReader room bytes content rest) :
    streamFrame room bytes = .ok (some (content, rest)) := by
  unfold streamFrame
  cases ht with
  | skippable start skip =>
    rw [start]
    dsimp only
    rw [skip]
    rfl
  | @atOnce h body out tail rest fits stands =>
    have hfit : out.length ≤ room := by
      obtain ⟨size, after, hsize, hle, -⟩ := decodesAtOnce_eq_true.mp fits
      exact Header.agrees_eq_true.mp stands.agrees size hsize ▸ hle
    rw [stands.start]
    dsimp only
    rw [if_pos fits, decodeFrame_of_stands stands, if_pos hfit]
    rfl
  | blockwise start large dictionary window blocks limited ending agrees verified =>
    rw [start]
    dsimp only
    rw [if_neg (by simp [large]), if_neg (by simp [dictionary]), if_neg (Nat.not_lt.mpr window)]
    exact streamBody_of_play blocks limited ending agrees verified

theorem streamFrame_eq_ok : streamFrame room bytes = .ok (some (content, rest)) ↔
    Taken entropyReader room bytes content rest := ⟨taken_of_streamFrame, streamFrame_of_taken⟩

theorem Stream.call_of_error {f : Fault} (hs : streamFrame room bytes = .error f) :
    Stream.call ⟨[]⟩ room bytes = (⟨0, 0, f.word⟩, ⟨[]⟩) := by
  unfold call
  rw [if_pos List.isEmpty_nil, hs]

theorem Stream.call_of_none (hs : streamFrame room bytes = .ok none) :
    Stream.call ⟨[]⟩ room bytes = (⟨bytes.length, 0, unfinished⟩, ⟨[]⟩) := by
  unfold call
  rw [if_pos List.isEmpty_nil, hs]

theorem Stream.call_of_some (hs : streamFrame room bytes = .ok (some (content, rest))) :
    Stream.call ⟨[]⟩ room bytes = handOut content (bytes.length - rest.length) room := by
  unfold call
  rw [if_pos List.isEmpty_nil, hs]

theorem Stream.call_of_pending {pending : Bytes} (h : pending ≠ []) (bytes : Bytes) :
    Stream.call ⟨pending⟩ room bytes = handOut pending 0 room := by
  unfold call
  rw [if_neg (by simpa using h)]

private theorem Chain.length_blocks_le {bytes rest : Bytes}
    (h : (Chain.read bytes).ending = .ok rest) :
    (Chain.read bytes).blocks.length + rest.length ≤ bytes.length := by
  fun_induction Chain.read bytes with
  | case1 bytes f hf => exact absurd h (by simp)
  | case2 bytes b after hb hl =>
    have hlength := Block.read_length_lt hb
    obtain rfl := Except.ok.inj h
    unfold blockHeader at hlength
    rw [List.length_singleton]
    omega
  | case3 bytes b after hb hl chain ih =>
    have hlength := Block.read_length_lt hb
    have hmore : chain.blocks.length + rest.length ≤ after.length := ih h
    unfold blockHeader at hlength
    rw [List.length_cons]
    omega

private theorem length_play_le {reader : Reader} {limit : Nat} {blocks : List Block}
    {e : reader.State} {out out' : Bytes} (h : play reader blocks e out = some out')
    (hw : Within reader limit blocks e) : out'.length ≤ out.length + limit * blocks.length := by
  induction blocks generalizing e out with
  | nil =>
    obtain rfl := Option.some.inj h
    exact Nat.le_add_right _ _
  | cons b blocks ih =>
    obtain ⟨e₁, r, mid, hrecipe, hfollow, hplay⟩ := play_cons.mp h
    obtain ⟨⟨-, hsize⟩, hwithin⟩ := hw e₁ r hrecipe
    have hmore := ih hplay hwithin
    rw [Recipe.length_follow hfollow] at hmore
    rw [List.length_cons, Nat.mul_succ]
    omega

/-- Every byte of a frame gives no more of its content than there is room for, provided that this
is as much as a block may stand for. -/
theorem Taken.length_content_le {reader : Reader} (h : Taken reader room bytes content rest)
    (hroom : maxBlock ≤ room) (hlt : rest.length < bytes.length) :
    content.length ≤ room * (bytes.length - rest.length) := by
  cases h with
  | skippable start skip => exact Nat.zero_le _
  | @atOnce h body out tail rest fits stands =>
    obtain ⟨size, after, hsize, hfit, -⟩ := decodesAtOnce_eq_true.mp fits
    rw [List.length_reverse, ← Header.agrees_eq_true.mp stands.agrees size hsize]
    exact Nat.le_trans hfit (Nat.le_mul_of_pos_right room (by omega))
  | @blockwise h body out tail rest start large dictionary window blocks limited ending agrees
      verified =>
    have hstart := Start.read_length_lt start
    have hcount := Chain.length_blocks_le ending
    have hfilled : (filled (Chain.read body).blocks).length ≤ (Chain.read body).blocks.length :=
      List.length_filter_le _ _
    have hverify := verify_length_le verified
    have hlimit : h.blockLimit ≤ room := Nat.le_trans (Nat.min_le_right _ _) hroom
    calc
      out.reverse.length = out.length := List.length_reverse
      _ ≤ h.blockLimit * (filled (Chain.read body).blocks).length := by
        simpa using length_play_le blocks limited
      _ ≤ room * (bytes.length - rest.length) := Nat.mul_le_mul hlimit (by omega)

end NativeCodec.Zstd
