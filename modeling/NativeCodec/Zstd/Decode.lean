import NativeCodec.Zstd.Checksum
import NativeCodec.Zstd.Sequences

/-!
Decoding whole zstd inputs at once.

An input is any number of frames, data frames and skippable ones, and decodes to the contents of
the data frames one after another. `decodeFrame` decodes one data frame and gives what follows it,
`decodeFrame_length_lt` says that this is less, and `decode` goes through all frames.
-/

set_option autoImplicit false
set_option relaxedAutoImplicit false

namespace NativeCodec.Zstd

def Block.decode (capacity : Nat) (b : Block) (e : Entropy) (out : Output) :
    Except Fault (Entropy × Output) :=
  match b.coding with
  | .raw =>
    let count := b.content.length
    (out.finish capacity b.content count).map fun out => (e, out)
  | .repeated count =>
    if capacity < out.size + count then .error .destinationTooSmall
    else
      .ok (e, ⟨cycleOnto b.content b.content count out.reversed, out.size + count⟩)
  | .compressed => decodeBlock capacity e out b.content

def decodeBlocks (capacity : Nat) : List Block → Entropy → Output → Except Fault Output
  | [], _, out => .ok out
  | b :: rest, e, out =>
    match b.decode capacity e out with
    | .error f => .error f
    | .ok (e, out) => decodeBlocks capacity rest e out

def Header.agrees (h : Header) (size : Nat) : Bool :=
  match h.contentSize with
  | none => true
  | some recorded => recorded == size

/-- Checks the content of a frame against what follows its blocks, and gives the rest. -/
def verify (h : Header) (content rest : Bytes) : Except Fault Bytes :=
  match afterChecksum h.checksum rest with
  | none => .error .wrongChecksum
  | some (stored, rest) =>
    if h.checksum = true ∧ stored ≠ Checksum.stored content then .error .wrongChecksum
    else .ok rest

/-- Decodes the blocks after a header, and gives the content and what follows the frame. -/
def decodeBody (capacity : Nat) (h : Header) (bytes : Bytes) : Except Fault (Bytes × Bytes) :=
  let chain := Chain.read bytes
  match decodeBlocks capacity chain.blocks {} {} with
  | .error f => .error f
  | .ok out =>
    match chain.ending with
    | .error f => .error f
    | .ok rest =>
      if h.agrees out.size = false then .error .corrupted
      else
        let content := out.toBytes
        (verify h content rest).map fun rest => (content, rest)

def holdsHeader (bytes : Bytes) : Bool :=
  Bytes.holds (smallestHeader + blockHeader) bytes &&
    match bytes with
    | _ :: _ :: _ :: _ :: e :: _ =>
      Bytes.holds ((Descriptor.ofByte e).headerWidth + blockHeader) bytes
    | _ => false

def decodeFrame (capacity : Nat) (bytes : Bytes) : Except Fault (Bytes × Bytes) :=
  if holdsHeader bytes = false then .error .sourceSize
  else
    match Start.read bytes with
    | .error .incomplete => .error .sourceSize
    | .error (.refused f) => .error f
    | .ok (.skippable _, _) => .error .unknownFrame
    | .ok (.data h, rest) =>
      if h.dictionary ≠ 0 then .error .dictionaryMismatch else decodeBody capacity h rest

def leadingMagic (bytes : Bytes) : Nat := Bytes.toNat (bytes.take 4)

theorem Start.read_length_lt {bytes rest : Bytes} {s : Start}
    (h : Start.read bytes = .ok (s, rest)) : rest.length < bytes.length := by
  match bytes, h with
  | a :: b :: c :: d :: e :: more, h =>
    simp only [Start.read] at h
    split at h
    · split at h
      · simp at h
      · rename_i fields after hs
        have := congrArg List.length (Bytes.split?_eq_some hs).1
        cases hf : (Descriptor.ofByte e).readFields fields with
        | error _ => simp [hf, Except.map] at h
        | ok header =>
          simp only [hf, Except.map, Except.ok.injEq, Prod.mk.injEq] at h
          simp only [List.length_append, h.2] at this
          simp only [List.length_cons]
          omega
    · split at h
      · split at h
        · simp at h
        · rename_i length after hs
          have := congrArg List.length (Bytes.split?_eq_some hs).1
          simp only [Except.ok.injEq, Prod.mk.injEq] at h
          simp only [List.length_append, List.length_cons, h.2] at this
          simp only [List.length_cons]
          omega
      · simp at h

theorem Chain.read_length_lt {bytes rest : Bytes} (h : (Chain.read bytes).ending = .ok rest) :
    rest.length < bytes.length := by
  fun_induction Chain.read bytes with
  | case1 bytes f hf => simp at h
  | case2 bytes b after hb hl =>
    have := Block.read_length_lt hb
    simp only [Except.ok.injEq] at h
    simp only [blockHeader, h] at this
    omega
  | case3 bytes b after hb hl chain ih =>
    have := Block.read_length_lt hb
    have := ih h
    simp only [blockHeader] at *
    omega

theorem afterChecksum_length_le {checksum : Bool} {bytes stored rest : Bytes}
    (h : afterChecksum checksum bytes = some (stored, rest)) : rest.length ≤ bytes.length := by
  have := congrArg List.length (Bytes.split?_eq_some h).1
  simp only [List.length_append] at this
  omega

theorem verify_length_le {h : Header} {content bytes rest : Bytes}
    (hv : verify h content bytes = .ok rest) : rest.length ≤ bytes.length := by
  unfold verify at hv
  split at hv
  · simp at hv
  · rename_i hc
    split at hv
    · simp at hv
    · simp only [Except.ok.injEq] at hv
      exact hv ▸ afterChecksum_length_le hc

theorem decodeBody_length_lt {capacity : Nat} {h : Header} {bytes content rest : Bytes}
    (hd : decodeBody capacity h bytes = .ok (content, rest)) : rest.length < bytes.length := by
  simp only [decodeBody] at hd
  split at hd
  · simp at hd
  · rename_i out _
    split at hd
    · simp at hd
    · rename_i after he
      split at hd
      · simp at hd
      · have := Chain.read_length_lt he
        cases hv : verify h out.toBytes after with
        | error _ => simp [hv, Except.map] at hd
        | ok r =>
          have := verify_length_le hv
          simp only [hv, Except.map, Except.ok.injEq, Prod.mk.injEq] at hd
          obtain ⟨-, rfl⟩ := hd
          omega

theorem decodeFrame_length_lt {capacity : Nat} {bytes content rest : Bytes}
    (h : decodeFrame capacity bytes = .ok (content, rest)) : rest.length < bytes.length := by
  unfold decodeFrame at h
  split at h
  · simp at h
  · split at h
    · simp at h
    · simp at h
    · simp at h
    · rename_i hr
      split at h
      · simp at h
      · exact Nat.lt_trans (decodeBody_length_lt h) (Start.read_length_lt hr)

theorem afterFrame_length_lt {bytes rest : Bytes} (h : afterFrame bytes = .ok rest) :
    rest.length < bytes.length := by
  unfold afterFrame at h
  split at h
  · simp at h
  · simp at h
  · rename_i length after hr
    have := Start.read_length_lt hr
    unfold afterSkippable at h
    split at h
    · simp at h
    · split at h
      · simp at h
      · rename_i hs
        have := congrArg List.length (Bytes.split?_eq_some hs).1
        simp only [Except.ok.injEq] at h
        simp only [List.length_append, h] at this
        omega
  · rename_i header after hr
    have := Start.read_length_lt hr
    split at h
    · simp at h
    · rename_i after he
      have := Chain.read_length_lt he
      split at h
      · simp at h
      · rename_i hc
        have := afterChecksum_length_le hc
        simp only [Except.ok.injEq] at h
        subst h
        omega

/-- The fewest bytes that can start a frame. -/
def smallestStart : Nat := 5

/-- Decodes the frames ahead into what is left of the destination. `later` says that a data frame
came before, and then bytes that start no frame are excess bytes of the source. -/
def decodeFrames (capacity : Nat) (later : Bool) (bytes : Bytes) : Except Fault (List Bytes) :=
  if Bytes.holds smallestStart bytes = false then
    if bytes.isEmpty then .ok [] else .error .sourceSize
  else if isSkippableMagic (leadingMagic bytes) then
    match _h : afterFrame bytes with
    | .error f => .error f
    | .ok rest => decodeFrames capacity later rest
  else
    match _h : decodeFrame capacity bytes with
    | .error f => .error (if f = .unknownFrame ∧ later then .sourceSize else f)
    | .ok (content, rest) =>
      (decodeFrames (capacity - content.length) true rest).map (content :: ·)
  termination_by bytes.length
  decreasing_by
    · exact afterFrame_length_lt ‹_›
    · exact decodeFrame_length_lt ‹_›

def decode (capacity : Nat) (bytes : Bytes) : Except Fault Bytes :=
  (decodeFrames capacity false bytes).map List.flatten

end NativeCodec.Zstd
