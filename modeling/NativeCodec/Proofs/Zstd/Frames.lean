import NativeCodec.Zstd.Decode

set_option autoImplicit false
set_option relaxedAutoImplicit false

namespace NativeCodec.Zstd

section Append

variable {bytes rest : Bytes} (more : Bytes)

theorem Start.read_append {s : Start} (h : Start.read bytes = .ok (s, rest)) :
    Start.read (bytes ++ more) = .ok (s, rest ++ more) := by
  match bytes, h with
  | a :: b :: c :: d :: e :: after, h =>
    simp only [Start.read, List.cons_append] at h ⊢
    split at h
    · next hm =>
      rw [if_pos hm]
      cases hs : Bytes.split? (Descriptor.ofByte e).fieldWidth after with
      | none => simp [hs] at h
      | some p =>
        obtain ⟨fields, later⟩ := p
        rw [hs] at h
        rw [Bytes.split?_append_more hs more]
        dsimp only at h ⊢
        cases hf : (Descriptor.ofByte e).readFields fields with
        | error u => simp [hf, Except.map] at h
        | ok header =>
          simp only [hf, Except.map, Except.ok.injEq, Prod.mk.injEq] at h ⊢
          obtain ⟨rfl, rfl⟩ := h
          exact ⟨rfl, rfl⟩
    · next hm =>
      rw [if_neg hm]
      split at h
      · next hk =>
        rw [if_pos hk]
        cases hs : Bytes.split? 4 (e :: after) with
        | none => simp [hs] at h
        | some p =>
          obtain ⟨length, later⟩ := p
          rw [hs] at h
          rw [← List.cons_append, Bytes.split?_append_more hs more]
          simp only [Except.ok.injEq, Prod.mk.injEq] at h ⊢
          obtain ⟨rfl, rfl⟩ := h
          exact ⟨rfl, rfl⟩
      · exact absurd h (by simp)

private theorem Block.taken_eq_ok {width : Nat} {make : Bytes → Block} {b : Block} :
    (match Bytes.split? width bytes with
      | none => (.error .sourceSize : Except Fault (Block × Bytes))
      | some (content, rest) => .ok (make content, rest)) = .ok (b, rest) ↔
    ∃ content, Bytes.split? width bytes = some (content, rest) ∧ b = make content := by
  cases Bytes.split? width bytes with
  | none => simp
  | some p =>
    obtain ⟨content, after⟩ := p
    simp only [Except.ok.injEq, Prod.mk.injEq, Option.some.injEq]
    constructor
    · rintro ⟨rfl, rfl⟩
      exact ⟨content, ⟨rfl, rfl⟩, rfl⟩
    · rintro ⟨_, ⟨rfl, rfl⟩, rfl⟩
      exact ⟨rfl, rfl⟩

theorem Block.read_append {b : Block} (h : Block.read bytes = .ok (b, rest)) :
    Block.read (bytes ++ more) = .ok (b, rest ++ more) := by
  match bytes, h with
  | x :: y :: z :: after, h =>
    simp only [Block.read, List.cons_append] at h ⊢
    split at h
    · obtain ⟨content, hs, hb⟩ := Block.taken_eq_ok.mp h
      exact Block.taken_eq_ok.mpr ⟨content, Bytes.split?_append_more hs more, hb⟩
    · obtain ⟨content, hs, hb⟩ := Block.taken_eq_ok.mp h
      exact Block.taken_eq_ok.mpr ⟨content, Bytes.split?_append_more hs more, hb⟩
    · obtain ⟨content, hs, hb⟩ := Block.taken_eq_ok.mp h
      exact Block.taken_eq_ok.mpr ⟨content, Bytes.split?_append_more hs more, hb⟩
    · exact absurd h (by simp)

/-- The blocks of a frame that ends are found whatever follows it. -/
theorem Chain.read_append (h : (Chain.read bytes).ending = .ok rest) :
    Chain.read (bytes ++ more) = ⟨(Chain.read bytes).blocks, .ok (rest ++ more)⟩ := by
  fun_induction Chain.read bytes with
  | case1 bytes f hf => exact absurd h (by simp)
  | case2 bytes b after hb hl =>
    rw [Except.ok.injEq] at h
    rw [Chain.read]
    split
    · next hm => exact absurd (hm.symm.trans (Block.read_append more hb)) (by simp)
    · next b' after' hm =>
      have he := hm.symm.trans (Block.read_append more hb)
      rw [Except.ok.injEq, Prod.mk.injEq] at he
      rw [he.1, he.2, if_pos hl, h]
  | case3 bytes b after hb hl chain ih =>
    rw [Chain.read]
    split
    · next hm => exact absurd (hm.symm.trans (Block.read_append more hb)) (by simp)
    · next b' after' hm =>
      have he := hm.symm.trans (Block.read_append more hb)
      rw [Except.ok.injEq, Prod.mk.injEq] at he
      rw [he.1, he.2, if_neg hl, ih h]

theorem afterChecksum_append {checksum : Bool} {stored : Bytes}
    (h : afterChecksum checksum bytes = some (stored, rest)) :
    afterChecksum checksum (bytes ++ more) = some (stored, rest ++ more) :=
  Bytes.split?_append_more h more

theorem verify_append {h : Header} {content : Bytes} (hv : verify h content bytes = .ok rest) :
    verify h content (bytes ++ more) = .ok (rest ++ more) := by
  unfold verify at hv ⊢
  split at hv
  · exact absurd hv (by simp)
  · next stored after hc =>
    rw [afterChecksum_append more hc]
    dsimp only
    split at hv
    · exact absurd hv (by simp)
    · next hs =>
      rw [if_neg hs, Except.ok.inj hv]

end Append

section Suffix

variable {bytes rest : Bytes}

/-- The start of a data frame is its magic number, a descriptor and the fields that this asks
for. -/
theorem Start.eq_of_read_data {header : Header}
    (h : Start.read bytes = .ok (.data header, rest)) :
    ∃ a b c d e fields, bytes = a :: b :: c :: d :: e :: (fields ++ rest) ∧
      Bytes.toNat [a, b, c, d] = frameMagic ∧
      fields.length = (Descriptor.ofByte e).fieldWidth ∧
      (Descriptor.ofByte e).readFields fields = .ok header := by
  match bytes, h with
  | a :: b :: c :: d :: e :: after, h =>
    simp only [Start.read] at h
    split at h
    · next hmagic =>
      split at h
      · exact absurd h (by simp)
      · next fields later hs =>
        obtain ⟨rfl, hwidth⟩ := Bytes.split?_eq_some hs
        cases hf : (Descriptor.ofByte e).readFields fields with
        | error u => simp [hf, Except.map] at h
        | ok found =>
          simp only [hf, Except.map, Except.ok.injEq, Prod.mk.injEq, Start.data.injEq] at h
          obtain ⟨rfl, rfl⟩ := h
          exact ⟨a, b, c, d, e, fields, rfl, hmagic, hwidth, hf⟩
    · split at h
      · split at h
        · exact absurd h (by simp)
        · exact absurd h (by simp)
      · exact absurd h (by simp)

private theorem Start.read_suffix {s : Start} (h : Start.read bytes = .ok (s, rest)) :
    rest <:+ bytes := by
  match bytes, h with
  | a :: b :: c :: d :: e :: after, h =>
    simp only [Start.read] at h
    split at h
    · split at h
      · exact absurd h (by simp)
      · next fields later hs =>
        cases hf : (Descriptor.ofByte e).readFields fields with
        | error u => simp [hf, Except.map] at h
        | ok header =>
          simp only [hf, Except.map, Except.ok.injEq, Prod.mk.injEq] at h
          obtain ⟨-, rfl⟩ := h
          exact (Bytes.split?_suffix hs).trans (List.suffix_append [a, b, c, d, e] after)
    · split at h
      · split at h
        · exact absurd h (by simp)
        · next length later hs =>
          simp only [Except.ok.injEq, Prod.mk.injEq] at h
          obtain ⟨-, rfl⟩ := h
          exact (Bytes.split?_suffix hs).trans (List.suffix_append [a, b, c, d] (e :: after))
      · exact absurd h (by simp)

private theorem Block.read_suffix {b : Block} (h : Block.read bytes = .ok (b, rest)) :
    rest <:+ bytes := by
  match bytes, h with
  | x :: y :: z :: after, h =>
    have hafter : after <:+ x :: y :: z :: after := List.suffix_append [x, y, z] after
    simp only [Block.read] at h
    split at h
    · obtain ⟨content, hs, -⟩ := Block.taken_eq_ok.mp h
      exact (Bytes.split?_suffix hs).trans hafter
    · obtain ⟨content, hs, -⟩ := Block.taken_eq_ok.mp h
      exact (Bytes.split?_suffix hs).trans hafter
    · obtain ⟨content, hs, -⟩ := Block.taken_eq_ok.mp h
      exact (Bytes.split?_suffix hs).trans hafter
    · exact absurd h (by simp)

private theorem Chain.read_suffix (h : (Chain.read bytes).ending = .ok rest) : rest <:+ bytes := by
  fun_induction Chain.read bytes with
  | case1 bytes f hf => exact absurd h (by simp)
  | case2 bytes b after hb hl => exact Except.ok.inj h ▸ Block.read_suffix hb
  | case3 bytes b after hb hl chain ih => exact (ih h).trans (Block.read_suffix hb)

theorem afterFrame_suffix (h : afterFrame bytes = .ok rest) : rest <:+ bytes := by
  unfold afterFrame at h
  split at h
  · exact absurd h (by simp)
  · exact absurd h (by simp)
  · next hs =>
    unfold afterSkippable at h
    split at h
    · exact absurd h (by simp)
    · split at h
      · exact absurd h (by simp)
      · next hc =>
        rw [Except.ok.injEq] at h
        subst h
        exact (Bytes.split?_suffix hc).trans (Start.read_suffix hs)
  · next hs =>
    split at h
    · exact absurd h (by simp)
    · next he =>
      split at h
      · exact absurd h (by simp)
      · next hc =>
        rw [Except.ok.injEq] at h
        subst h
        exact ((Bytes.split?_suffix hc).trans (Chain.read_suffix he)).trans (Start.read_suffix hs)

end Suffix

def Block.Single (b : Block) : Prop := ∀ count, b.coding = .repeated count → b.content.length = 1

private theorem Block.read_single {bytes rest : Bytes} {b : Block}
    (h : Block.read bytes = .ok (b, rest)) :
    b.Single := by
  intro count hc
  match bytes, h with
  | x :: y :: z :: more, h =>
    simp only [Block.read] at h
    split at h
    · split at h
      · exact absurd h (by simp)
      · rw [Except.ok.injEq, Prod.mk.injEq] at h
        rw [← h.1] at hc
        exact absurd hc (by simp)
    · split at h
      · exact absurd h (by simp)
      · next hs =>
        rw [Except.ok.injEq, Prod.mk.injEq] at h
        rw [← h.1]
        exact (Bytes.split?_eq_some hs).2
    · split at h
      · exact absurd h (by simp)
      · rw [Except.ok.injEq, Prod.mk.injEq] at h
        rw [← h.1] at hc
        exact absurd hc (by simp)
    · exact absurd h (by simp)

theorem Chain.read_single (bytes : Bytes) : ∀ b ∈ (Chain.read bytes).blocks, b.Single := by
  fun_induction Chain.read bytes with
  | case1 bytes f hf => simp
  | case2 bytes b after hb hl =>
    intro b' hm
    rw [List.mem_singleton.mp hm]
    exact Block.read_single hb
  | case3 bytes b after hb hl chain ih =>
    intro b' hm
    rcases List.mem_cons.mp hm with rfl | hm
    · exact Block.read_single hb
    · exact ih b' hm

theorem afterChecksum_of_verify {h : Header} {content bytes rest : Bytes}
    (hv : verify h content bytes = .ok rest) :
    ∃ stored, afterChecksum h.checksum bytes = some (stored, rest) := by
  unfold verify at hv
  split at hv
  · exact absurd hv (by simp)
  · next stored after hc =>
    split at hv
    · exact absurd hv (by simp)
    · exact ⟨stored, by rw [hc, Except.ok.inj hv]⟩

theorem afterFrame_of_verify {bytes body tail rest content : Bytes} {h : Header}
    (hs : Start.read bytes = .ok (.data h, body)) (he : (Chain.read body).ending = .ok tail)
    (hv : verify h content tail = .ok rest) : afterFrame bytes = .ok rest := by
  obtain ⟨stored, hc⟩ := afterChecksum_of_verify hv
  unfold afterFrame
  rw [hs]
  dsimp only
  rw [he]
  dsimp only
  rw [hc]

theorem ne_nil_of_afterFrame {bytes rest : Bytes} (h : afterFrame bytes = .ok rest) :
    bytes ≠ [] := by
  rintro rfl
  exact absurd h (by simp [afterFrame, Start.read])

/-- What is ahead at the start of every frame, as the headers say where frames end; a frame whose
end is not found is the last. -/
def frameStarts (bytes : Bytes) : List Bytes :=
  if bytes.isEmpty then []
  else
    match _h : afterFrame bytes with
    | .error _ => [bytes]
    | .ok rest => bytes :: frameStarts rest
  termination_by bytes.length
  decreasing_by exact afterFrame_length_lt ‹_›

@[simp] theorem frameStarts_nil : frameStarts [] = [] := by
  rw [frameStarts]
  rfl

theorem frameStarts_of_afterFrame {bytes rest : Bytes} (h : afterFrame bytes = .ok rest) :
    frameStarts bytes = bytes :: frameStarts rest := by
  rw [frameStarts, if_neg (by simpa using ne_nil_of_afterFrame h)]
  split
  · next hf => exact absurd (hf.symm.trans h) (by simp)
  · next rest' hf => rw [Except.ok.inj (hf.symm.trans h)]

theorem mem_frameStarts {bytes : Bytes} (h : bytes ≠ []) : bytes ∈ frameStarts bytes := by
  rw [frameStarts, if_neg (by simpa using h)]
  split
  · exact List.mem_singleton_self bytes
  · exact List.mem_cons_self ..

theorem mem_frameStarts_of_afterFrame {bytes ahead rest : Bytes} (h : ahead ∈ frameStarts bytes)
    (ha : afterFrame ahead = .ok rest) (hne : rest ≠ []) : rest ∈ frameStarts bytes := by
  fun_induction frameStarts bytes with
  | case1 bytes hb => exact absurd h List.not_mem_nil
  | case2 bytes hb f hf =>
    rw [List.mem_singleton.mp h] at ha
    exact absurd (hf.symm.trans ha) (by simp)
  | case3 bytes hb after hf ih =>
    rcases List.mem_cons.mp h with rfl | h
    · obtain rfl := Except.ok.inj (hf.symm.trans ha)
      exact List.mem_cons_of_mem _ (mem_frameStarts hne)
    · exact List.mem_cons_of_mem _ (ih h)

theorem Start.read_data_magic {bytes rest : Bytes} {h : Header}
    (hr : Start.read bytes = .ok (.data h, rest)) :
    isSkippableMagic (leadingMagic bytes) = false := by
  obtain ⟨a, b, c, d, e, fields, rfl, hmagic, -⟩ := Start.eq_of_read_data hr
  change isSkippableMagic (Bytes.toNat [a, b, c, d]) = false
  rw [hmagic]
  decide

theorem Start.read_skippable_magic {bytes rest : Bytes} {length : Nat}
    (hr : Start.read bytes = .ok (.skippable length, rest)) :
    isSkippableMagic (leadingMagic bytes) = true := by
  match bytes, hr with
  | a :: b :: c :: d :: e :: after, hr =>
    simp only [Start.read] at hr
    split at hr
    · split at hr
      · exact absurd hr (by simp)
      · next fields later hs =>
        cases hf : (Descriptor.ofByte e).readFields fields with
        | error u => simp [hf, Except.map] at hr
        | ok header => simp [hf, Except.map] at hr
    · split at hr
      · next hm => exact hm
      · exact absurd hr (by simp)

theorem Start.holds_of_read {bytes rest : Bytes} {s : Start}
    (hr : Start.read bytes = .ok (s, rest)) :
    Bytes.holds smallestStart bytes = true := by
  match bytes, hr with
  | a :: b :: c :: d :: e :: after, _ => rfl

/-- Every frame has an end and a header that says its size or that this is unknown. -/
inductive Whole : Bytes → Prop
  | nil : Whole []
  | cons {bytes rest : Bytes} (after : afterFrame bytes = .ok rest)
      (valid : recordedSize bytes ≠ invalidSize) (more : Whole rest) : Whole bytes

/-- What frames record together, unless one of them says that its size is unknown. -/
def recordedTotal : List Bytes → Option Nat
  | [] => some 0
  | ahead :: rest =>
    if recordedSize ahead = unknownSize then none
    else (recordedTotal rest).map (recordedSize ahead + ·)

theorem recordedTotal_eq_none {starts : List Bytes} :
    recordedTotal starts = none ↔ ∃ ahead ∈ starts, recordedSize ahead = unknownSize := by
  induction starts with
  | nil => simp [recordedTotal]
  | cons ahead rest ih =>
    rw [recordedTotal]
    split
    · next hu => exact ⟨fun _ => ⟨ahead, List.mem_cons_self .., hu⟩, fun _ => rfl⟩
    · next hu =>
      rw [Option.map_eq_none_iff, ih]
      constructor
      · rintro ⟨a, ha, hr⟩
        exact ⟨a, List.mem_cons_of_mem ahead ha, hr⟩
      · rintro ⟨a, ha, hr⟩
        rcases List.mem_cons.mp ha with rfl | ha
        · exact absurd hr hu
        · exact ⟨a, ha, hr⟩

end NativeCodec.Zstd
