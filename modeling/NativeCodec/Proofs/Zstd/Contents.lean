import NativeCodec.Proofs.Zstd.Recipes

set_option autoImplicit false
set_option relaxedAutoImplicit false

namespace NativeCodec.Zstd

variable (reader : Reader)

/-- The parts of a data frame whose blocks stand for some bytes, here the newest first. -/
structure Stands (bytes : Bytes) (h : Header) (body out tail rest : Bytes) : Prop where
  start : Start.read bytes = .ok (.data h, body)
  dictionary : h.dictionary = 0
  blocks : play reader (Chain.read body).blocks reader.start [] = some out
  ending : (Chain.read body).ending = .ok tail
  agrees : h.agrees out.length = true
  verified : verify h out.reverse tail = .ok rest

/-- How some bytes start with a frame, given its content and what follows it: with a skippable
frame, which stands for nothing, or with a data frame. -/
inductive Opens (bytes : Bytes) : Bytes → Bytes → Prop
  | skippable {length : Nat} {after rest : Bytes}
      (start : Start.read bytes = .ok (.skippable length, after))
      (skip : afterSkippable length after = .ok rest) : Opens bytes [] rest
  | data {h : Header} {body out tail rest : Bytes}
      (stands : Stands reader bytes h body out tail rest) : Opens bytes out.reverse rest

inductive Consists : Bytes → List Bytes → Prop
  | nil : Consists [] []
  | cons {bytes content rest : Bytes} {contents : List Bytes}
      (first : Opens reader bytes content rest) (more : Consists rest contents) :
      Consists bytes (content :: contents)

variable {reader} {bytes content rest : Bytes} {contents : List Bytes}

theorem Header.agrees_eq_true {h : Header} {size : Nat} :
    h.agrees size = true ↔ ∀ recorded, h.contentSize = some recorded → recorded = size := by
  unfold agrees
  split
  · next hn => simp [hn]
  · next recorded hs => simp [hs]

theorem Start.read_data_unique {h h' : Header} {body body' : Bytes}
    (hs : Start.read bytes = .ok (.data h, body)) (hs' : Start.read bytes = .ok (.data h', body')) :
    h = h' ∧ body = body' := by
  obtain ⟨hstart, hbody⟩ := Prod.mk.inj (Except.ok.inj (hs.symm.trans hs'))
  exact ⟨Start.data.inj hstart, hbody⟩

theorem Stands.append {h : Header} {body out tail : Bytes}
    (hs : Stands reader bytes h body out tail rest) (more : Bytes) :
    Stands reader (bytes ++ more) h (body ++ more) out (tail ++ more) (rest ++ more) where
  start := Start.read_append more hs.start
  dictionary := hs.dictionary
  blocks := by rw [Chain.read_append more hs.ending]; exact hs.blocks
  ending := by rw [Chain.read_append more hs.ending]
  agrees := hs.agrees
  verified := verify_append more hs.verified

namespace Opens

theorem afterFrame_eq (h : Opens reader bytes content rest) : afterFrame bytes = .ok rest := by
  cases h with
  | skippable start skip =>
    unfold afterFrame
    rw [start]
    exact skip
  | data stands => exact afterFrame_of_verify stands.start stands.ending stands.verified

private theorem unique {content' rest' : Bytes} (h : Opens reader bytes content rest)
    (h' : Opens reader bytes content' rest') : content = content' ∧ rest = rest' := by
  refine ⟨?_, Except.ok.inj (h.afterFrame_eq.symm.trans h'.afterFrame_eq)⟩
  cases h with
  | skippable start skip =>
    cases h' with
    | skippable start' skip' => rfl
    | data stands' => exact absurd (start.symm.trans stands'.start) (by simp)
  | data stands =>
    cases h' with
    | skippable start' skip' => exact absurd (stands.start.symm.trans start') (by simp)
    | data stands' =>
      obtain ⟨-, rfl⟩ := Start.read_data_unique stands.start stands'.start
      rw [Option.some.inj (stands.blocks.symm.trans stands'.blocks)]

private theorem recordedSize_eq (h : Opens reader bytes content rest) :
    recordedSize bytes = unknownSize ∨ recordedSize bytes = content.length := by
  unfold recordedSize
  cases h with
  | skippable start skip =>
    rw [start]
    exact Or.inr rfl
  | @data h body out tail rest stands =>
    rw [stands.start]
    dsimp only
    cases hsize : h.contentSize with
    | none => exact Or.inl rfl
    | some size =>
      right
      rw [List.length_reverse]
      exact Header.agrees_eq_true.mp stands.agrees size hsize

end Opens

namespace Consists

theorem unique {contents' : List Bytes} (h : Consists reader bytes contents)
    (h' : Consists reader bytes contents') : contents = contents' := by
  induction h generalizing contents' with
  | nil =>
    cases h' with
    | nil => rfl
    | cons first more => exact absurd (afterFrame_length_lt first.afterFrame_eq) (Nat.not_lt_zero _)
  | cons first more ih =>
    cases h' with
    | nil => exact absurd (afterFrame_length_lt first.afterFrame_eq) (Nat.not_lt_zero _)
    | cons first' more' =>
      obtain ⟨rfl, rfl⟩ := first.unique first'
      rw [ih more']

/-- Frames are whole, and record together what they stand for unless one of them says that its size
is unknown. -/
theorem recorded (h : Consists reader bytes contents)
    (hs : contents.flatten.length < invalidSize) :
    Whole bytes ∧ ∀ total, recordedTotal (frameStarts bytes) = some total →
      total = contents.flatten.length := by
  induction h with
  | nil =>
    refine ⟨.nil, fun total ht => ?_⟩
    rw [frameStarts_nil] at ht
    exact (Option.some.inj ht).symm
  | @cons bytes content rest contents first more ih =>
    have hafter := first.afterFrame_eq
    have hrecorded := first.recordedSize_eq
    rw [List.flatten_cons, List.length_append] at hs ⊢
    obtain ⟨hwhole, htotal⟩ := ih (by omega)
    refine ⟨.cons hafter ?_ hwhole, fun total ht => ?_⟩
    · rcases hrecorded with hr | hr
      · rw [hr]
        decide
      · omega
    · rw [frameStarts_of_afterFrame hafter, recordedTotal] at ht
      split at ht
      · exact absurd ht (by simp)
      · next hu =>
        obtain ⟨total', ht', rfl⟩ := Option.map_eq_some_iff.mp ht
        rw [htotal total' ht', hrecorded.resolve_left hu]

end Consists

end NativeCodec.Zstd
