import NativeCodec.Proofs.Zstd.Contents

set_option autoImplicit false
set_option relaxedAutoImplicit false

namespace NativeCodec.Zstd

variable (reader : Reader)

/-- How a stream decoder takes a frame off the front, given its content and what follows it: it
passes over a skippable frame, decodes a frame at once whose recorded size fits the room, and goes
through the blocks of any other. There blocks of no bytes do nothing, and the recorded size counts
only if the last block has some. -/
inductive Taken (room : Nat) (bytes : Bytes) : Bytes → Bytes → Prop
  | skippable {length : Nat} {after skipped rest : Bytes}
      (start : Start.read bytes = .ok (.skippable length, after))
      (skip : Bytes.split? length after = some (skipped, rest)) : Taken room bytes [] rest
  | atOnce {h : Header} {body out tail rest : Bytes}
      (fits : decodesAtOnce h room bytes = true)
      (stands : Stands reader bytes h body out tail rest) : Taken room bytes out.reverse rest
  | blockwise {h : Header} {body out tail rest : Bytes}
      (start : Start.read bytes = .ok (.data h, body)) (large : decodesAtOnce h room bytes = false)
      (dictionary : h.dictionary = 0) (window : h.window ≤ streamWindowLimit)
      (blocks : play reader (filled (Chain.read body).blocks) reader.start [] = some out)
      (limited : Within reader h.blockLimit (filled (Chain.read body).blocks) reader.start)
      (ending : (Chain.read body).ending = .ok tail)
      (agrees : endsEmpty (Chain.read body).blocks = true ∨ h.agrees out.length = true)
      (verified : verify h out.reverse tail = .ok rest) : Taken room bytes out.reverse rest

/-- The faults of a frame that a stream decoder can pass over: the length of a skippable frame that
cannot be added to the header's in 32 bits, a compressed block of no bytes, and a recorded size
that is not the size of what the blocks stand for. -/
inductive Lax (bytes : Bytes) : Prop
  | skippable {length : Nat} {rest : Bytes}
      (start : Start.read bytes = .ok (.skippable length, rest))
      (long : 0x100000000 ≤ length + skippableHeader)
  | hollow {h : Header} {body : Bytes} {b : Block} (start : Start.read bytes = .ok (.data h, body))
      (block : b ∈ (Chain.read body).blocks) (compressed : b.coding = .compressed)
      (empty : b.isEmpty = true)
  | missized {h : Header} {body out : Bytes} (start : Start.read bytes = .ok (.data h, body))
      (blocks : play reader (Chain.read body).blocks reader.start [] = some out)
      (wrong : h.agrees out.length = false)

/-- The frames that a stream decoder with some room can take: skippable ones, those that record a
size which fits the room, and those whose window and blocks are no larger than its limits. -/
inductive Limited (room : Nat) (bytes : Bytes) : Prop
  | skippable {length : Nat} {rest : Bytes}
      (start : Start.read bytes = .ok (.skippable length, rest))
  | recorded {h : Header} {body : Bytes} {size : Nat}
      (start : Start.read bytes = .ok (.data h, body))
      (size_eq : h.contentSize = some size) (fits : size ≤ room)
  | blockwise {h : Header} {body : Bytes} (start : Start.read bytes = .ok (.data h, body))
      (window : h.window ≤ streamWindowLimit)
      (blocks : Within reader h.blockLimit (Chain.read body).blocks reader.start)

/-- The frames whose matches a stream decoder can follow: those that it decodes at once, and those
whose matches reach back no further than their window. -/
def Near (room : Nat) (bytes : Bytes) : Prop :=
  ∀ h body, Start.read bytes = .ok (.data h, body) → decodesAtOnce h room bytes = true ∨
    InWindow reader h.window (Chain.read body).blocks reader.start

/-- Taking frames off the front as a stream comes to the end of the last one. -/
inductive Drains (room : Nat) : Bytes → Prop
  | last {bytes content : Bytes} (taken : Taken reader room bytes content []) : Drains room bytes
  | more {bytes content rest : Bytes} (taken : Taken reader room bytes content rest)
      (more : Drains room rest) : Drains room bytes

variable {reader} {room : Nat} {bytes content rest : Bytes}

private theorem everyRecipe_filled {P : Block → Recipe → Prop} {blocks : List Block}
    {e : reader.State} (hP : ∀ b : Block, b.isEmpty = true → P b (.plain []))
    (hsingle : ∀ b ∈ blocks, b.Single)
    (hhollow : ∀ b ∈ blocks, b.coding = .compressed → b.isEmpty = false) :
    EveryRecipe reader P (filled blocks) e ↔ EveryRecipe reader P blocks e := by
  induction blocks generalizing e with
  | nil => exact Iff.rfl
  | cons b blocks ih =>
    have hmore := fun {e} => @ih e (fun c hc => hsingle c (List.mem_cons_of_mem b hc))
      (fun c hc => hhollow c (List.mem_cons_of_mem b hc))
    cases hempty : b.isEmpty with
    | true =>
      have hrecipe := @Block.recipe_of_isEmpty reader e b
        (hsingle b (List.mem_cons_self ..)) (hhollow b (List.mem_cons_self ..)) hempty
      rw [filled_of_isEmpty hempty, hmore, EveryRecipe]
      refine ⟨fun h e' r hr => ?_, fun h => (h e _ hrecipe).2⟩
      obtain ⟨rfl, rfl⟩ := Prod.mk.inj (Option.some.inj (hrecipe.symm.trans hr))
      exact ⟨hP b hempty, h⟩
    | false =>
      rw [filled_of_not_isEmpty hempty, EveryRecipe, EveryRecipe]
      exact forall_congr' fun e' => forall_congr' fun r => imp_congr_right fun _ =>
        and_congr_right fun _ => hmore

private theorem within_filled {limit : Nat} {blocks : List Block} {e : reader.State}
    (hsingle : ∀ b ∈ blocks, b.Single)
    (hhollow : ∀ b ∈ blocks, b.coding = .compressed → b.isEmpty = false) :
    Within reader limit (filled blocks) e ↔ Within reader limit blocks e := by
  refine everyRecipe_filled (fun b hempty => ?_) hsingle hhollow
  rw [List.isEmpty_iff.mp hempty]
  exact ⟨Nat.zero_le _, Nat.zero_le _⟩

theorem decodesAtOnce_eq_true {h : Header} : decodesAtOnce h room bytes = true ↔
    ∃ size rest, h.contentSize = some size ∧ size ≤ room ∧ afterFrame bytes = .ok rest := by
  unfold decodesAtOnce
  cases h.contentSize with
  | none => simp
  | some size =>
    cases afterFrame bytes with
    | error f => simp
    | ok rest => simp

private theorem Opens.not_lax (h : Opens reader bytes content rest) : ¬Lax reader bytes := by
  rintro (⟨start', long⟩ | ⟨start', block, compressed, empty⟩ | ⟨start', blocks, wrong⟩)
  · cases h with
    | skippable start skip =>
      obtain ⟨hstart, -⟩ := Prod.mk.inj (Except.ok.inj (start.symm.trans start'))
      obtain rfl := Start.skippable.inj hstart
      unfold afterSkippable at skip
      rw [if_pos long] at skip
      exact absurd skip (by simp)
    | data stands => exact absurd (stands.start.symm.trans start') (by simp)
  · cases h with
    | skippable start skip => exact absurd (start.symm.trans start') (by simp)
    | data stands =>
      obtain ⟨rfl, rfl⟩ := Start.read_data_unique stands.start start'
      exact absurd (isEmpty_of_play stands.blocks block compressed) (by simp [empty])
  · cases h with
    | skippable start skip => exact absurd (start.symm.trans start') (by simp)
    | data stands =>
      obtain ⟨rfl, rfl⟩ := Start.read_data_unique stands.start start'
      obtain rfl := Option.some.inj (blocks.symm.trans stands.blocks)
      exact absurd (stands.agrees.symm.trans wrong) (by simp)

private theorem Taken.opens_and_limited (ht : Taken reader room bytes content rest)
    (hl : ¬Lax reader bytes) : Opens reader bytes content rest ∧ Limited reader room bytes := by
  cases ht with
  | skippable start skip =>
    refine ⟨.skippable start ?_, .skippable start⟩
    unfold afterSkippable
    rw [if_neg (fun long => hl (.skippable start long)), skip]
  | atOnce fits stands =>
    obtain ⟨size, after, hsize, hfit, -⟩ := decodesAtOnce_eq_true.mp fits
    exact ⟨.data stands, .recorded stands.start hsize hfit⟩
  | @blockwise h body out tail rest start large dictionary window blocks limited ending agrees
      verified =>
    have hhollow : ∀ b ∈ (Chain.read body).blocks, b.coding = .compressed → b.isEmpty = false :=
      fun b hb hc => Bool.eq_false_iff.mpr fun hn => hl (.hollow start hb hc hn)
    have hplay := (play_filled (Chain.read_single body) hhollow).symm.trans blocks
    have hagrees : h.agrees out.length = true := by
      cases ha : h.agrees out.length with
      | true => rfl
      | false => exact absurd (.missized start hplay ha) hl
    exact ⟨.data ⟨start, dictionary, hplay, ending, hagrees, verified⟩,
      .blockwise start window ((within_filled (Chain.read_single body) hhollow).mp limited)⟩

private theorem Opens.taken (ho : Opens reader bytes content rest)
    (hl : Limited reader room bytes) :
    Taken reader room bytes content rest := by
  cases ho with
  | skippable start skip =>
    unfold afterSkippable at skip
    split at skip
    · exact absurd skip (by simp)
    · split at skip
      · exact absurd skip (by simp)
      · next hsplit =>
        obtain rfl := Except.ok.inj skip
        exact .skippable start hsplit
  | @data h body out tail rest stands =>
    have hafter := (Opens.data stands).afterFrame_eq
    rcases hl with ⟨start⟩ | ⟨start, hsize, hfit⟩ | ⟨start, window, limited⟩
    · exact absurd (stands.start.symm.trans start) (by simp)
    · obtain ⟨rfl, rfl⟩ := Start.read_data_unique stands.start start
      exact .atOnce (decodesAtOnce_eq_true.mpr ⟨_, _, hsize, hfit, hafter⟩) stands
    · obtain ⟨rfl, rfl⟩ := Start.read_data_unique stands.start start
      cases hfits : decodesAtOnce h room bytes with
      | true => exact .atOnce hfits stands
      | false =>
        have hhollow := fun b (hb : b ∈ (Chain.read body).blocks) =>
          isEmpty_of_play stands.blocks hb
        exact .blockwise stands.start hfits stands.dictionary window
          ((play_filled (Chain.read_single body) hhollow).trans stands.blocks)
          ((within_filled (Chain.read_single body) hhollow).mpr limited) stands.ending
          (Or.inr stands.agrees) stands.verified

theorem Taken.ne_nil (h : Taken reader room bytes content rest) : bytes ≠ [] := by
  have hread : Start.read [] = .error .incomplete := rfl
  rintro rfl
  cases h with
  | skippable start skip => exact absurd (hread.symm.trans start) (by simp)
  | atOnce fits stands => exact absurd (hread.symm.trans stands.start) (by simp)
  | blockwise start => exact absurd (hread.symm.trans start) (by simp)

theorem Taken.afterFrame_eq (ht : Taken reader room bytes content rest)
    (hl : ¬Lax reader bytes) : afterFrame bytes = .ok rest :=
  (ht.opens_and_limited hl).1.afterFrame_eq

theorem Taken.drains_iff (ht : Taken reader room bytes content rest) (hl : ¬Lax reader bytes)
    (hne : rest ≠ []) : Drains reader room bytes ↔ Drains reader room rest := by
  constructor
  · intro h
    cases h with
    | last taken =>
      exact absurd (Except.ok.inj ((ht.afterFrame_eq hl).symm.trans (taken.afterFrame_eq hl))) hne
    | more taken more =>
      rwa [Except.ok.inj ((ht.afterFrame_eq hl).symm.trans (taken.afterFrame_eq hl))]
  · exact .more ht

theorem not_drains (h : ∀ content rest, ¬Taken reader room bytes content rest) :
    ¬Drains reader room bytes := by
  rintro (taken | ⟨taken, -⟩)
  · exact h _ _ taken
  · exact h _ _ taken

theorem Consists.not_lax {contents : List Bytes} (h : Consists reader bytes contents) :
    ∀ ahead ∈ frameStarts bytes, ¬Lax reader ahead := by
  induction h with
  | nil => rw [frameStarts_nil]; exact fun _ h => absurd h List.not_mem_nil
  | cons first more ih =>
    rw [frameStarts_of_afterFrame first.afterFrame_eq]
    exact List.forall_mem_cons.mpr ⟨first.not_lax, ih⟩

private theorem consists_of_drains (h : Drains reader room bytes)
    (hl : ∀ ahead ∈ frameStarts bytes, ¬Lax reader ahead) :
    bytes ≠ [] ∧ (∃ contents, Consists reader bytes contents) ∧
      ∀ ahead ∈ frameStarts bytes, Limited reader room ahead := by
  induction h with
  | last taken =>
    obtain ⟨hopens, hlimited⟩ := taken.opens_and_limited (hl _ (mem_frameStarts taken.ne_nil))
    rw [frameStarts_of_afterFrame hopens.afterFrame_eq, frameStarts_nil]
    exact ⟨taken.ne_nil, ⟨_, .cons hopens .nil⟩, List.forall_mem_singleton.mpr hlimited⟩
  | more taken _ ih =>
    obtain ⟨hopens, hlimited⟩ := taken.opens_and_limited (hl _ (mem_frameStarts taken.ne_nil))
    rw [frameStarts_of_afterFrame hopens.afterFrame_eq] at hl ⊢
    obtain ⟨-, ⟨contents, hmore⟩, hlimits⟩ :=
      ih fun ahead ha => hl ahead (List.mem_cons_of_mem _ ha)
    exact ⟨taken.ne_nil, ⟨_, .cons hopens hmore⟩, List.forall_mem_cons.mpr ⟨hlimited, hlimits⟩⟩

private theorem Consists.drains {contents : List Bytes} (h : Consists reader bytes contents)
    (hb : bytes ≠ []) (hl : ∀ ahead ∈ frameStarts bytes, Limited reader room ahead) :
    Drains reader room bytes := by
  induction h with
  | nil => exact absurd rfl hb
  | @cons bytes content rest contents first more ih =>
    rw [frameStarts_of_afterFrame first.afterFrame_eq] at hl
    obtain ⟨hfirst, hmore⟩ := List.forall_mem_cons.mp hl
    by_cases hend : rest = []
    · exact .last (hend ▸ first.taken hfirst)
    · exact .more (first.taken hfirst) (ih hend hmore)

/-- Apart from the faults that it passes over and the limits that it has, a stream decoder comes to
the end of inputs that decode. -/
theorem drains_iff (hl : ∀ ahead ∈ frameStarts bytes, ¬Lax reader ahead) :
    Drains reader room bytes ↔ bytes ≠ [] ∧ (∃ contents, Consists reader bytes contents) ∧
      ∀ ahead ∈ frameStarts bytes, Limited reader room ahead :=
  ⟨fun h => consists_of_drains h hl, fun ⟨hb, ⟨_, hc⟩, hlimits⟩ => hc.drains hb hlimits⟩

end NativeCodec.Zstd
