import NativeCodec.Proofs.Lz4.Numbers
import NativeCodec.Proofs.Status.Kinds

/-!
Destinations that are large enough.

LZ4 says how much room any compression of a length takes. A destination with that room is never
complained of, whatever the compressor replies, and a smaller one always is where the reply is no
success (`bound_suffices`). What is compared is a capacity that was cut to a number that the library
takes; but what the library asks for is such a number itself (`cut_lt_compressBound_iff`).
-/

set_option autoImplicit false
set_option relaxedAutoImplicit false

namespace NativeCodec

/-- A value of some kind, or an error that is not about the room of a destination. -/
def Ample {α : Type} (R : α → Prop) : Except Error α → Prop
  | .ok a => R a
  | .error e => e.kind ≠ .bufferTooSmall

private theorem Range.ample_count? (r : Range) : Ample (· = r.length) r.count? := by
  unfold Range.count?
  split
  · rfl
  · exact nofun

private theorem Argument.ample_source? (m : Memory) (a : Argument) :
    Ample (fun _ => True) (a.source? m) := by
  cases h : a.source? m with
  | ok r => trivial
  | error e =>
    change e.kind ≠ .bufferTooSmall
    rw [(range?_of_source_error h).1]
    decide

namespace Native.Op

variable {σ α β : Type}

/-- From the worlds of some kind, an operation comes to a value and a world of another kind, or to
an error that is not about the room of a destination. -/
def Roomy (P : World σ → Prop) (x : Op σ α) (R : α → World σ → Prop) : Prop :=
  Spec P x fun o w => Ample (fun a => R a w) o

variable {P : World σ → Prop} {R : α → World σ → Prop} {Q : β → World σ → Prop} {x : Op σ α}

private theorem Roomy.bind {f : α → Op σ β} (hx : Roomy P x R) (hf : ∀ a, Roomy (R a) (f a) Q) :
    Roomy P (x >>= f) Q :=
  Spec.bind hx hf fun _ _ h => h

private theorem Roomy.mono {R' : α → World σ → Prop} (hx : Roomy P x R)
    (h : ∀ a w, R a w → R' a w) :
    Roomy P x R' := by
  refine Spec.mono hx (fun _ => id) fun o w ho => ?_
  cases o with
  | error e => exact ho
  | ok a => exact h a w ho

private theorem Roomy.pure {a : α} (h : ∀ w, P w → R a w) : Roomy P (Pure.pure a : Op σ α) R := h

private theorem Roomy.throw_bind {e : Error} (h : e.kind ≠ .bufferTooSmall) (f : α → Op σ β) :
    Roomy P ((MonadExcept.throw e : Op σ α) >>= f) Q := by
  intro w _
  rw [run_bind_error (run_throw e w)]
  exact h

private theorem Roomy.ite {c : Prop} [Decidable c] {y : Op σ α} (hx : c → Roomy P x R)
    (hy : ¬c → Roomy P y R) : Roomy P (if c then x else y) R := by
  split
  · next h => exact hx h
  · next h => exact hy h

private theorem Roomy.ofExcept {o : Except Error α} {S : α → Prop} (h : Ample S o) :
    Roomy P (Op.ofExcept o) fun a w => S a ∧ o = .ok a ∧ P w := by
  intro w hw
  rw [run_ofExcept]
  cases o with
  | error e => exact h
  | ok a => exact ⟨h, rfl, hw⟩

private theorem Roomy.with_memory {m : Memory} (hx : Roomy P x R) (hq : Quiet x) :
    Roomy (fun w => P w ∧ w.memory = m) x fun a w => R a w ∧ w.memory = m := by
  rintro w ⟨hw, hm⟩
  have hample := hx w hw
  have hmemory := (hq w).memory_eq.trans hm
  cases hrun : (x.run w).1 with
  | error e =>
    rw [hrun] at hample
    exact hample
  | ok a =>
    rw [hrun] at hample
    exact ⟨hample, hmemory⟩

private theorem roomy_input (input : Argument) :
    Roomy P (Op.input input) fun src w => input.source? w.memory = .ok src ∧ P w := by
  intro w hw
  rw [run_input]
  have hample := input.ample_source? w.memory
  cases hs : input.source? w.memory with
  | error e =>
    rw [hs] at hample
    exact hample
  | ok src => exact ⟨hs, hw⟩

end Native.Op

namespace Codec.Lz4

open Native NativeCodec.Lz4

variable {σ : Type}

/-- What is documented of the LZ4 library for the room that compression takes: it tells the bound
of every length that the compressor takes; and the errors of a call that it refuses, and of a
library that cannot be bound, are not about the room of a destination. -/
structure Bounding (L : Libraries σ) : Prop where
  bound : ∀ n ≤ maxInputSize, ∀ s, ∃ s',
    L.answer (.lz4Bound n) s = (.ok (compressBound n : Int), s')
  refused : ∀ c e s s', L.answer c s = (.error e, s') → e.kind.isA .package = false
  unbound : ∀ e s, (L.bind .lz4 s).1.outcome = .error e → e.OfBinding

def setApart (sized : Bool) : Nat := if sized then sizeWidth else 0

/-- What a result of the compressor comes to, where so much room is had and so much is asked for. -/
structure Answers (room most apart : Nat) (result : Int) (outcome : Except Error Int) : Prop where
  written : 0 < result → outcome = .ok (result + apart)
  failed : result ≤ 0 → most ≤ room → Raises outcome (Error.IsNative result)
  short : result ≤ 0 → room < most → Raises outcome (·.kind = .bufferTooSmall)

private theorem Answers.ample {room most apart : Nat} {result : Int} {outcome : Except Error Int}
    (h : Answers room most apart result outcome) (hroom : most ≤ room) :
    Ample (fun _ => True) outcome := by
  rcases Int.lt_or_le 0 result with hpos | hneg
  · rw [h.written hpos]
    trivial
  · obtain ⟨e, rfl, hkind, -⟩ := h.failed hneg hroom
    change e.kind ≠ _
    rw [hkind]
    decide

/-- A capacity that is cut to a number that the library takes is large enough exactly if all of the
room is. -/
theorem cut_lt_compressBound_iff {room n : Nat} (hn : n ≤ maxInputSize) :
    ((min room intMax : Nat) : Int) < (compressBound n : Int) ↔ room < compressBound n := by
  have hbound := compressBound_le hn
  omega

section Replied

variable {L : Libraries σ} {w : World σ} {c : Compressor} {src dst : Range}

private theorem run_bound_bounding (hL : Bounding L) (hw : w.Bound .lz4) {n : Nat}
    (hn : n ≤ maxInputSize) :
    ∃ w', (bound L n).run w = (.ok (compressBound n : Int), w') := by
  obtain ⟨k, hk⟩ := hw
  obtain ⟨s, hs⟩ := hL.bound n hn w.libraries
  obtain ⟨w', hrun, -⟩ := run_bound_of_bind hn (Op.run_bind_settled (L := L) hk) hs
  exact ⟨w', hrun⟩

section Reply

variable (hn : src.length ≤ maxInputSize) {reply : Written Int} {s : σ}
  (hreply : L.answer (c.call w.memory src dst) w.libraries = (.ok reply, s))

include hn hreply

private theorem answers_compressRange (hL : Bounding L) (hw : w.Bound .lz4) :
    Answers dst.length (compressBound src.length) 0 reply.result
      ((compressRange L c src dst).run w).1 := by
  have hrefused (hneg : reply.result ≤ 0) : ((compressRange L c src dst).run w).1 =
      if dst.length < compressBound src.length then
        .error (.compressionRoom (min dst.length intMax) src.length)
      else .error (.failed "compression" reply.result) := by
    rw [run_compressRange_replied hn hreply]
    unfold settle
    obtain ⟨w', hbound⟩ := run_bound_bounding (w := stored w (c.call w.memory src dst) src dst
      reply s (reply.bytes.take (min dst.length intMax))) hL hw hn
    rw [if_neg (Int.not_lt.mpr hneg), Op.run_bind_ok hbound]
    by_cases hroom : dst.length < compressBound src.length
    · rw [if_pos hroom, if_pos ((cut_lt_compressBound_iff hn).mpr hroom),
        Op.run_bind_error (Op.run_throw _ _)]
    · rw [if_neg hroom, if_neg fun h => hroom ((cut_lt_compressBound_iff hn).mp h)]
      rfl
  constructor
  · intro hpos
    rw [run_compressRange_written hn hreply hpos, Int.natCast_zero, Int.add_zero]
  · intro hneg hroom
    rw [hrefused hneg, if_neg (Nat.not_lt.mpr hroom)]
    exact ⟨_, rfl, rfl, rfl⟩
  · intro hneg hroom
    rw [hrefused hneg, if_pos hroom]
    exact ⟨_, rfl, rfl⟩

end Reply

private theorem roomy_compressRange (hL : Bounding L)
    (hroom : compressBound src.length ≤ dst.length) :
    Op.Roomy (World.Bound .lz4) (compressRange L c src dst)
      fun _ _ => src.length ≤ maxInputSize := by
  intro w hw
  by_cases hn : src.length ≤ maxInputSize
  · rcases hreply : L.answer (c.call w.memory src dst) w.libraries with ⟨e | reply, s⟩
    · rw [run_compressRange_refused hn hreply]
      intro hkind
      have hpackage := hL.refused _ e _ s hreply
      rw [hkind] at hpackage
      exact absurd hpackage (by decide)
    · have hample := (answers_compressRange hn hreply hL hw).ample hroom
      cases hrun : ((compressRange L c src dst).run w).1 with
      | error e =>
        rw [hrun] at hample
        exact hample
      | ok n => exact hn
  · rw [run_compressRange_long (Nat.not_le.mp hn)]
    exact nofun

end Replied

section Blocks

variable {L : Libraries σ} {w w₁ : World σ} {c : Compressor} {src dst : Range} {given : Option Int}

/-- What binding the LZ4 library has come to is a success or an error of binding. -/
def AccountsLz4 (w : World σ) : Prop :=
  ∀ e, (w.bindings .lz4).settled = some (.error e) → e.OfBinding

private theorem accountsLz4_of_bound (hw : w.Bound .lz4) : AccountsLz4 w := by
  obtain ⟨k, hk⟩ := hw
  intro e he
  exact absurd (hk.symm.trans he) (by simp)

private theorem bound_of_bind {k : Constants} (h : (Op.bind L .lz4).run w = (.ok k, w₁)) :
    w₁.Bound .lz4 := by
  cases hs : (w.bindings .lz4).settled with
  | some outcome =>
    rw [Op.run_bind_settled hs] at h
    obtain ⟨houtcome, rfl⟩ := Prod.mk.inj h
    cases outcome with
    | error e => exact absurd houtcome (by simp [Once.Answer.again])
    | ok known => exact ⟨known, hs⟩
  | none =>
    rw [Op.run_bind_first hs] at h
    obtain ⟨houtcome, rfl⟩ := Prod.mk.inj h
    refine ⟨k, ?_⟩
    simp [Once.keep, hs, houtcome, Outcome.isSettled]

private theorem roomy_bind (hL : Bounding L) :
    Op.Roomy AccountsLz4 (Op.bind L .lz4) fun _ => World.Bound .lz4 := by
  intro w hw
  rcases hrun : (Op.bind L .lz4).run w with ⟨e | k, w₁⟩
  · change e.kind ≠ _
    cases hs : (w.bindings .lz4).settled with
    | some outcome =>
      rw [Op.run_bind_settled hs] at hrun
      have houtcome := congrArg Prod.fst hrun
      cases outcome with
      | ok known => exact absurd houtcome (by simp [Once.Answer.again])
      | error e' =>
        rw [← Except.error.inj houtcome]
        exact (hw e' hs).kind_ne rfl nofun nofun
    | none =>
      rw [Op.run_bind_first hs] at hrun
      exact (hL.unbound e w.libraries (congrArg Prod.fst hrun)).kind_ne rfl nofun nofun
  · exact bound_of_bind hrun

private theorem bind_of_create {acceleration : Int}
    (hc : (create L acceleration).run w = (.ok c, w₁)) :
    ∃ k, (Op.bind L .lz4).run w = (.ok k, w₁) := by
  unfold create at hc
  rw [Op.run_ite] at hc
  split at hc
  · rw [Op.run_bind_error (Op.run_throw _ _)] at hc
    exact absurd hc (by simp)
  · rcases hrun : (Op.bind L .lz4).run w with ⟨e | k, w'⟩
    · rw [Op.run_bind_error hrun] at hc
      exact absurd hc (by simp)
    · rw [Op.run_bind_ok hrun] at hc
      exact ⟨k, by rw [← (Prod.mk.inj hc).2]⟩

private theorem bound_of_create {acceleration : Int}
    (hc : (create L acceleration).run w = (.ok c, w₁)) :
    w₁.Bound .lz4 := by
  obtain ⟨k, hk⟩ := bind_of_create hc
  exact bound_of_bind hk

private theorem fst_bind_error {α β : Type} {x : Op σ α} {e : Error} (h : (x.run w).1 = .error e)
    (f : α → Op σ β) : ((x >>= f).run w).1 = .error e := by
  rcases hrun : x.run w with ⟨e' | a, w'⟩
  · rw [hrun] at h
    rw [Op.run_bind_error hrun]
    exact congrArg Except.error (Except.error.inj h)
  · rw [hrun] at h
    exact absurd h (by simp)

private theorem answers_compressBlockRange (hL : Bounding L)
    (hc : (create L (given.getD usualAcceleration)).run w = (.ok c, w₁))
    (hn : src.length ≤ maxInputSize) {sized : Bool}
    (hcount : dst.length < countLimit ∨ sized = false)
    (hwidth : setApart sized ≤ dst.length) {reply : Written Int} {s : σ}
    (hreply : L.answer (c.call w₁.memory src (behindSize sized dst)) w₁.libraries =
      (.ok reply, s)) :
    Answers dst.length (packBound sized src.length) (setApart sized) reply.result
      ((compressBlockRange L src dst given sized).run w).1 := by
  have hw₁ := bound_of_create hc
  have hanswers := answers_compressRange hn hreply hL hw₁
  cases sized with
  | false =>
    unfold compressBlockRange
    rw [Op.run_bind_ok hc, if_pos rfl]
    exact hanswers
  | true =>
    have hcount : dst.length < countLimit := hcount.resolve_right (by decide)
    have hlength : (behindSize true dst).length = dst.length - sizeWidth := rfl
    have hmost : packBound true src.length = compressBound src.length + sizeWidth := rfl
    change sizeWidth ≤ dst.length at hwidth
    rw [run_compressBlockRange_behind hc hcount hwidth]
    constructor
    · intro hpos
      rw [Op.run_bind_ok (run_compressRange_written hn hreply hpos),
        Op.run_ofExcept_bind (sizeHeader_of_le hn)]
      rfl
    · intro hneg hroom
      obtain ⟨e, he, hnative⟩ := hanswers.failed hneg (by omega)
      exact ⟨e, fst_bind_error he _, hnative⟩
    · intro hneg hroom
      obtain ⟨e, he, hkind⟩ := hanswers.short hneg (by omega)
      exact ⟨e, fst_bind_error he _, hkind⟩

private theorem roomy_create (hL : Bounding L) (acceleration : Int) :
    Op.Roomy AccountsLz4 (create L acceleration) fun _ => World.Bound .lz4 := by
  unfold create
  refine Op.Roomy.ite (fun _ => Op.Roomy.throw_bind (by simp [Error.kind]) _) fun _ => ?_
  exact Op.Roomy.bind (roomy_bind hL) fun k => Op.Roomy.pure fun _ hw => hw

private theorem roomy_bound (hL : Bounding L) (n : Nat) :
    Op.Roomy AccountsLz4 (bound L n) fun most w =>
      n ≤ maxInputSize ∧ most = compressBound n ∧ w.Bound .lz4 := by
  intro w hw
  by_cases hn : n ≤ maxInputSize
  · have hbinding := roomy_bind hL w hw
    rcases hbind : (Op.bind L .lz4).run w with ⟨e | k, w₁⟩
    · have hrun : (bound L n).run w = (.error e, w₁) :=
        (Op.run_ofExcept_bind (checkInput_of_le hn) _ w).trans (Op.run_bind_error hbind _)
      rw [hbind] at hbinding
      rw [hrun]
      exact hbinding
    · obtain ⟨s, hs⟩ := hL.bound n hn w₁.libraries
      obtain ⟨w', hrun, hbindings, -⟩ := run_bound_of_bind hn hbind hs
      obtain ⟨k', hk'⟩ := bound_of_bind hbind
      rw [hrun]
      exact ⟨hn, rfl, k', by rw [hbindings]; exact hk'⟩
  · rw [run_bound_long (Nat.not_le.mp hn)]
    exact nofun

private theorem roomy_compressBlockRange (hL : Bounding L) {sized : Bool}
    (hroom : packBound sized src.length ≤ dst.length) :
    Op.Roomy AccountsLz4 (compressBlockRange L src dst given sized) fun _ _ => True := by
  unfold compressBlockRange
  refine Op.Roomy.bind (roomy_create hL _) fun c => ?_
  cases sized with
  | false =>
    rw [if_pos rfl]
    exact (roomy_compressRange hL hroom).mono fun _ _ _ => trivial
  | true =>
    have hroom : compressBound src.length + sizeWidth ≤ dst.length := hroom
    rw [if_neg (by decide)]
    refine Op.Roomy.bind (Op.Roomy.ofExcept dst.ample_count?) fun room => ?_
    refine Op.Roomy.ite (fun hnarrow => ?_) fun _ => ?_
    · rintro w ⟨rfl, -⟩
      omega
    have hslice : Ample (compressBound src.length ≤ ·.length) (dst.slice? sizeWidth none) := by
      rw [slice?_behindSize (by omega)]
      change _ ≤ dst.length - sizeWidth
      omega
    refine Op.Roomy.bind (Op.Roomy.ofExcept hslice) fun body => ?_
    refine Op.Roomy.bind (R := fun _ _ => True) ?_ fun n => ?_
    · rintro w ⟨hbody, -, -, -, hw⟩
      exact (roomy_compressRange hL hbody).mono (fun _ _ _ => trivial) w hw
    have hheader : Ample (fun _ => True) (sizeHeader src.length) := by
      unfold sizeHeader
      split
      · trivial
      · exact nofun
    refine Op.Roomy.bind (Op.Roomy.ofExcept hheader) fun header => ?_
    exact fun _ _ => trivial

variable {m : Memory} {input output : Argument}

private theorem roomy_blockBound (hL : Bounding L) (input : Argument) (sized : Bool) :
    Op.Roomy (fun w => AccountsLz4 w ∧ w.memory = m) (blockBound L input sized) fun most w =>
      (∃ src, input.source? m = .ok src ∧ src.length ≤ maxInputSize ∧
        most = packBound sized src.length) ∧ w.Bound .lz4 ∧ w.memory = m := by
  unfold blockBound
  refine Op.Roomy.bind (Op.roomy_input input) fun src => ?_
  refine Op.Roomy.bind (Op.Roomy.ofExcept src.ample_count?) fun n => ?_
  refine Op.Roomy.bind (R := fun (most : Int) w =>
    (input.source? m = .ok src ∧ src.length ≤ maxInputSize ∧ most = compressBound src.length) ∧
      w.Bound .lz4 ∧ w.memory = m) ?_ fun most => ?_
  · rintro w ⟨rfl, -, hsource, hw, hm⟩
    have hbound := (roomy_bound hL src.length).with_memory (quiet_bound _) w ⟨hw, hm⟩
    rw [hm] at hsource
    cases hrun : ((bound L src.length).run w).1 with
    | error e =>
      rw [hrun] at hbound
      exact hbound
    | ok most =>
      rw [hrun] at hbound
      obtain ⟨⟨hn, hmost, hw'⟩, hm'⟩ := hbound
      exact ⟨⟨hsource, hn, hmost⟩, hw', hm'⟩
  · rintro w ⟨⟨hsource, hn, rfl⟩, hw⟩
    refine ⟨⟨src, hsource, hn, ?_⟩, hw⟩
    unfold packBound
    cases sized with
    | false => rfl
    | true => rfl

private theorem ample_compressBlock (hL : Bounding L) (hw : AccountsLz4 w)
    (hin : input.Within w.memory)
    (given : Option Int) (sized : Bool) :
    Ample (fun _ => True) ((compressBlock L input given sized).run w).1 := by
  have hroomy : Op.Roomy (fun v => AccountsLz4 v ∧ v.memory = w.memory)
      (compressBlock L input given sized) fun _ _ => True := by
    unfold compressBlock
    refine Op.Roomy.bind (roomy_blockBound hL input sized) fun most => ?_
    rintro w₁ ⟨⟨src, hsource, hn, rfl⟩, hw₁, hm⟩
    rcases hsize : w₁.memory.checkSize (packBound sized src.length) with e | count
    · rw [Op.run_bind_error (Op.run_scratch_error hsize)]
      rcases Memory.checkSize_eq_error hsize with ⟨rfl, -⟩ | ⟨rfl, -⟩ <;> exact nofun
    have hinput := Op.run_input
      { w₁ with memory := (w₁.memory.add (.fresh (packBound sized src.length))).2 } input
    dsimp only at hinput
    rw [Argument.source?_add (hm.symm ▸ hin), hm, hsource, ← hm] at hinput
    rw [Op.run_bind_ok (Op.run_scratch (Memory.checkSize_eq_ok hsize).2), Op.run_bind_ok hinput]
    have hroom : packBound sized src.length ≤
        (Op.scratchRange w₁.memory (packBound sized src.length)).length := Nat.le_refl _
    refine (?_ : Op.Roomy AccountsLz4 _ fun _ _ => True) _ (accountsLz4_of_bound hw₁)
    exact Op.Roomy.bind (roomy_compressBlockRange hL hroom) fun n _ _ => trivial
  exact hroomy w ⟨hw, rfl⟩

end Blocks

section Sufficing

variable {L : Libraries σ} {w : World σ}

/-- A destination with the room that is asked for is large enough, from a world on: what the
library replies is returned if it is positive, and is a failure of the library otherwise; in a
smaller destination it is a complaint of the room. With a size in front its bytes are asked for and
returned in addition, and a destination that has no room for them is complained of without a call;
one whose length is too large for a count is refused for that. What makes the destination itself
never complains of it. -/
structure Sufficing (L : Libraries σ) (w : World σ) : Prop where
  created : ∀ {acceleration c w₁}, (create L acceleration).run w = (.ok c, w₁) → w₁.Bound .lz4
  advertised : ∀ {n : Nat}, n ≤ maxInputSize → w.Bound .lz4 →
    ((bound L n).run w).1 = .ok (compressBound n : Int)
  advertisedBlock : ∀ {input src}, input.source? w.memory = .ok src → src.length ≤ maxInputSize →
    w.Bound .lz4 → ∀ sized,
      ((blockBound L input sized).run w).1 = .ok (packBound sized src.length : Int)
  compress : ∀ {input output src dst}, input.source? w.memory = .ok src →
    output.destination? w.memory = .ok dst → src.length ≤ maxInputSize → w.Bound .lz4 →
    ∀ c : Compressor,
      (∀ (reply : Written Int) s, L.answer (c.call w.memory src dst) w.libraries = (.ok reply, s) →
        Answers dst.length (compressBound src.length) 0 reply.result
          ((compress L c input output).run w).1) ∧
      (compressBound src.length ≤ dst.length →
        Ample (fun _ => True) ((compress L c input output).run w).1)
  compressBlockInto : ∀ {input output src dst}, input.source? w.memory = .ok src →
    output.destination? w.memory = .ok dst → src.length ≤ maxInputSize →
    ∀ (given : Option Int) (sized : Bool),
      (∀ {c w₁}, (create L (given.getD usualAcceleration)).run w = (.ok c, w₁) →
        (setApart sized ≤ dst.length → dst.length < countLimit ∨ sized = false →
          ∀ (reply : Written Int) s, L.answer (c.call w.memory src (behindSize sized dst))
            w₁.libraries = (.ok reply, s) →
          Answers dst.length (packBound sized src.length) (setApart sized) reply.result
            ((compressBlockInto L input output given sized).run w).1) ∧
        (dst.length < setApart sized →
          Raises ((compressBlockInto L input output given sized).run w).1
            (·.kind = .bufferTooSmall)) ∧
        (countLimit ≤ dst.length → sized = true →
          ((compressBlockInto L input output given sized).run w).1 = .error .tooLarge)) ∧
      (packBound sized src.length ≤ dst.length →
        Ample (fun _ => True) ((compressBlockInto L input output given sized).run w).1)
  compressBlock : ∀ {input}, input.Within w.memory → ∀ (given : Option Int) (sized : Bool),
    Ample (fun _ => True) ((compressBlock L input given sized).run w).1

/-- The room that the library asks for is enough for everything that compresses, whatever the
library replies, and less of it never is where the library does not succeed. -/
theorem bound_suffices (hL : Bounding L) (hw : AccountsLz4 w) : Sufficing L w where
  created hc := bound_of_create hc
  advertised hn hbound := by
    obtain ⟨w', hrun⟩ := run_bound_bounding hL hbound hn
    rw [hrun]
  advertisedBlock := by
    intro input src hs hn hbound sized
    have hinput : (Op.input input).run w = (.ok src, w) := by rw [Op.run_input, hs]
    have hcount := Range.count?_of_le hn (by decide)
    obtain ⟨w', hrun⟩ := run_bound_bounding hL hbound hn
    unfold blockBound
    rw [Op.run_bind_ok hinput, Op.run_ofExcept_bind hcount, Op.run_bind_ok hrun]
    cases sized with
    | false => rfl
    | true => rfl
  compress hs hd hn hbound c := by
    rw [run_compress_taken hs hd]
    constructor
    · intro reply s hreply
      exact answers_compressRange hn hreply hL hbound
    · intro hroom
      exact (roomy_compressRange hL hroom).mono (fun _ _ _ => trivial) w hbound
  compressBlockInto := by
    intro input output src dst hs hd hn given sized
    rw [run_compressBlockInto_taken hs hd]
    refine ⟨fun {c w₁} hc => ⟨?_, ?_, ?_⟩, fun hroom => roomy_compressBlockRange hL hroom w hw⟩
    · intro hwidth hcount reply s hreply
      rw [← ((quiet_create _).still hc).memory_eq] at hreply
      exact answers_compressBlockRange hL hc hn hcount hwidth hreply
    · intro hnarrow
      cases sized with
      | false => exact absurd hnarrow (Nat.not_lt_zero _)
      | true =>
        rw [run_compressBlockRange_narrow hc hnarrow]
        exact ⟨_, rfl, rfl⟩
    · rintro hcount rfl
      rw [run_compressBlockRange_countless hc hcount]
  compressBlock hin given sized := ample_compressBlock hL hw hin given sized

/-- The system's libraries, with a compressor that never succeeds. -/
def refusing : Libraries Contexts :=
  { system (.ok {}) with
    answer := fun
      | .lz4Compress .. => fun s => (.ok ⟨-7, []⟩, s)
      | c => (system (.ok {})).answer c }

private theorem answer_refusing {c : Call} (hc : ∀ words source capacity acceleration,
    c ≠ .lz4Compress words source capacity acceleration) (s : Contexts) :
    refusing.answer c s = (system (.ok {})).answer c s := by
  unfold refusing
  dsimp only
  split
  · exact absurd rfl (hc _ _ _ _)
  · rfl

private theorem bounding_refusing : Bounding refusing where
  bound n hn s := by
    rw [answer_refusing (by simp)]
    exact (Documented.system (.ok {})).bound n s hn
  refused c e s s' h := by
    cases c with
    | lz4Compress words source capacity acceleration =>
      exact absurd (congrArg Prod.fst h) (by simp [refusing])
    | _ =>
      rw [answer_refusing (by simp)] at h
      exact (Libraries.Reliable.system {}).refused _ e s s' h
  unbound e s h := (Libraries.Reliable.system {}).unbound .lz4 e s h

/-- What is asked for three bytes is nineteen. With so many the reply is passed on, and with one
less the room is at fault. -/
theorem bound_suffices_refusing :
    let enough : World Contexts := .bound (.holding [97, 98, 99] [.fresh 19])
    let short : World Contexts := .bound (.holding [97, 98, 99] [.fresh 18])
    Raises ((compress refusing ⟨1, 2052⟩ .first .second).run enough).1 (Error.IsNative (-7)) ∧
      Raises ((compress refusing ⟨1, 2052⟩ .first .second).run short).1
        (·.kind = .bufferTooSmall) := by
  intro enough short
  have hbound (m : Memory) : (World.bound m).Bound .lz4 := ⟨{}, rfl⟩
  have hsuffices (m : Memory) : Sufficing refusing (World.bound m) :=
    bound_suffices bounding_refusing (accountsLz4_of_bound (hbound m))
  have hsource (size : Nat) : Argument.first.source? (.holding [97, 98, 99] [.fresh size]) =
      .ok ⟨⟨.managed 0, 0⟩, 3, "bytes", true⟩ := rfl
  constructor
  · have hdest : Argument.second.destination? (.holding [97, 98, 99] [.fresh 19]) =
        .ok ⟨⟨.managed 1, 0⟩, 19, "bytearray", false⟩ := rfl
    have hanswers := ((hsuffices _).compress (hsource 19) hdest (by decide) (hbound _)
      ⟨1, 2052⟩).1 ⟨-7, []⟩ {} rfl
    exact hanswers.failed (by decide) (by decide)
  · have hdest : Argument.second.destination? (.holding [97, 98, 99] [.fresh 18]) =
        .ok ⟨⟨.managed 1, 0⟩, 18, "bytearray", false⟩ := rfl
    have hanswers := ((hsuffices _).compress (hsource 18) hdest (by decide) (hbound _)
      ⟨1, 2052⟩).1 ⟨-7, []⟩ {} rfl
    exact hanswers.short (by decide) (by decide)

/-- A range that is too long for a count has all the room that is asked for, and the compressor
would reply that it fails; with a size in front it is not called. -/
theorem compressBlockInto_countless :
    let dst : Range := ⟨⟨.address 4096, 0⟩, countLimit, "NoneType", false⟩
    let outcome := ((compressBlockInto refusing .first (.range dst) none true).run threeBytes).1
    packBound true 3 ≤ dst.length ∧
      (∀ m s, (refusing.answer (Compressor.call ⟨1, 2052⟩ m ⟨⟨.managed 0, 0⟩, 3, "bytes", true⟩
        (behindSize true dst)) s).1 = .ok ⟨-7, []⟩) ∧
      outcome = .error .tooLarge ∧ ¬Raises outcome (Error.IsNative (-7)) := by
  intro dst outcome
  have houtcome : outcome = .error .tooLarge := by decide +kernel
  refine ⟨by decide, fun _ _ => rfl, houtcome, ?_⟩
  rintro ⟨e, he, hkind, -⟩
  rw [← Except.error.inj (houtcome.symm.trans he)] at hkind
  exact absurd hkind (by decide)

end Sufficing

end Codec.Lz4

end NativeCodec
