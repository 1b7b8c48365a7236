import Mathlib.Algebra.GroupWithZero.Nat
import NativeCodec.Proofs.Zstd.Draining

/-!
Validation with any stream decoder.

Draining a source is a sequence of calls, here `Turn`s, each of which sees the position that the
one before has left. It goes on after a turn that took input or gave output (`Turn.Continues`) and
ends with the first that did neither, failed, or came to the end of a frame at the end of the source
(`run_drain_turn`, `Turns.run`). Input that is taken and output that is given count the turns,
so that there are no more of them than bytes of the two and one besides (`Turns.length_le`). All
that is assumed of a decoder is that it answers and keeps its position in the source (`Streams`).
-/

set_option autoImplicit false
set_option relaxedAutoImplicit false

namespace NativeCodec.Codec.Zstd

open Native NativeCodec.Zstd

variable {σ : Type}

/-- One call of a stream decoder: the position in the source that it sees, and the reply. -/
structure Turn where
  consumed : Nat
  reply : Advanced

namespace Turn

def Fails (t : Turn) : Prop := isError t.reply.word = true

def Starves (t : Turn) : Prop := t.Fails ∧ errorCode t.reply.word = allocationCode

def Ends (length : Nat) (t : Turn) : Prop := t.reply.word = 0 ∧ t.reply.consumed = length

def Moves (t : Turn) : Prop := t.reply.consumed ≠ t.consumed ∨ t.reply.written ≠ 0

def Continues (length : Nat) (t : Turn) : Prop := ¬ t.Fails ∧ ¬ t.Ends length ∧ t.Moves

instance (t : Turn) : Decidable t.Fails :=
  inferInstanceAs (Decidable (isError t.reply.word = true))

instance (length : Nat) (t : Turn) : Decidable (t.Ends length) :=
  inferInstanceAs (Decidable (t.reply.word = 0 ∧ t.reply.consumed = length))

instance (t : Turn) : Decidable t.Moves :=
  inferInstanceAs (Decidable (t.reply.consumed ≠ t.consumed ∨ t.reply.written ≠ 0))

instance (length : Nat) (t : Turn) : Decidable (t.Continues length) :=
  inferInstanceAs (Decidable (¬ t.Fails ∧ ¬ t.Ends length ∧ t.Moves))

def verdict (L : Libraries σ) (length : Nat) (t : Turn) : Except Error Bool :=
  if t.Fails then
    if errorCode t.reply.word = allocationCode then
      .error (.failedFrame "validation" allocationCode (L.errorName allocationCode))
    else .ok false
  else .ok (decide (t.Ends length))

end Turn

/-- Every turn sees the position that the one before has left. -/
def Linked : Nat → List Turn → Prop
  | _, [] => True
  | consumed, t :: turns => t.consumed = consumed ∧ Linked t.reply.consumed turns

/-- Some turn is of a kind, and every turn before it went without an error and moved. -/
def Meets (P : Turn → Prop) (turns : List Turn) : Prop :=
  ∃ before t after, turns = before ++ t :: after ∧ P t ∧ ∀ u ∈ before, ¬ u.Fails ∧ u.Moves

private theorem meets_iff {P : Turn → Prop} {length : Nat} {going : List Turn} {last : Turn}
    (hgoing : ∀ t ∈ going, t.Continues length) (hP : ∀ t, P t → ¬ t.Continues length) :
    Meets P (going ++ [last]) ↔ P last := by
  constructor
  · rintro ⟨before, t, after, heq, ht, -⟩
    have hmem : t ∈ going ++ [last] := heq ▸ List.mem_append_right before (List.mem_cons_self ..)
    rcases List.mem_append.mp hmem with hmem | hmem
    · exact absurd (hgoing t hmem) (hP t ht)
    · exact List.mem_singleton.mp hmem ▸ ht
  · intro h
    exact ⟨going, last, [], rfl, h, fun u hu => ⟨(hgoing u hu).1, (hgoing u hu).2.2⟩⟩

/-- What all turns of a drain have in common: the context, the room for output, and the source. -/
structure Feed where
  context : Nat
  room : Nat
  source : Source
  site : Site

def Feed.call (f : Feed) (consumed : Nat) : Call :=
  .zstdStream f.context f.room 0 f.source consumed

/-- A turn as it is kept. -/
def Feed.event (f : Feed) (t : Turn) : Event := .called (f.call t.consumed) f.site t.reply

def Feed.drain (L : Libraries σ) (f : Feed) (patience consumed : Nat) : Op σ Bool :=
  drainFrom L f.context f.room f.source f.site patience consumed

/-- A stream decoder in contexts that are created and freed. It always answers, asks for no more
room than the memory has, and its position neither goes back nor leaves the source; whether there is
a context, how much the decoder writes and what its result words are is left open. -/
structure Streams (L : Libraries σ) (m : Memory) : Prop where
  room : ∀ s, ∃ (room : Nat) (s' : σ), L.answer .zstdStreamRoom s = (.ok room, s') ∧
    room < m.room
  create : ∀ s, ∃ (handle : Option Nat) (s' : σ),
    L.answer (.createContext .decompression) s = (.ok handle, s')
  free : ∀ handle s, ∃ s' : σ, L.answer (.freeContext .decompression handle) s = (.ok (), s')
  stream : ∀ (context room : Nat) (source : Source) (consumed : Nat) (s : σ),
    source.content.length ≤ source.length → consumed ≤ source.length →
    ∃ (reply : Advanced) (s' : σ),
      L.answer (.zstdStream context room 0 source consumed) s = (.ok reply, s') ∧
        consumed ≤ reply.consumed ∧ reply.consumed ≤ source.length

section Drain

variable {L : Libraries σ} {m : Memory} {f : Feed}

def Feed.next (f : Feed) (t : Turn) (w : World σ) (s : σ) : World σ :=
  { w with libraries := s, events := f.event t :: w.events }

private theorem run_fail_allocation {α : Type} {word : Nat} (h : errorCode word = allocationCode)
    (w : World σ) : ∃ note : Note, (fail L "validation" word true : Op σ α).run w =
      (.error (.failedFrame "validation" allocationCode (L.errorName allocationCode)),
        { w with events := .noted note :: w.events }) := by
  unfold fail
  rw [h]
  exact ⟨_, rfl⟩

theorem run_drain_turn {t : Turn} {w : World σ} {s : σ}
    (h : L.answer (f.call t.consumed) w.libraries = (.ok t.reply, s)) :
    (t.Continues f.source.length → ∀ patience,
      (f.drain L (patience + 1) t.consumed).run w =
        (f.drain L patience t.reply.consumed).run (f.next t w s)) ∧
    (¬ t.Continues f.source.length → ∃ notes : List Note, ∀ patience,
      (f.drain L (patience + 1) t.consumed).run w = (t.verdict L f.source.length,
        { f.next t w s with events := notes.map .noted ++ (f.next t w s).events })) := by
  have hcall : (Op.call L (.zstdStream f.context f.room 0 f.source t.consumed) f.site :
      Op σ Advanced).run w = (.ok t.reply, f.next t w s) := Op.run_call_ok h
  have hrun : ∀ patience, (f.drain L (patience + 1) t.consumed).run w =
      (if t.Fails then
        (do
          if errorCode t.reply.word = allocationCode then fail L "validation" t.reply.word true
          return false : Op σ Bool)
      else if t.Ends f.source.length then return true
      else if t.reply.consumed = t.consumed ∧ t.reply.written = 0 then return false
      else f.drain L patience t.reply.consumed : Op σ Bool).run (f.next t w s) :=
    fun _ => Op.run_bind_ok (α := Advanced) hcall _
  constructor
  · rintro ⟨hfails, hends, hmoves⟩ patience
    rw [hrun, if_neg hfails, if_neg hends, if_neg]
    rintro ⟨hsame, hnone⟩
    exact hmoves.elim (absurd hsame) (absurd hnone)
  · intro hstops
    unfold Turn.verdict
    by_cases hfails : t.Fails
    · by_cases hstarves : errorCode t.reply.word = allocationCode
      · obtain ⟨note, hfail⟩ := run_fail_allocation (L := L) (α := PUnit) hstarves (f.next t w s)
        refine ⟨[note], fun patience => ?_⟩
        rw [hrun, if_pos hfails, if_pos hfails, if_pos hstarves, if_pos hstarves]
        exact Op.run_bind_error hfail _
      · refine ⟨[], fun patience => ?_⟩
        rw [hrun, if_pos hfails, if_pos hfails, if_neg hstarves, if_neg hstarves]
        rfl
    refine ⟨[], fun patience => ?_⟩
    rw [hrun, if_neg hfails, if_neg hfails]
    by_cases hends : t.Ends f.source.length
    · rw [if_pos hends, decide_eq_true hends]
      rfl
    · have hstuck : t.reply.consumed = t.consumed ∧ t.reply.written = 0 :=
        Decidable.byContradiction fun h =>
          hstops ⟨hfails, hends, Decidable.not_and_iff_or_not.mp h⟩
      rw [if_neg hends, if_pos hstuck, decide_eq_false hends]
      rfl

inductive Turns (L : Libraries σ) (f : Feed) :
    Nat → World σ → List Turn → Nat → World σ → Prop
  | nil (consumed : Nat) (w : World σ) : Turns L f consumed w [] consumed w
  | cons {t : Turn} {turns : List Turn} {consumed : Nat} {w w' : World σ} {s : σ}
      (answer : L.answer (f.call t.consumed) w.libraries = (.ok t.reply, s))
      (continues : t.Continues f.source.length)
      (more : Turns L f t.reply.consumed (f.next t w s) turns consumed w') :
      Turns L f t.consumed w (t :: turns) consumed w'

namespace Turns

variable {turns : List Turn} {consumed consumed' : Nat} {w w' : World σ}

/-- Draining goes through turns that go on, whatever is to come after them. -/
theorem run (h : Turns L f consumed w turns consumed' w') (patience : Nat) :
    (f.drain L (turns.length + patience) consumed).run w =
      (f.drain L patience consumed').run w' := by
  induction h with
  | nil consumed w => rw [List.length_nil, Nat.zero_add]
  | cons answer continues more ih =>
    rw [List.length_cons, Nat.add_right_comm, (run_drain_turn answer).1 continues, ih]

private theorem continues (h : Turns L f consumed w turns consumed' w') :
    ∀ t ∈ turns, t.Continues f.source.length := by
  induction h with
  | nil => exact fun _ hmem => absurd hmem List.not_mem_nil
  | cons answer continues more ih => exact List.forall_mem_cons.mpr ⟨continues, ih⟩

private theorem events (h : Turns L f consumed w turns consumed' w') :
    w'.events = (turns.map f.event).reverse ++ w.events := by
  induction h with
  | nil => rfl
  | cons answer continues more ih =>
    rw [ih, List.map_cons, List.reverse_cons, List.append_assoc]
    rfl

private theorem linked (h : Turns L f consumed w turns consumed' w') (reply : Advanced) :
    Linked consumed (turns ++ [⟨consumed', reply⟩]) := by
  induction h with
  | nil => exact ⟨rfl, trivial⟩
  | cons answer continues more ih => exact ⟨rfl, ih⟩

variable (hL : Streams L m) (hf : f.source.content.length ≤ f.source.length)

include hL hf

/-- Every turn that goes on counts towards the input taken or the output given. -/
theorem length_le (h : Turns L f consumed w turns consumed' w')
    (hc : consumed ≤ f.source.length) :
    turns.length + consumed ≤ consumed' + (turns.map (·.reply.written)).sum ∧
      consumed' ≤ f.source.length := by
  induction h with
  | nil => exact ⟨Nat.le_of_eq (Nat.add_comm ..), hc⟩
  | @cons t turns consumed w w' s answer continues more ih =>
    obtain ⟨reply, s', hanswer, hforward, hinside⟩ :=
      hL.stream f.context f.room f.source t.consumed w.libraries hf hc
    obtain rfl : reply = t.reply :=
      Except.ok.inj (congrArg Prod.fst (hanswer.symm.trans answer))
    obtain ⟨hcount, hend⟩ := ih hinside
    refine ⟨?_, hend⟩
    rw [List.length_cons, List.map_cons, List.sum_cons]
    rcases continues.2.2 with hmoved | hwrote
    · omega
    · omega

end Turns

private theorem exists_turns (hL : Streams L m) (hf : f.source.content.length ≤ f.source.length)
    {consumed : Nat} (hc : consumed ≤ f.source.length) (patience : Nat) (w : World σ) :
    ∃ turns consumed' w', Turns L f consumed w turns consumed' w' ∧ (turns.length = patience ∨
      turns.length < patience ∧ ∃ reply s,
        L.answer (f.call consumed') w'.libraries = (.ok reply, s) ∧
          ¬ Turn.Continues f.source.length ⟨consumed', reply⟩) := by
  induction patience generalizing consumed w with
  | zero => exact ⟨[], consumed, w, .nil consumed w, Or.inl rfl⟩
  | succ patience ih =>
    obtain ⟨reply, s, hanswer, -, hinside⟩ :=
      hL.stream f.context f.room f.source consumed w.libraries hf hc
    by_cases hgoes : Turn.Continues f.source.length ⟨consumed, reply⟩
    · obtain ⟨turns, consumed', w', hturns, hend⟩ := ih hinside (f.next ⟨consumed, reply⟩ w s)
      refine ⟨⟨consumed, reply⟩ :: turns, consumed', w', .cons hanswer hgoes hturns, ?_⟩
      rw [List.length_cons, Nat.add_right_cancel_iff, Nat.add_lt_add_iff_right]
      exact hend
    · exact ⟨[], consumed, w, .nil consumed w,
        Or.inr ⟨Nat.succ_pos patience, reply, s, hanswer, hgoes⟩⟩

/-- What validation of so many bytes has made of its turns, if there was at most so much output:
there are few of them, and the first that is not like those before it decides. -/
structure Validated (L : Libraries σ) (length total : Nat) (turns : List Turn)
    (outcome : Except Error Bool) : Prop where
  few : turns.length ≤ length + total + 1
  accepts : outcome = .ok true ↔ Meets (·.Ends length) turns
  refuses : outcome = .ok false ↔
    Meets (fun t => t.Fails ∧ ¬ t.Starves ∨ ¬ t.Fails ∧ ¬ t.Moves ∧ ¬ t.Ends length) turns
  starves : outcome =
      .error (.failedFrame "validation" allocationCode (L.errorName allocationCode)) ↔
    Meets Turn.Starves turns
  errors : ∀ e, outcome = .error e → e.kind = .nativeCall ∨ e = .tooLarge ∧ wordLimit ≤ length

private theorem Turn.Ends.not_fails {t : Turn} {length : Nat} (h : t.Ends length) : ¬ t.Fails := by
  unfold Fails
  rw [h.1]
  decide

private theorem validated_of_last {length total : Nat} {going : List Turn} {last : Turn}
    (hgoing : ∀ t ∈ going, t.Continues length) (hlast : ¬ last.Continues length)
    (hfew : going.length ≤ length + total) :
    Validated L length total (going ++ [last]) (last.verdict L length) where
  few := by
    rw [List.length_append, List.length_singleton]
    omega
  accepts := by
    rw [meets_iff hgoing fun t ht hgoes => hgoes.2.1 ht]
    unfold Turn.verdict
    by_cases hfails : last.Fails
    · rw [if_pos hfails]
      refine ⟨fun h => ?_, fun h => absurd hfails h.not_fails⟩
      split at h
      · exact absurd h (by simp)
      · exact absurd h (by simp)
    · rw [if_neg hfails, Except.ok.injEq, decide_eq_true_iff]
  refuses := by
    rw [meets_iff hgoing fun t ht hgoes => ht.elim (fun h => hgoes.1 h.1)
      fun h => h.2.1 hgoes.2.2]
    unfold Turn.verdict
    by_cases hfails : last.Fails
    · rw [if_pos hfails]
      split
      · next hcode => simp [Turn.Starves, hfails, hcode]
      · next hcode => simp [Turn.Starves, hfails, hcode]
    · have hstuck : ¬ last.Ends length → ¬ last.Moves := fun hends hmoves =>
        hlast ⟨hfails, hends, hmoves⟩
      rw [if_neg hfails, Except.ok.injEq, decide_eq_false_iff_not]
      constructor
      · exact fun hends => Or.inr ⟨hfails, hstuck hends, hends⟩
      · rintro (h | h)
        · exact absurd h.1 hfails
        · exact h.2.2
  starves := by
    rw [meets_iff hgoing fun t ht hgoes => hgoes.1 ht.1]
    unfold Turn.verdict
    by_cases hfails : last.Fails
    · rw [if_pos hfails]
      split
      · next hcode => simp [Turn.Starves, hfails, hcode]
      · next hcode => simp [Turn.Starves, hfails, hcode]
    · rw [if_neg hfails]
      simp [Turn.Starves, hfails]
  errors := by
    intro e he
    unfold Turn.verdict at he
    split at he
    · split at he
      · rw [← Except.error.inj he]
        exact Or.inl rfl
      · exact absurd he (by simp)
    · exact absurd he (by simp)

private theorem Linked.of_append {consumed : Nat} {turns more : List Turn}
    (h : Linked consumed (turns ++ more)) : Linked consumed turns := by
  induction turns generalizing consumed with
  | nil => trivial
  | cons t turns ih => exact ⟨h.1, ih h.2⟩

/-- Draining a source is a sequence of linked turns. If the output in them is bounded, and no more
than the calls that are allowed beside those for the source, then the last of them has decided, and
it does not matter how many more calls were allowed. -/
private theorem run_drain (hL : Streams L m) (hf : f.source.content.length ≤ f.source.length)
    (patience : Nat)
    (w : World σ) : ∃ turns outcome w', ∃ notes : List Note,
      (f.drain L (f.source.length + patience) 0).run w = (outcome, w') ∧
      w'.events = notes.map .noted ++ (turns.map f.event).reverse ++ w.events ∧ Linked 0 turns ∧
      ∀ total, (turns.map (·.reply.written)).sum ≤ total → total < patience →
        Validated L f.source.length total turns outcome ∧ ∀ patience', total < patience' →
          (f.drain L (f.source.length + patience') 0).run w = (outcome, w') := by
  obtain ⟨turns, consumed, w', hturns, hend⟩ :=
    exists_turns hL hf (Nat.zero_le _) (f.source.length + patience) w
  obtain ⟨hcount, hinside⟩ := hturns.length_le hL hf (Nat.zero_le _)
  rcases hend with hend | ⟨hend, reply, s, hanswer, hlast⟩
  · -- so many turns would give more output than there is
    refine ⟨turns, .error .endless, w', [], ?_, hturns.events, (hturns.linked ⟨0, 0, 0⟩).of_append,
      fun total hsum htotal => absurd hcount (by omega)⟩
    have hrun := hturns.run 0
    rw [Nat.add_zero, hend] at hrun
    rw [hrun]
    rfl
  · obtain ⟨notes, hverdict⟩ := (run_drain_turn (t := ⟨consumed, reply⟩) hanswer).2 hlast
    have hrun : ∀ patience', turns.length < patience' → (f.drain L patience' 0).run w =
        (Turn.verdict L f.source.length ⟨consumed, reply⟩, { f.next ⟨consumed, reply⟩ w' s with
          events := notes.map .noted ++ (f.next ⟨consumed, reply⟩ w' s).events }) := by
      intro patience' hlt
      obtain ⟨spare, rfl⟩ := Nat.exists_eq_add_of_lt hlt
      exact (hturns.run (spare + 1)).trans (hverdict spare)
    refine ⟨turns ++ [⟨consumed, reply⟩], _, _, notes, hrun _ hend, ?_, hturns.linked reply, ?_⟩
    · rw [List.map_append, List.reverse_append, List.append_assoc, List.append_assoc,
        ← hturns.events]
      rfl
    · intro total hsum htotal
      rw [List.map_append, List.sum_append, List.map_singleton, List.sum_singleton] at hsum
      dsimp only at hsum
      exact ⟨validated_of_last hturns.continues hlast (by omega),
        fun patience' hlt => hrun _ (by omega)⟩

end Drain

section Range

variable {L : Libraries σ} {m : Memory} {w : World σ} {src : Range}

def validateIn (L : Libraries σ) (src : Range) (room patience context : Nat) : Op σ Bool := do
  let source ← Op.source src
  if wordLimit ≤ source.length then throw .tooLarge
  drainFrom L context room source ⟨some src.start, none⟩ (source.length + patience) 0

private theorem drainFrom_patience (L : Libraries σ) (most context room : Nat) (source : Source)
    (site : Site) (patience consumed : Nat) :
    drainFrom { L with patience := most } context room source site patience consumed =
      drainFrom L context room source site patience consumed := by
  induction patience generalizing consumed with
  | zero => rfl
  | succ patience ih =>
    rw [drainFrom, drainFrom]
    simp only [ih]
    rfl

private theorem run_validateRange_room {room : Nat} {s : σ} (hne : src.length ≠ 0)
    (hanswer : L.answer .zstdStreamRoom w.libraries = (.ok room, s)) (hroom : room < w.memory.room)
    (patience : Nat) : (validateRange { L with patience } src).run w =
      (withContext L .decompression (validateIn L src room patience)).run
        { w with libraries := s, events := .called .zstdStreamRoom {} room :: w.events } := by
  have hcall : (Op.call { L with patience } .zstdStreamRoom {} : Op σ Nat).run w =
    (.ok room, { w with libraries := s, events := .called .zstdStreamRoom {} room :: w.events }) :=
    Op.run_call_ok hanswer
  have hcheck : (Op.checkSize room).run { w with
      libraries := s, events := .called .zstdStreamRoom {} room :: w.events } =
    (.ok room, { w with libraries := s, events := .called .zstdStreamRoom {} room :: w.events }) :=
    Prod.ext (Memory.checkSize_of_lt hroom) rfl
  unfold validateRange
  rw [if_neg hne, Op.run_bind_ok (α := Nat) hcall, Op.run_bind_ok hcheck]
  simp only [drainFrom_patience]
  rfl

private theorem run_withContext_missing {α : Type} {d : Direction} {s : σ}
    (hanswer : L.answer (.createContext d) w.libraries = (.ok none, s)) (body : Nat → Op σ α) :
    (withContext L d body).run w = (.error (.contextMissing d.contextName),
      { w with libraries := s, events := .called (.createContext d) {} none :: w.events }) := by
  have hacquire : (acquire L d).run w = (.error (.contextMissing d.contextName),
      { w with libraries := s, events := .called (.createContext d) {} none :: w.events }) := by
    unfold acquire
    rw [Op.run_bind_ok (Op.run_call_ok hanswer)]
    rfl
  unfold withContext
  rw [Op.run_bind_error hacquire]

private theorem run_withContext_created {α : Type} {d : Direction} {handle : Nat} {s s' : σ}
    {outcome : Except Error α} {w' : World σ} (body : Nat → Op σ α)
    (hanswer : L.answer (.createContext d) w.libraries = (.ok (some handle), s))
    (hbody : (body handle).run { w with
      libraries := s, events := .called (.createContext d) {} (some handle) :: w.events } =
        (outcome, w'))
    (hfree : L.answer (.freeContext d handle) w'.libraries = (.ok (), s')) :
    (withContext L d body).run w = (outcome, { w' with
      libraries := s', events := .called (.freeContext d handle) {} () :: w'.events }) := by
  have hacquire : (acquire L d).run w = (.ok { kind := d.contextName, handle }, { w with
      libraries := s, events := .called (.createContext d) {} (some handle) :: w.events }) := by
    unfold acquire
    rw [Op.run_bind_ok (Op.run_call_ok hanswer)]
    rfl
  have hclose : (free L d handle).run w' = (.ok (), { w' with
      libraries := s', events := .called (.freeContext d handle) {} () :: w'.events }) :=
    Op.run_call_ok hfree
  unfold withContext
  rw [Op.run_bind_ok hacquire, Op.run_ensuring, hbody, hclose]
  rfl

private theorem length_content_le (m : Memory) (src : Range) :
    (Source.mk src.length (m.read? src.start src.length)).content.length ≤ src.length := by
  unfold Source.content Memory.read?
  split
  · exact Nat.zero_le _
  · cases src.start.target? with
    | none => exact Nat.zero_le _
    | some p =>
      rw [Option.map_some, Option.getD_some, Storage.length_read]
      exact Nat.min_le_left _ _

private theorem run_validateIn (hL : Streams L m) (src : Range) (room patience handle : Nat)
    (w : World σ) :
    ∃ turns outcome w', ∃ notes : List Note,
      (validateIn L src room patience handle).run w = (outcome, w') ∧
      w'.events = notes.map .noted ++ (turns.map (Feed.event ⟨handle, room,
        ⟨src.length, w.memory.read? src.start src.length⟩, ⟨some src.start, none⟩⟩)).reverse ++
          w.events ∧ Linked 0 turns ∧
      ∀ total, (turns.map (·.reply.written)).sum ≤ total → total < patience →
        Validated L src.length total turns outcome ∧ ∀ patience', total < patience' →
          (validateIn L src room patience' handle).run w = (outcome, w') := by
  have hsource := Op.run_source w src
  by_cases hlong : wordLimit ≤ src.length
  · have hrefuse : ∀ patience', (validateIn L src room patience' handle).run w =
        (.error .tooLarge, w) := by
      intro patience'
      unfold validateIn
      rw [Op.run_bind_ok hsource, if_pos hlong, Op.run_bind_error (Op.run_throw _ _)]
    have hnone : ∀ P, ¬ Meets P [] := fun P ⟨before, t, after, h, _⟩ => by simp at h
    refine ⟨[], .error .tooLarge, w, [], hrefuse patience, rfl, trivial, fun total _ _ =>
      ⟨⟨Nat.zero_le _, ?_, ?_, ?_, ?_⟩, fun patience' _ => hrefuse patience'⟩⟩
    · simp [hnone]
    · simp [hnone]
    · simp [hnone]
    · exact fun e he => Or.inr ⟨(Except.error.inj he).symm, hlong⟩
  · have hdrain : ∀ patience', (validateIn L src room patience' handle).run w =
        (Feed.drain L ⟨handle, room, ⟨src.length, w.memory.read? src.start src.length⟩,
          ⟨some src.start, none⟩⟩ (src.length + patience') 0).run w := by
      intro patience'
      unfold validateIn
      rw [Op.run_bind_ok hsource, if_neg hlong]
      rfl
    simp only [hdrain]
    exact run_drain hL (length_content_le w.memory src) patience w

end Range

/-- Validation of no bytes does nothing and finds them wrong. Otherwise it asks for room and a
context. Without a context it is a failure of the library. With one it makes calls that all see no
output and the position that the one before has left, and frees the context after them. If the
output in them is bounded, and the calls that are allowed beside those for the source are more than
that, then they end as `Validated` says, and would if any more were allowed. -/
theorem validateRange_turns {L : Libraries σ} (src : Range) (w : World σ)
    (hL : Streams L w.memory) :
    (src.length = 0 → (validateRange L src).run w = (.ok false, w)) ∧
    (src.length ≠ 0 → ∃ room w',
      ((validateRange L src).run w =
          (.error (.contextMissing Direction.decompression.contextName), w') ∧
        w'.events = .called (.createContext .decompression) {} none ::
          .called .zstdStreamRoom {} room :: w.events) ∨
      ∃ handle turns outcome, ∃ notes : List Note, (validateRange L src).run w = (outcome, w') ∧
        w'.events = .called (.freeContext .decompression handle) {} () ::
          (notes.map .noted ++ (turns.map (Feed.event ⟨handle, room,
            ⟨src.length, w.memory.read? src.start src.length⟩, ⟨some src.start, none⟩⟩)).reverse ++
          .called (.createContext .decompression) {} (some handle) ::
          .called .zstdStreamRoom {} room :: w.events) ∧
        Linked 0 turns ∧
        ∀ total, (turns.map (·.reply.written)).sum ≤ total → total < L.patience →
          Validated L src.length total turns outcome ∧ ∀ patience, total < patience →
            (validateRange { L with patience } src).run w = (outcome, w')) := by
  constructor
  · intro hempty
    unfold validateRange
    rw [if_pos hempty]
    rfl
  · intro hne
    obtain ⟨room, s₁, hroomed, hroom⟩ := hL.room w.libraries
    have hrun := run_validateRange_room (w := w) hne hroomed hroom
    obtain ⟨handle, s₂, hcreated⟩ := hL.create s₁
    cases handle with
    | none =>
      exact ⟨room, _, Or.inl ⟨(hrun L.patience).trans (run_withContext_missing hcreated _), rfl⟩⟩
    | some handle =>
      obtain ⟨turns, outcome, w', notes, hbody, hevents, hlinked, hends⟩ :=
        run_validateIn hL src room L.patience handle { w with
          libraries := s₂
          events := .called (.createContext .decompression) {} (some handle) ::
            .called .zstdStreamRoom {} room :: w.events }
      obtain ⟨s₃, hfreed⟩ := hL.free handle w'.libraries
      have hwhole := fun patience h => (hrun patience).trans
        (run_withContext_created (validateIn L src room patience) hcreated
          (show _ = (outcome, w') from h) hfreed)
      refine ⟨room, _, Or.inr ⟨handle, turns, outcome, notes, hwhole _ hbody, ?_, hlinked, ?_⟩⟩
      · rw [hevents]
      · intro total hsum htotal
        obtain ⟨hvalidated, hmore⟩ := hends total hsum htotal
        exact ⟨hvalidated, fun patience hlt => hwhole patience (hmore patience hlt)⟩

private theorem Stream.call_consumed_le (held : Stream) (room : Nat) (unread : Bytes) :
    (held.call room unread).1.consumed ≤ unread.length := by
  unfold Stream.call Stream.handOut
  split
  · split
    · exact Nat.zero_le _
    · exact Nat.le_refl _
    · exact Nat.sub_le _ _
  · exact Nat.zero_le _

theorem Streams.system (snappy : Except Error Constants) {m : Memory} (hm : maxBlock < m.room) :
    Streams (Native.system snappy) m where
  room s := ⟨maxBlock, s, answer_system_of_fits rfl s, hm⟩
  create s := ⟨_, _, answer_system_of_fits rfl s⟩
  free handle s := ⟨_, answer_system_of_fits rfl s⟩
  stream context room source consumed s hlength hconsumed := by
    have htaken := Stream.call_consumed_le (s.stream context) (room - 0)
      (source.content.drop consumed)
    rw [List.length_drop] at htaken
    refine ⟨_, _, answer_system_of_fits rfl s, ?_, ?_⟩
    · exact Nat.le_add_right _ _
    · change consumed + ((s.stream context).call (room - 0)
        (source.content.drop consumed)).1.consumed ≤ source.length
      omega

def outputOf : Event → Nat
  | .called (.zstdStream ..) _ reply => reply.written
  | _ => 0

/-- A frame of three bytes is taken with one context and at most sixteen calls, of which the last
ends it where the source ends. -/
theorem validateRange_turns_raw : ∃ room w' handle turns, ∃ notes : List Note,
    (validateRange (system (.ok {})) ⟨⟨.managed 0, 0⟩, 12, "bytes", true⟩).run
      { memory := .holding [0x28, 0xB5, 0x2F, 0xFD, 0x20, 3, 0x19, 0, 0, 7, 8, 9],
        libraries := {} } = (.ok true, w') ∧
    w'.events = .called (.freeContext .decompression handle) {} () ::
      (notes.map .noted ++ (turns.map (Feed.event ⟨handle, room,
        ⟨12, some [0x28, 0xB5, 0x2F, 0xFD, 0x20, 3, 0x19, 0, 0, 7, 8, 9]⟩,
        ⟨some ⟨.managed 0, 0⟩, none⟩⟩)).reverse ++
      [.called (.createContext .decompression) {} (some handle),
        .called .zstdStreamRoom {} room]) ∧
    Linked 0 turns ∧ turns.length ≤ 12 + 3 + 1 ∧ Meets (·.Ends 12) turns := by
  have hok : ((validateRange (system (.ok {})) ⟨⟨.managed 0, 0⟩, 12, "bytes", true⟩).run
      { memory := .holding [0x28, 0xB5, 0x2F, 0xFD, 0x20, 3, 0x19, 0, 0, 7, 8, 9],
        libraries := {} }).1 = .ok true := by decide +kernel
  have hsum : (((validateRange (system (.ok {})) ⟨⟨.managed 0, 0⟩, 12, "bytes", true⟩).run
      { memory := .holding [0x28, 0xB5, 0x2F, 0xFD, 0x20, 3, 0x19, 0, 0, 7, 8, 9],
        libraries := {} }).2.events.map outputOf).sum = 3 := by decide +kernel
  obtain ⟨room, w', ⟨hrun, -⟩ | ⟨handle, turns, outcome, notes, hrun, hevents, hlinked, hends⟩⟩ :=
    (validateRange_turns ⟨⟨.managed 0, 0⟩, 12, "bytes", true⟩
      { memory := .holding [0x28, 0xB5, 0x2F, 0xFD, 0x20, 3, 0x19, 0, 0, 7, 8, 9],
        libraries := {} } (.system (.ok {}) (by decide))).2 (by decide)
  · rw [hrun] at hok
    exact absurd hok (by simp)
  rw [hrun] at hok hsum
  dsimp only at hok hsum
  subst hok
  rw [hevents] at hsum
  have hwritten : (turns.map (·.reply.written)).sum = 3 := by
    simpa [outputOf, Feed.event, Feed.call, Function.comp_def, List.sum_reverse,
      List.map_const', List.sum_replicate_nat] using hsum
  obtain ⟨hvalidated, -⟩ := hends 3 (Nat.le_of_eq hwritten) (by decide)
  exact ⟨room, w', handle, turns, notes, hrun, hevents, hlinked, hvalidated.few,
    hvalidated.accepts.mp rfl⟩

end NativeCodec.Codec.Zstd
