import NativeCodec.Codec.Operation
import NativeCodec.Proofs.Operation

set_option autoImplicit false
set_option relaxedAutoImplicit false

namespace NativeCodec

def Raises {α : Type} (o : Except Error α) (P : Error → Prop) : Prop := ∃ e, o = .error e ∧ P e

def Error.IsNative (status : Int) (e : Error) : Prop := e.kind = .nativeCall ∧ e.code = some status

/-- An error is of the class of a code of the zstd library, of which `name` says what each code
means. Only operations that decode find fault with their input. -/
structure Error.Classed (name : Nat → String) (decoding : Bool) (code : Nat) (e : Error) :
    Prop where
  room : e.kind = .bufferTooSmall ↔ code = 70
  input : e.kind = .malformedInput ↔ decoding = true ∧ code ∈ [10, 12, 14, 16, 20, 22, 24, 72]
  other : e.kind ≠ .bufferTooSmall → e.kind ≠ .malformedInput →
    e.IsNative code ∧ e.diagnostic = some (name code)

namespace Codec

open Native

/-- An outcome is a result word of the zstd library, or the error that the word stands for. -/
def Sized (name : Nat → String) (decoding : Bool) (word : Nat) (o : Except Error Answer) : Prop :=
  if word ≤ wordLimit - 120 then o = .ok (.number word)
  else Raises o (Error.Classed name decoding (wordLimit - word))

/-- A length counts the content of a frame, unless the size of that is unknown. -/
def Counts (size : Nat) (o : Except Error Answer) : Prop :=
  if size = wordLimit - 1 then o = .ok (.extent none)
  else if size = wordLimit - 2 then Raises o (·.kind = .malformedInput)
  else ∀ a, o = .ok a → ∃ n, a = .extent n ∧ ∀ total ∈ n, size ≤ total

/-- A length is found only if the library can tell where a frame ends. -/
def Passes (name : Nat → String) (word : Nat) (o : Except Error Answer) : Prop :=
  if word ≤ wordLimit - 120 then ∀ a, o = .ok a → ∃ n, a = .extent n
  else Raises o (Error.Classed name true (wordLimit - word))

end Codec

namespace Native

open Codec

variable {σ α β : Type}

/-- Whether the reply to a call decides what an operation comes to. -/
def Call.decides : Call → Bool
  | .lz4Compress .. | .lz4Decompress .. => true
  | .snappyCompress .. | .snappyDecompress .. | .snappyLength .. => true
  | .zstdBound _ | .zstdCompress .. | .zstdDecompress .. => true
  | .zstdContentSize _ | .zstdFrameSize _ => true
  | _ => false

/-- The library can be asked how much room LZ4 needs for an input of some length, and says so. -/
def Libraries.Needs (L : Libraries σ) (length : Nat) (room : Int) : Prop :=
  ∃ s s', L.answer (.lz4Bound length) s = (.ok room, s')

/-- What an operation comes to, given the reply to a call of it. -/
def Call.Tells (L : Libraries σ) : (c : Call) → c.Reply → Except Error Answer → Prop
  | .lz4Compress _ source capacity _, reply, o =>
    if 0 < reply.result then o = .ok (.number reply.result)
    else ∃ room, L.Needs source.length room ∧
      if capacity < room then Raises o (·.kind = .bufferTooSmall)
      else Raises o (Error.IsNative reply.result)
  | .lz4Decompress .., reply, o =>
    if 0 ≤ reply.result then o = .ok (.number reply.result)
    else Raises o fun e => e.kind = .bufferTooSmall ∨ e.kind = .malformedInput
  | .snappyCompress _ _ cell, reply, o =>
    if reply.status = 0 then o = .ok (.number (reply.cell.getD cell))
    else if reply.status = 2 then Raises o (·.kind = .bufferTooSmall)
    else Raises o (Error.IsNative reply.status)
  | .snappyDecompress _ _ cell, reply, o =>
    if reply.status = 0 then o = .ok (.number (reply.cell.getD cell))
    else if reply.status = 1 then Raises o (·.kind = .malformedInput)
    else if reply.status = 2 then Raises o (·.kind = .bufferTooSmall)
    else Raises o (Error.IsNative reply.status)
  | .snappyLength _ cell, reply, o =>
    if reply.status = 0 then o = .ok (.extent (some (reply.cell.getD cell)))
    else if reply.status = 1 then Raises o (·.kind = .malformedInput)
    else Raises o (Error.IsNative reply.status)
  | .zstdBound _, word, o => Sized L.errorName false word o
  | .zstdCompress .., reply, o => Sized L.errorName false reply.result o
  | .zstdDecompress .., reply, o => Sized L.errorName true reply.result o
  | .zstdContentSize _, size, o => Counts size o
  | .zstdFrameSize _, word, o => Passes L.errorName word o
  | _, _, _ => True

/-- Nothing has happened but calls whose reply decides nothing. -/
def Silent (w w' : World σ) : Prop :=
  ∃ new, w'.events = new ++ w.events ∧
    ∀ c site reply, Event.called c site reply ∈ new → ¬ c.decides = true

/-- Since a world, the calls whose reply decides were all asked for, the outcome is what every such
reply means, and it is no success without such a call unless there was one before. -/
def Heard (L : Libraries σ) (ask : Call → Prop) (before : Prop) (w w' : World σ)
    (o : Except Error Answer) : Prop :=
  ∃ new, w'.events = new ++ w.events ∧
    (∀ c site reply, Event.called c site reply ∈ new → c.decides = true →
      ask c ∧ c.Tells L reply o) ∧
    ((∃ a, o = .ok a) → before ∨ ∃ c site reply, Event.called c site reply ∈ new ∧ ask c)

private theorem Silent.of_events {w w' : World σ} (h : w'.events = w.events) : Silent w w' :=
  ⟨[], h, fun _ _ _ hin => absurd hin List.not_mem_nil⟩

private theorem Silent.trans {w w' w'' : World σ} (h : Silent w w') (h' : Silent w' w'') :
    Silent w w'' := by
  obtain ⟨new, hnew, hsilent⟩ := h
  obtain ⟨later, hlater, hsilent'⟩ := h'
  refine ⟨later ++ new, ?_, ?_⟩
  · rw [hlater, hnew, List.append_assoc]
  · intro c site reply hin
    rcases List.mem_append.mp hin with hin | hin
    · exact hsilent' c site reply hin
    · exact hsilent c site reply hin

section Heard

variable {L : Libraries σ} {ask : Call → Prop} {before : Prop} {w w' w'' : World σ}
  {o : Except Error Answer}

private theorem Heard.of_silent (h : Silent w w') (ho : (∃ a, o = .ok a) → before) :
    Heard L ask before w w' o := by
  obtain ⟨new, hnew, hsilent⟩ := h
  refine ⟨new, hnew, ?_, fun hok => Or.inl (ho hok)⟩
  intro c site reply hin hc
  exact absurd hc (hsilent c site reply hin)

private theorem Heard.after (h : Silent w w') (h' : Heard L ask before w' w'' o) :
    Heard L ask before w w'' o := by
  obtain ⟨new, hnew, hsilent⟩ := h
  obtain ⟨later, hlater, htells, hasked⟩ := h'
  refine ⟨later ++ new, ?_, ?_, ?_⟩
  · rw [hlater, hnew, List.append_assoc]
  · intro c site reply hin hc
    rcases List.mem_append.mp hin with hin | hin
    · exact htells c site reply hin hc
    · exact absurd hc (hsilent c site reply hin)
  · intro hok
    refine (hasked hok).imp_right ?_
    rintro ⟨c, site, reply, hin, hc⟩
    exact ⟨c, site, reply, List.mem_append_left _ hin, hc⟩

private theorem Heard.then (h : Heard L ask before w w' o) (h' : Silent w' w'') :
    Heard L ask before w w'' o := by
  obtain ⟨new, hnew, htells, hasked⟩ := h
  obtain ⟨later, hlater, hsilent⟩ := h'
  refine ⟨later ++ new, ?_, ?_, ?_⟩
  · rw [hlater, hnew, List.append_assoc]
  · intro c site reply hin hc
    rcases List.mem_append.mp hin with hin | hin
    · exact absurd hc (hsilent c site reply hin)
    · exact htells c site reply hin hc
  · intro hok
    refine (hasked hok).imp_right ?_
    rintro ⟨c, site, reply, hin, hc⟩
    exact ⟨c, site, reply, List.mem_append_right _ hin, hc⟩

private theorem Heard.call {c : Call} {site : Site} {reply : c.Reply}
    (hw : w'.events = .called c site reply :: w.events) (hc : ask c) (ht : c.Tells L reply o)
    (h : Heard L ask True w' w'' o) : Heard L ask before w w'' o := by
  obtain ⟨new, hnew, htells, -⟩ := h
  refine ⟨new ++ [.called c site reply], ?_, ?_, ?_⟩
  · rw [hnew, hw, List.append_assoc]
    rfl
  · intro c' site' reply' hin hc'
    rcases List.mem_append.mp hin with hin | hin
    · exact htells c' site' reply' hin hc'
    · -- the type of a reply depends on its call, so both are identified at once
      cases List.mem_singleton.mp hin
      exact ⟨hc, ht⟩
  · intro _
    exact Or.inr ⟨c, site, reply, List.mem_append_right _ (List.mem_singleton_self _), hc⟩

end Heard

namespace Op

/-- An operation that makes no call whose reply decides anything. -/
def Mute (x : Op σ α) : Prop := ∀ w, Silent w (x.run w).2

/-- From the worlds of some kind, an operation comes to what every reply it gets means. -/
def Heeds (L : Libraries σ) (ask : Call → Prop) (before : Prop) (P : World σ → Prop)
    (g : α → Answer) (x : Op σ α) : Prop :=
  ∀ w, P w → Heard L ask before w (x.run w).2 ((x.run w).1.map g)

section Mute

variable {x : Op σ α} {L : Libraries σ}

theorem Mute.of_events (h : ∀ w, (x.run w).2.events = w.events) : Mute x :=
  fun w => Silent.of_events (h w)

theorem Mute.bind {f : α → Op σ β} (hx : Mute x) (hf : ∀ a, Mute (f a)) : Mute (x >>= f) := by
  intro w
  have h := hx w
  rw [run_bind]
  rcases hr : x.run w with ⟨e | a, w'⟩
  · rw [hr] at h
    exact h
  · rw [hr] at h
    exact h.trans (hf a w')

theorem Mute.pure (a : α) : Mute (Pure.pure a : Op σ α) := Mute.of_events fun _ => rfl

theorem Mute.throw (e : Error) : Mute (MonadExcept.throw e : Op σ α) := Mute.of_events fun _ => rfl

theorem Mute.throw_bind (e : Error) (f : β → Op σ α) :
    Mute ((MonadExcept.throw e : Op σ β) >>= f) :=
  Mute.of_events fun w => by rw [run_bind_error (run_throw e w)]

theorem Mute.ofExcept (o : Except Error α) : Mute (Op.ofExcept o : Op σ α) :=
  Mute.of_events fun _ => rfl

theorem Mute.ite {c : Prop} [Decidable c] {y : Op σ α} (hx : Mute x) (hy : Mute y) :
    Mute (if c then x else y) := by
  split
  · exact hx
  · exact hy

theorem Mute.map (g : α → β) (hx : Mute x) : Mute (g <$> x) := by
  intro w
  rw [run_map]
  exact hx w

theorem Mute.ensuring {closing : Op σ Unit} (hx : Mute x) (hc : Mute closing) :
    Mute (ensuring x closing) :=
  fun w => (hx w).trans (hc (x.run w).2)

theorem Mute.call {c : Call} {site : Site} (hc : c.decides = false) : Mute (Op.call L c site) := by
  intro w
  rcases hr : L.answer c w.libraries with ⟨e | reply, s⟩
  · rw [run_call_error hr]
    exact Silent.of_events rfl
  · rw [run_call_ok hr]
    refine ⟨[.called c site reply], rfl, ?_⟩
    intro c' site' reply' hin
    rw [(Event.called.inj (List.mem_singleton.mp hin)).1, hc]
    exact Bool.false_ne_true

theorem mute_note (gravity : Gravity) (text : String) : Mute (note gravity text : Op σ Unit) := by
  intro w
  refine ⟨[.noted ⟨gravity, text⟩], rfl, ?_⟩
  intro c site reply hin
  exact absurd (List.mem_singleton.mp hin) (by simp)

theorem mute_setCell (index n : Nat) : Mute (setCell index n : Op σ Unit) := by
  refine Mute.of_events fun w => ?_
  unfold setCell
  rw [run_of]
  split
  · rfl
  · rfl

theorem mute_bind (a : Algorithm) : Mute (Op.bind L a) := by
  intro w
  obtain ⟨new, hnew, hnone⟩ := uncalled_bind L a w
  exact ⟨new, hnew, fun c site reply hin => absurd hin (hnone c site reply)⟩

end Mute

theorem Spec.succeed {P R : World σ → Prop} {Q : Except Error β → World σ → Prop} {x : Op σ α}
    {a : α} {f : α → Op σ β} (hx : Spec P x fun o w => o = .ok a ∧ R w) (hf : Spec R (f a) Q) :
    Spec P (x >>= f) Q := by
  intro w hw
  obtain ⟨hok, hR⟩ := hx w hw
  rw [run_bind_ok (Prod.ext hok rfl)]
  exact hf _ hR

section Heeds

variable {L : Libraries σ} {ask : Call → Prop} {before : Prop} {P : World σ → Prop}
  {g : α → Answer} {x : Op σ α}

theorem Mute.heeds (hx : Mute x) (h : before) : Heeds L ask before P g x :=
  fun w _ => Heard.of_silent (hx w) fun _ => h

private theorem heard_error {w w' : World σ} {e : Error} (h : Silent w w') :
    Heard L ask before w w' ((.error e : Except Error α).map g) :=
  Heard.of_silent h fun ⟨_, ha⟩ => absurd ha (by simp [Except.map])

theorem Heeds.throw (e : Error) : Heeds L ask before P g (MonadExcept.throw e : Op σ α) :=
  fun _ _ => heard_error (Silent.of_events rfl)

theorem Heeds.throw_bind (e : Error) (f : β → Op σ α) :
    Heeds L ask before P g ((MonadExcept.throw e : Op σ β) >>= f) := by
  intro w hw
  rw [run_bind_error (run_throw e w)]
  exact Heeds.throw e w hw

theorem Heeds.ite {c : Prop} [Decidable c] {y : Op σ α} (hx : Heeds L ask before P g x)
    (hy : Heeds L ask before P g y) : Heeds L ask before P g (if c then x else y) := by
  split
  · exact hx
  · exact hy

/-- A step without such a call comes before the rest, which starts in what it leaves. -/
theorem Heeds.bind {z : Op σ β} {R : β → World σ → Prop} {f : β → Op σ α} (hz : Mute z)
    (hv : Spec P z fun o w => ∀ b, o = .ok b → R b w)
    (hf : ∀ b, Heeds L ask before (R b) g (f b)) : Heeds L ask before P g (z >>= f) := by
  intro w hw
  have hsilent := hz w
  have hvalue := hv w hw
  rw [run_bind]
  rcases hr : z.run w with ⟨e | b, w'⟩
  · rw [hr] at hsilent
    exact heard_error hsilent
  · rw [hr] at hsilent hvalue
    exact Heard.after hsilent (hf b w' (hvalue b rfl))

private theorem Heeds.look {z : Op σ β} {R : β → Prop} {f : β → Op σ α} (hz : ∀ w, (z.run w).2 = w)
    (hv : Gives R z) (hf : ∀ b, R b → Heeds L ask before P g (f b)) :
    Heeds L ask before P g (z >>= f) := by
  refine Heeds.bind (R := fun b w => R b ∧ P w) (Mute.of_events fun w => by rw [hz]) ?_ ?_
  · intro w hw b hb
    rw [hz]
    exact ⟨hv w b hb, hw⟩
  · intro b w ⟨hb, hw⟩
    exact hf b hb w hw

theorem Heeds.outcome {o : Except Error β} {f : β → Op σ α}
    (hf : ∀ b, o = .ok b → Heeds L ask before P g (f b)) :
    Heeds L ask before P g (Op.ofExcept o >>= f) :=
  Heeds.look (fun _ => rfl) (fun _ _ h => h) hf

theorem Heeds.source {r : Range} {f : Source → Op σ α}
    (hf : ∀ bytes, Heeds L ask before P g (f ⟨r.length, bytes⟩)) :
    Heeds L ask before P g (Op.source r >>= f) := by
  refine Heeds.look (R := fun s => s.length = r.length) (fun _ => rfl) ?_ ?_
  · intro w s hs
    rw [← Except.ok.inj hs]
  · rintro ⟨length, bytes⟩ rfl
    exact hf bytes

theorem Heeds.range {f : Range → Op σ α} (a : Argument)
    (hf : ∀ src, Heeds L ask before P g (f src)) :
    Heeds L ask before P g (Op.input a >>= f) :=
  Heeds.look (R := fun _ => True) (fun _ => rfl) (fun _ _ _ => trivial) fun src _ => hf src

theorem Heeds.ranges {f : Range → Range → Op σ α} (a b : Argument)
    (hf : ∀ src dst, Heeds L ask before P g (f src dst)) :
    Heeds L ask before P g (Op.input a >>= fun src => Op.output b >>= f src) :=
  Heeds.range a fun src =>
    Heeds.look (R := fun _ => True) (fun _ => rfl) (fun _ _ _ => trivial) fun dst _ => hf src dst

/-- A call whose reply decides comes before the rest, which is true to the reply. -/
theorem Heeds.call {c : Call} {site : Site} {f : c.Reply → Op σ α} (hc : ask c)
    (hP : ∀ w s events, P w → P { w with libraries := s, events := events })
    (hf : ∀ reply, Heeds L ask True P g (f reply))
    (ht : ∀ reply s s', L.answer c s = (.ok reply, s') →
      Spec P (f reply) fun o _ => c.Tells L reply (o.map g)) :
    Heeds L ask before P g (Op.call L c site >>= f) := by
  intro w hw
  rcases hr : L.answer c w.libraries with ⟨e | reply, s⟩
  · rw [run_bind_error (run_call_error hr)]
    exact heard_error (Silent.of_events rfl)
  · rw [run_bind_ok (run_call_ok hr)]
    have hw' := hP w s (.called c site reply :: w.events) hw
    exact Heard.call rfl hc (ht reply _ s hr _ hw') (hf reply _ hw')

theorem Heeds.map {h : β → α} {y : Op σ β} (hy : Heeds L ask before P (fun b => g (h b)) y) :
    Heeds L ask before P g (h <$> y) := by
  intro w hw
  have hheard := hy w hw
  rw [run_map]
  rcases hr : (y.run w).1 with e | b
  · rw [hr] at hheard
    exact hheard
  · rw [hr] at hheard
    exact hheard

theorem Heeds.mono {P' : World σ → Prop} (hx : Heeds L ask before P g x)
    (hp : ∀ w, P' w → P w) : Heeds L ask before P' g x :=
  fun w hw => hx w (hp w hw)

theorem Heeds.ensuring {closing : Op σ Unit} (hx : Heeds L ask before P g x)
    (hm : Mute closing) (hc : ∀ w, (closing.run w).1 = .ok ()) :
    Heeds L ask before P g (ensuring x closing) := by
  intro w hw
  rw [run_ensuring, hc]
  exact Heard.then (hx w hw) (hm _)

end Heeds

end Op

end Native

end NativeCodec
