import NativeCodec.Codec.Lz4
import NativeCodec.Native.System
import NativeCodec.Proofs.Memory.Kinds

set_option autoImplicit false
set_option relaxedAutoImplicit false

namespace NativeCodec.Native

open Codec.Lz4 (intMax)

variable {σ α β : Type}

/-- Libraries behind functions with typed parameters: a call is answered if its numbers fit and is
refused if one of them does not. The room that LZ4 asks for is a number of 32 bits itself, and
binding the LZ4 library does not fail for a number that is too large. -/
structure Libraries.Typed (L : Libraries σ) : Prop where
  answers : ∀ c s, c.fits = true → ∃ reply s', L.answer c s = (.ok reply, s')
  refuses : ∀ c s, c.fits = false → ∃ s', L.answer c s = (.error .tooLarge, s')
  bounds : ∀ n (room : Int) s s', L.answer (.lz4Bound n) s = (.ok room, s') → room ≤ intMax
  binds : ∀ s e, (L.bind .lz4 s).1.outcome = .error e → e.kind ≠ .overflow

/-- Binding the LZ4 library has not failed for a number that is too large. -/
def World.Loads (w : World σ) : Prop :=
  ∀ e, (w.bindings .lz4).settled = some (.error e) → e.kind ≠ .overflow

theorem World.Loads.of_unsettled {w : World σ} (h : (w.bindings .lz4).settled = none) :
    w.Loads :=
  fun _ he => absurd (h.symm.trans he) (by simp)

def CallsOnly (ask : Call → Prop) (w w' : World σ) : Prop :=
  ∃ new, w'.events = new ++ w.events ∧ ∀ c site reply, Event.called c site reply ∈ new → ask c

section CallsOnly

variable {ask : Call → Prop} {w w₁ w₂ : World σ}

theorem CallsOnly.of_events (h : w₁.events = w.events) : CallsOnly ask w w₁ :=
  ⟨[], h, fun _ _ _ hin => absurd hin List.not_mem_nil⟩

private theorem CallsOnly.trans (h₁ : CallsOnly ask w w₁) (h₂ : CallsOnly ask w₁ w₂) :
    CallsOnly ask w w₂ := by
  obtain ⟨new, hnew, hask⟩ := h₁
  obtain ⟨later, hlater, hask'⟩ := h₂
  refine ⟨later ++ new, ?_, ?_⟩
  · rw [hlater, hnew, List.append_assoc]
  · intro c site reply hin
    exact (List.mem_append.mp hin).elim (hask' c site reply) (hask c site reply)

private theorem CallsOnly.mono {ask' : Call → Prop} (h : CallsOnly ask w w₁)
    (hask : ∀ c, ask c → ask' c) :
    CallsOnly ask' w w₁ := by
  obtain ⟨new, hnew, hcalls⟩ := h
  exact ⟨new, hnew, fun c site reply hin => hask c (hcalls c site reply hin)⟩

end CallsOnly

/-- A value of some kind, or an error of another kind than a number that is too large. -/
def Safe (R : α → Prop) : Except Error α → Prop
  | .ok a => R a
  | .error e => e.kind ≠ .overflow

theorem Safe.map {R : α → Prop} {o : Except Error α} (h : Safe R o) (f : α → β) :
    Safe (fun _ => True) (o.map f) := by
  cases o with
  | error e => exact h
  | ok a => trivial

private theorem Safe.mono {R R' : α → Prop} {o : Except Error α} (h : Safe R o)
    (hR : ∀ a, R a → R' a) : Safe R' o := by
  cases o with
  | error e => exact h
  | ok a => exact hR a h

/-- Since a world only calls of some kind were made, and what was come to is safe. -/
structure Handed (ask : Call → Prop) (R : α → Prop) (w : World σ)
    (result : Except Error α × World σ) : Prop where
  calls : CallsOnly ask w result.2
  safe : Safe R result.1
  loads : result.2.Loads

private theorem Handed.quiet {ask : Call → Prop} {R : α → Prop} {w : World σ}
    {result : Except Error α × World σ} (hw : w.Loads) (hb : result.2.bindings = w.bindings)
    (he : result.2.events = w.events) (ho : Safe R result.1) : Handed ask R w result where
  calls := CallsOnly.of_events he
  safe := ho
  loads := by
    unfold World.Loads
    rw [hb]
    exact hw

namespace Op

/-- An operation that makes only calls of some kind, and that comes to a value of some kind or to
an error of another kind than a number that is too large. -/
def Hands (ask : Call → Prop) (R : α → Prop) (x : Op σ α) : Prop :=
  ∀ w, w.Loads → Handed ask R w (x.run w)

section Rules

variable {ask : Call → Prop} {R : α → Prop} {Q : β → Prop} {x : Op σ α}

theorem Handed.bind {f : α → Op σ β} {w : World σ} (hx : Handed ask R w (x.run w))
    (hf : ∀ a, R a → Hands ask Q (f a)) : Handed ask Q w ((x >>= f).run w) := by
  obtain ⟨hcalls, hsafe, hloads⟩ := hx
  rw [run_bind]
  rcases hr : x.run w with ⟨e | a, w'⟩
  · rw [hr] at hcalls hsafe hloads
    exact ⟨hcalls, hsafe, hloads⟩
  · rw [hr] at hcalls hsafe hloads
    have hrest := hf a hsafe w' hloads
    exact ⟨hcalls.trans hrest.calls, hrest.safe, hrest.loads⟩

private theorem Hands.quiet (hb : ∀ w, (x.run w).2.bindings = w.bindings)
    (he : ∀ w, (x.run w).2.events = w.events) (ho : ∀ w, Safe R (x.run w).1) : Hands ask R x :=
  fun w hw => Handed.quiet hw (hb w) (he w) (ho w)

theorem Hands.bind {f : α → Op σ β} (hx : Hands ask R x)
    (hf : ∀ a, R a → Hands ask Q (f a)) : Hands ask Q (x >>= f) :=
  fun w hw => Handed.bind (hx w hw) hf

theorem Hands.pure {a : α} (h : R a) : Hands ask R (Pure.pure a : Op σ α) :=
  Hands.quiet (fun _ => rfl) (fun _ => rfl) fun _ => h

theorem Hands.throw {e : Error} (h : e.kind ≠ .overflow) :
    Hands ask R (MonadExcept.throw e : Op σ α) :=
  Hands.quiet (fun _ => rfl) (fun _ => rfl) fun _ => h

theorem Hands.throw_bind {e : Error} (h : e.kind ≠ .overflow) (f : α → Op σ β) :
    Hands ask Q ((MonadExcept.throw e : Op σ α) >>= f) :=
  Hands.bind (R := fun _ => False) (Hands.throw h) fun _ hnever => hnever.elim

theorem Hands.ofExcept {o : Except Error α} (h : Safe R o) :
    Hands ask R (Op.ofExcept o : Op σ α) :=
  Hands.quiet (fun _ => rfl) (fun _ => rfl) fun _ => h

theorem Hands.ite {c : Prop} [Decidable c] {y : Op σ α} (hx : c → Hands ask R x)
    (hy : ¬ c → Hands ask R y) : Hands ask R (if c then x else y) := by
  split
  · next hc => exact hx hc
  · next hc => exact hy hc

theorem Hands.mono {ask' : Call → Prop} {R' : α → Prop} (hx : Hands ask R x)
    (hask : ∀ c, ask c → ask' c) (hR : ∀ a, R a → R' a) : Hands ask' R' x := by
  intro w hw
  obtain ⟨hcalls, hsafe, hloads⟩ := hx w hw
  exact ⟨hcalls.mono hask, hsafe.mono hR, hloads⟩

theorem hands_source (r : Range) :
    Hands ask (fun source => source.length = r.length) (source r : Op σ Source) :=
  Hands.quiet (fun _ => rfl) (fun _ => rfl) fun _ => rfl

theorem hands_note (gravity : Gravity) (text : String) :
    Hands ask (fun _ => True) (note gravity text : Op σ Unit) := by
  intro w hw
  refine ⟨⟨[.noted ⟨gravity, text⟩], rfl, ?_⟩, trivial, hw⟩
  intro c site reply hin
  exact absurd (List.mem_singleton.mp hin) (by simp)

end Rules

section Library

variable {ask : Call → Prop} {L : Libraries σ} (hL : L.Typed)

include hL

theorem hands_call {c : Call} (site : Site) (hc : c.fits = true) (hask : ask c) :
    Hands ask (fun reply => ∃ s s', L.answer c s = (.ok reply, s')) (Op.call L c site) := by
  intro w hw
  obtain ⟨reply, s', hanswer⟩ := hL.answers c w.libraries hc
  rw [run_call_ok hanswer]
  refine ⟨⟨[.called c site reply], rfl, ?_⟩, ⟨_, _, hanswer⟩, hw⟩
  intro c' site' reply' hin
  obtain rfl := (Event.called.inj (List.mem_singleton.mp hin)).1
  exact hask

theorem hands_bind : Hands ask (fun _ => True) (Op.bind L .lz4) := by
  intro w hw
  obtain ⟨new, hnew, hnone⟩ := uncalled_bind L .lz4 w
  refine ⟨⟨new, hnew, fun c site reply hin => absurd hin (hnone c site reply)⟩, ?_, ?_⟩
  · cases hs : (w.bindings .lz4).settled with
    | some outcome =>
      rw [run_bind_settled hs]
      cases outcome with
      | ok k => trivial
      | error e => exact hw e hs
    | none =>
      rw [run_bind_first hs]
      dsimp only
      rcases hr : (L.bind .lz4 w.libraries).1.outcome with e | k
      · exact hL.binds w.libraries e hr
      · trivial
  · intro e he
    rcases settled_of_bind he with hold | ⟨-, hcame⟩
    · exact hw e hold
    · exact hL.binds w.libraries e hcame

end Library

section Memory

variable {ask : Call → Prop}

theorem safe_checkBounds (offset : Int) (length : Option Int) (size : Nat) :
    Safe (fun _ => True) (checkBounds offset length size) := by
  cases h : checkBounds offset length size with
  | ok b => trivial
  | error e =>
    change e.kind ≠ .overflow
    rw [kind_of_checkBounds_error h]
    decide

private theorem safe_source? (m : Memory) (a : Argument) : Safe (fun _ => True) (a.source? m) := by
  cases h : a.source? m with
  | ok r => trivial
  | error e =>
    change e.kind ≠ .overflow
    rw [(Argument.range?_of_source_error h).1]
    decide

theorem hands_input (a : Argument) : Hands ask (fun _ => True) (input a : Op σ Range) :=
  Hands.quiet (fun _ => rfl) (fun _ => rfl) fun w => safe_source? w.memory a

private theorem safe_checkSize (m : Memory) {size : Int} (h : size < countLimit) :
    Safe (fun _ => True) (m.checkSize size) := by
  unfold Memory.checkSize
  split
  · exact nofun
  · rw [if_neg (by omega)]
    split
    · exact nofun
    · trivial

theorem hands_scratch {size : Int} (h : size < countLimit) :
    Hands ask (fun dst => dst.length < countLimit) (scratch size : Op σ Range) := by
  have hlength : size.toNat < countLimit := by
    unfold countLimit at h ⊢
    omega
  refine Hands.bind (R := fun _ => True) (fun w hw => ?_) fun place _ => Hands.pure hlength
  have hsafe : Safe (fun _ => True) (w.memory.allocate size) := (safe_checkSize _ h).map _
  unfold allocate
  rw [run_of]
  cases hr : w.memory.allocate size with
  | error e =>
    rw [hr] at hsafe
    exact Handed.quiet hw rfl rfl hsafe
  | ok p => exact Handed.quiet hw rfl rfl trivial

theorem hands_firstBytes (r : Range) (count : Nat) :
    Hands ask (fun _ => True) (firstBytes r count : Op σ Bytes) :=
  Hands.quiet (fun _ => rfl) (fun _ => rfl) fun _ => trivial

theorem hands_bytes (r : Range) : Hands ask (fun _ => True) (bytes r : Op σ Bytes) :=
  Hands.quiet (fun _ => rfl) (fun _ => rfl) fun _ => trivial

theorem hands_write (p : Pointer) (data : Bytes) :
    Hands ask (fun _ => True) (write p data : Op σ Unit) :=
  Hands.quiet (fun _ => rfl) (fun _ => rfl) fun _ => trivial

theorem hands_store (r : Range) (capacity : Nat) (written : Bytes) :
    Hands ask (fun _ => True) (store r capacity written : Op σ Unit) :=
  hands_write r.start (written.take capacity)

end Memory

end Op

end NativeCodec.Native
