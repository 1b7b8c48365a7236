import NativeCodec.Proofs.Context.Ledger
import NativeCodec.Proofs.Operation

set_option autoImplicit false
set_option relaxedAutoImplicit false

namespace NativeCodec.Native

variable {σ α β : Type}

/-- The functions that free contexts always come back, whatever state the libraries are in. -/
def Libraries.FreesAlways (L : Libraries σ) : Prop :=
  ∀ d handle s, ∃ s', L.answer (.freeContext d handle) s = (.ok (), s')

namespace Op

def Holding (held : List Lease) (w : World σ) : Prop := Balanced held w.events

abbrev Balances (held : List Lease) (x : Op σ α) : Prop := Keeps (Holding held) x

/-- What is live after an operation whose value owns contexts. -/
def After (held : List Lease) (owned : α → List Lease) : Except Error α → World σ → Prop
  | .ok a => Holding (owned a ++ held)
  | .error _ => Holding held

/-- Beside what is live before an operation, what its value owns is live after it. -/
abbrev Yields (held : List Lease) (owned : α → List Lease) (x : Op σ α) : Prop :=
  Spec (Holding held) x (After held owned)

variable {held : List Lease} {owned : α → List Lease} {x : Op σ α} {L : Libraries σ}

theorem Spec.ensuring {P I J : World σ → Prop} {closing : Op σ Unit}
    (hx : Spec P x fun _ => J) (hc : Spec J closing fun _ => I) :
    Spec P (ensuring x closing) fun _ => I := by
  intro w hw
  rw [run_ensuring]
  exact hc _ (hx w hw)

theorem Spec.discard {P I : World σ → Prop} (hx : Spec P x fun _ => I) :
    Spec P (discard x) fun _ => I := by
  intro w hw
  rw [run_discard]
  exact hx w hw

theorem Holding.congr {held' : List Lease} {w : World σ} (h : Holding held w)
    (hp : held.Perm held') : Holding held' w :=
  Balanced.congr h hp

private theorem Balances.of_events (h : ∀ w, (x.run w).2.events = w.events) : Balances held x := by
  intro w hw
  unfold Holding
  rw [h]
  exact hw

private theorem Balances.call {c : Call} {site : Site}
    (ho : ∀ reply, (Event.called c site reply).opened? = none) (hc : c.closes? = none)
    (hu : ∀ lease, c.uses? = some lease → lease ∈ held) : Balances held (Op.call L c site) := by
  intro w hw
  rcases hr : L.answer c w.libraries with ⟨e | reply, s⟩
  · rw [run_call_error hr]
    exact hw
  · rw [run_call_ok hr]
    exact Balanced.skip hw (ho reply) hc hu

theorem Balances.plain {c : Call} {site : Site}
    (ho : ∀ reply, (Event.called c site reply).opened? = none) (hc : c.closes? = none)
    (hu : c.uses? = none) : Balances held (Op.call L c site) := by
  refine Balances.call ho hc ?_
  intro lease huse
  rw [hu] at huse
  exact absurd huse (by simp)

theorem Balances.using {c : Call} {site : Site} {lease : Lease}
    (ho : ∀ reply, (Event.called c site reply).opened? = none) (hc : c.closes? = none)
    (hu : c.uses? = some lease) (hlease : lease ∈ held) : Balances held (Op.call L c site) := by
  refine Balances.call ho hc ?_
  intro lease' huse
  rw [hu] at huse
  rwa [← Option.some.inj huse]

section Primitive

theorem balances_note (gravity : Gravity) (text : String) :
    Balances held (note gravity text : Op σ Unit) := by
  intro w hw
  exact Balanced.skip hw rfl rfl (fun _ h => absurd h (by simp [Event.used?]))

private theorem balances_input (a : Argument) : Balances held (input a : Op σ Range) :=
  Balances.of_events fun _ => rfl

private theorem balances_output (a : Argument) : Balances held (output a : Op σ Range) :=
  Balances.of_events fun _ => rfl

theorem Balances.range {f : Range → Op σ α} (hf : ∀ src, Balances held (f src)) (a : Argument) :
    Balances held (input a >>= f) :=
  Keeps.bind (balances_input a) hf

theorem Balances.ranges {f : Range → Range → Op σ α} (hf : ∀ src dst, Balances held (f src dst))
    (a b : Argument) : Balances held (input a >>= fun src => output b >>= f src) :=
  Keeps.bind (balances_input a) fun src => Keeps.bind (balances_output b) (hf src)

theorem balances_source (r : Range) : Balances held (source r : Op σ Source) :=
  Balances.of_events fun _ => rfl

theorem balances_bytes (r : Range) : Balances held (bytes r : Op σ Bytes) :=
  Balances.of_events fun _ => rfl

theorem balances_store (r : Range) (capacity : Nat) (written : Bytes) :
    Balances held (store r capacity written : Op σ Unit) :=
  Balances.of_events fun _ => rfl

theorem balances_firstBytes (r : Range) (count : Nat) :
    Balances held (firstBytes r count : Op σ Bytes) :=
  Balances.of_events fun _ => rfl

theorem balances_newCell : Balances held (newCell : Op σ Nat) :=
  Balances.of_events fun _ => rfl

theorem balances_cell (index : Nat) : Balances held (cell index : Op σ Nat) :=
  Balances.of_events fun _ => rfl

theorem balances_setCell (index n : Nat) : Balances held (setCell index n : Op σ Unit) := by
  refine Balances.of_events fun w => ?_
  unfold setCell
  rw [run_of]
  split
  · rfl
  · rfl

private theorem balances_allocate (size : Int) : Balances held (allocate size : Op σ Nat) := by
  refine Balances.of_events fun w => ?_
  unfold allocate
  rw [run_of]
  split
  · rfl
  · rfl

theorem balances_scratch (size : Int) : Balances held (scratch size : Op σ Range) :=
  Keeps.bind (balances_allocate size) fun _ => Keeps.pure _

private theorem Holding.noted {w w' : World σ} (hw : Holding held w) (notes : List Event)
    (hnotes : ∀ e ∈ notes, ∃ n, e = .noted n) (h : w'.events = notes ++ w.events) :
    Holding held w' := by
  unfold Holding
  rw [h]
  clear h
  induction notes with
  | nil => exact hw
  | cons e notes ih =>
    obtain ⟨n, rfl⟩ := hnotes e (List.mem_cons_self ..)
    exact (ih fun e he => hnotes e (List.mem_cons_of_mem _ he)).skip rfl rfl
      (fun _ h => absurd h (by simp [Event.used?]))

theorem balances_bind (a : Algorithm) : Balances held (Op.bind L a) := by
  intro w hw
  cases hs : (w.bindings a).settled with
  | some outcome =>
    rw [run_bind_settled hs]
    exact hw
  | none =>
    rw [run_bind_first hs]
    have hbound : Holding held { w with events := .bound a :: w.events } :=
      Balanced.skip hw rfl rfl (fun _ h => absurd h (by simp [Event.used?]))
    refine hbound.noted _ ?_ rfl
    intro e he
    obtain ⟨symbol, -, rfl⟩ := List.mem_map.mp (List.mem_reverse.mp he)
    exact ⟨_, rfl⟩

end Primitive

section Yielding

theorem Yields.pure {a : α} (h : owned a = []) : Yields held owned (Pure.pure a : Op σ α) := by
  intro w hw
  change Holding (owned a ++ held) w
  rw [h]
  exact hw

theorem Balances.yields (hx : Balances held x) : Yields held (fun _ => []) x := by
  refine Spec.mono hx (fun _ h => h) ?_
  rintro (e | a) w h
  · exact h
  · exact h

/-- A step that owns nothing comes before one whose value does. -/
theorem Yields.after {y : Op σ β} {f : β → Op σ α} (hy : Balances held y)
    (hf : ∀ b, Yields held owned (f b)) : Yields held owned (y >>= f) :=
  Spec.bind hy hf fun _ _ h => h

theorem Yields.map {owned' : β → List Lease} {g : α → β} (hx : Yields held owned x)
    (hg : ∀ a, owned' (g a) = owned a) : Yields held owned' (g <$> x) := by
  intro w hw
  have h := hx w hw
  rw [run_map]
  rcases hr : x.run w with ⟨e | a, w'⟩
  · rw [hr] at h
    exact h
  · rw [hr] at h
    change Holding (owned' (g a) ++ held) w'
    rw [hg]
    exact h

theorem Yields.throw (e : Error) : Yields held owned (MonadExcept.throw e : Op σ α) :=
  fun _ hw => hw

/-- What a value owns is given up after the last use of it. -/
theorem Balances.of_yields {f : α → Op σ β} (hx : Yields held owned x)
    (hf : ∀ a, Spec (Holding (owned a ++ held)) (f a) fun _ => Holding held) :
    Balances held (x >>= f) :=
  Spec.bind hx hf fun _ _ h => h

end Yielding

end Op

end NativeCodec.Native
