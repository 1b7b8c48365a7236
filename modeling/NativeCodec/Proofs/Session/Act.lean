import NativeCodec.Proofs.Operation
import NativeCodec.Session.Basic

set_option autoImplicit false
set_option relaxedAutoImplicit false

namespace NativeCodec.Act

open Native

variable {σ α β : Type}

theorem run_bind (x : Act σ α) (f : α → Act σ β) (s : Session σ) :
    (x >>= f).run s =
      match x.run s with
      | (.ok a, s) => (f a).run s
      | (.error e, s) => (.error e, s) := by
  simp only [run, ExceptT.run, Bind.bind, ExceptT.bind, ExceptT.mk, StateT.bind]
  rcases x s with ⟨_ | _, _⟩ <;> rfl

theorem run_bind_ok {x : Act σ α} {s s' : Session σ} {a : α} (h : x.run s = (.ok a, s'))
    (f : α → Act σ β) : (x >>= f).run s = (f a).run s' := by
  rw [run_bind, h]

theorem run_bind_error {x : Act σ α} {s s' : Session σ} {e : Error} (h : x.run s = (.error e, s'))
    (f : α → Act σ β) : (x >>= f).run s = (.error e, s') := by
  rw [run_bind, h]

theorem run_discard (x : Act σ α) (s : Session σ) :
    (discard x).run s = ((x.run s).1.map fun _ => (), (x.run s).2) := by
  change (x >>= fun _ => pure ()).run s = _
  rw [run_bind]
  rcases x.run s with ⟨_ | _, _⟩ <;> rfl

@[simp] theorem run_pure (a : α) (s : Session σ) : (pure a : Act σ α).run s = (.ok a, s) := rfl

theorem run_bind_pure (x : Act σ α) (f : α → β) (s : Session σ) :
    (x >>= fun a => pure (f a)).run s = ((x.run s).1.map f, (x.run s).2) := by
  rw [run_bind]
  rcases x.run s with ⟨_ | _, _⟩ <;> rfl

@[simp] theorem run_ofOp (x : Op σ α) (s : Session σ) :
    (ofOp x).run s = ((x.run s.world).1, { s with world := (x.run s.world).2 }) := rfl

theorem run_place_some {name : String} {at_ : Nat} {s : Session σ}
    (h : s.names.lookup name = some at_) : (place name).run s = (.ok at_, s) := by
  simp only [place, of, run, ExceptT.run, h]

theorem run_place_none {name : String} {s : Session σ} (h : s.names.lookup name = none) :
    (place name).run s = (.error (.made .key name none none), s) := by
  simp only [place, of, run, ExceptT.run, h]

@[simp] theorem run_thingAt (place : Nat) (s : Session σ) :
    (thingAt place).run s = (.ok (s.things.getD place (.other "object")), s) := rfl

/-- From every session of the one kind an act comes to an outcome and a session of the other. -/
def Spec (P : Session σ → Prop) (x : Act σ α) (Q : Except Error α → Session σ → Prop) : Prop :=
  ∀ s, P s → Q (x.run s).1 (x.run s).2

/-- An act does not leave the sessions of some kind, whatever becomes of it. -/
def Keeps (I : Session σ → Prop) (x : Act σ α) : Prop := Spec I x fun _ => I

section Rules

variable {P I : Session σ → Prop} {x : Act σ α}

theorem Spec.bind {R : Except Error α → Session σ → Prop} {Q : Except Error β → Session σ → Prop}
    {f : α → Act σ β} (hx : Spec P x R) (hf : ∀ a, Spec (R (.ok a)) (f a) Q)
    (he : ∀ e s, R (.error e) s → Q (.error e) s) : Spec P (x >>= f) Q := by
  intro s hs
  have h := hx s hs
  rw [run_bind]
  rcases hr : x.run s with ⟨e | a, s'⟩
  · rw [hr] at h
    exact he e s' h
  · rw [hr] at h
    exact hf a s' h

theorem Keeps.bind {f : α → Act σ β} (hx : Keeps I x) (hf : ∀ a, Keeps I (f a)) :
    Keeps I (x >>= f) :=
  Spec.bind hx hf fun _ _ h => h

theorem Keeps.pure (a : α) : Keeps I (Pure.pure a : Act σ α) := fun _ h => h

theorem Keeps.ofExcept (o : Except Error α) : Keeps I (Act.ofExcept o : Act σ α) := fun _ h => h

theorem Keeps.memory : Keeps I (Act.memory : Act σ Memory) := fun _ h => h

theorem Keeps.thingAt (place : Nat) : Keeps I (Act.thingAt place : Act σ Thing) := fun _ h => h

theorem Keeps.discard (hx : Keeps I x) : Keeps I (discard x) := by
  intro s hs
  rw [run_discard]
  exact hx s hs

end Rules

end NativeCodec.Act
