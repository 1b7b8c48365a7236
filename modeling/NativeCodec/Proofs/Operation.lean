import NativeCodec.Native.Access

set_option autoImplicit false
set_option relaxedAutoImplicit false

namespace NativeCodec.Native.Op

variable {σ α β : Type}

@[simp] theorem run_pure (a : α) (w : World σ) : (pure a : Op σ α).run w = (.ok a, w) := rfl

@[simp] theorem run_throw (e : Error) (w : World σ) :
    (throw e : Op σ α).run w = (.error e, w) := rfl

@[simp] theorem run_of (f : World σ → Except Error α × World σ) (w : World σ) :
    (of f).run w = f w := rfl

@[simp] theorem run_ofExcept (x : Except Error α) (w : World σ) :
    (ofExcept x).run w = (x, w) := rfl

theorem run_bind (x : Op σ α) (f : α → Op σ β) (w : World σ) :
    (x >>= f).run w =
      match x.run w with
      | (.ok a, w) => (f a).run w
      | (.error e, w) => (.error e, w) := by
  simp only [run, ExceptT.run, Bind.bind, ExceptT.bind, ExceptT.mk, StateT.bind]
  rcases x w with ⟨_ | _, _⟩ <;> rfl

theorem eq_ok_of_toOption {ε : Type} {x : Except ε α} {a : α} (h : x.toOption = some a) :
    x = .ok a := by
  cases x with
  | error e => exact absurd h (by simp [Except.toOption])
  | ok b => exact congrArg Except.ok (Option.some.inj h)

instance [DecidableEq α] : DecidableEq (Except Error α)
  | .ok a, .ok b => decidable_of_iff (a = b) ⟨congrArg Except.ok, Except.ok.inj⟩
  | .error d, .error e => decidable_of_iff (d = e) ⟨congrArg Except.error, Except.error.inj⟩
  | .ok _, .error _ => isFalse (by simp)
  | .error _, .ok _ => isFalse (by simp)

theorem run_bind_ok {x : Op σ α} {w w' : World σ} {a : α} (h : x.run w = (.ok a, w'))
    (f : α → Op σ β) : (x >>= f).run w = (f a).run w' := by
  rw [run_bind, h]

theorem run_bind_error {x : Op σ α} {w w' : World σ} {e : Error} (h : x.run w = (.error e, w'))
    (f : α → Op σ β) : (x >>= f).run w = (.error e, w') := by
  rw [run_bind, h]

theorem run_ofExcept_bind {x : Except Error α} {a : α} (h : x = .ok a) (f : α → Op σ β)
    (w : World σ) : (ofExcept x >>= f).run w = (f a).run w := by
  rw [h]
  exact run_bind_ok (run_ofExcept _ w) f

theorem run_map (g : α → β) (x : Op σ α) (w : World σ) :
    (g <$> x).run w = ((x.run w).1.map g, (x.run w).2) := by
  change (x >>= fun a => pure (g a)).run w = _
  rw [run_bind]
  rcases x.run w with ⟨_ | _, _⟩ <;> rfl

theorem run_discard (x : Op σ α) (w : World σ) :
    (discard x).run w = ((x.run w).1.map fun _ => (), (x.run w).2) := by
  change ((fun _ => ()) <$> x).run w = _
  exact run_map _ x w

theorem run_tryCatch (x : Op σ α) (handle : Error → Op σ α) (w : World σ) :
    (tryCatch x handle).run w =
      match x.run w with
      | (.ok a, w) => (.ok a, w)
      | (.error e, w) => (handle e).run w := by
  simp only [run, ExceptT.run, tryCatch, tryCatchThe, MonadExceptOf.tryCatch, ExceptT.tryCatch,
    ExceptT.mk, Bind.bind, StateT.bind]
  rcases x w with ⟨_ | _, _⟩ <;> rfl

theorem run_ite (c : Prop) [Decidable c] (x y : Op σ α) (w : World σ) :
    (if c then x else y).run w = if c then x.run w else y.run w := by
  split <;> rfl

theorem run_ensuring (x : Op σ α) (closing : Op σ Unit) (w : World σ) :
    (ensuring x closing).run w =
      ((closing.run (x.run w).2).1.bind fun _ => (x.run w).1, (closing.run (x.run w).2).2) := rfl

section Primitive

variable (w : World σ)

@[simp] theorem run_note (gravity : Gravity) (text : String) :
    (note gravity text).run w = (.ok (), { w with events := .noted ⟨gravity, text⟩ :: w.events }) :=
  rfl

theorem run_call_ok {L : Libraries σ} {c : Call} {site : Site} {reply : c.Reply} {s : σ}
    {w : World σ} (h : L.answer c w.libraries = (.ok reply, s)) :
    (call L c site).run w =
      (.ok reply, { w with libraries := s, events := .called c site reply :: w.events }) := by
  simp only [call, run_of, h]

theorem exists_run_call {L : Libraries σ} {c : Call} {reply : c.Reply} {s : σ} {w : World σ}
    (site : Site) (h : L.answer c w.libraries = (.ok reply, s)) :
    ∃ w', (call L c site).run w = (.ok reply, w') ∧ w'.memory = w.memory ∧ w'.libraries = s :=
  ⟨_, run_call_ok h, rfl, rfl⟩

theorem run_call_error {L : Libraries σ} {c : Call} {site : Site} {e : Error} {s : σ}
    {w : World σ} (h : L.answer c w.libraries = (.error e, s)) :
    (call L c site).run w = (.error e, { w with libraries := s }) := by
  simp only [call, run_of, h]

theorem run_bind_settled {L : Libraries σ} {a : Algorithm} {w : World σ}
    {outcome : Except Error Constants} (h : (w.bindings a).settled = some outcome) :
    (Op.bind L a).run w = ((Once.Answer.again outcome).outcome, w) := by
  have hsame : (fun b => if b = a then w.bindings a else w.bindings b) = w.bindings := by
    funext b
    split
    · next hb => rw [hb]
    · rfl
  simp only [Op.bind, run_of, Once.call_of_settled h, hsame]

theorem run_bind_first {L : Libraries σ} {a : Algorithm} {w : World σ}
    (h : (w.bindings a).settled = none) :
    (Op.bind L a).run w = ((L.bind a w.libraries).1.outcome,
      { (runBinding L a w).2 with
        bindings := fun b =>
          if b = a then (w.bindings a).keep (L.bind a w.libraries).1.outcome
          else w.bindings b }) := by
  simp only [Op.bind, run_of, Once.call_of_unsettled h, runBinding]

/-- Binding a library for the first time changes the library and what is kept of the outcome. -/
theorem run_bind_unsettled {L : Libraries σ} {a : Algorithm} {w : World σ}
    (h : (w.bindings a).settled = none) :
    ∃ w', (Op.bind L a).run w = ((L.bind a w.libraries).1.outcome, w') ∧ w'.memory = w.memory ∧
      w'.libraries = (L.bind a w.libraries).2 ∧
      w'.bindings = fun b =>
        if b = a then (w.bindings a).keep (L.bind a w.libraries).1.outcome else w.bindings b :=
  ⟨_, run_bind_first h, rfl, rfl, rfl⟩

theorem settled_of_bind {L : Libraries σ} {a b : Algorithm} {w : World σ}
    {outcome : Except Error Constants}
    (h : (((Op.bind L a).run w).2.bindings b).settled = some outcome) :
    (w.bindings b).settled = some outcome ∨
      b = a ∧ (L.bind a w.libraries).1.outcome = outcome := by
  cases hs : (w.bindings a).settled with
  | some known =>
    rw [run_bind_settled hs] at h
    exact Or.inl h
  | none =>
    rw [run_bind_first hs] at h
    dsimp only at h
    by_cases hb : b = a
    · rw [if_pos hb] at h
      unfold Once.keep at h
      rw [hs] at h
      dsimp only at h
      split at h
      · exact Or.inr ⟨hb, Option.some.inj h⟩
      · exact absurd (hs.symm.trans h) (by simp)
    · rw [if_neg hb] at h
      exact Or.inl h

theorem uncalled_bind (L : Libraries σ) (a : Algorithm) (w : World σ) :
    ∃ new, ((Op.bind L a).run w).2.events = new ++ w.events ∧
      ∀ c site reply, Event.called c site reply ∉ new := by
  cases hs : (w.bindings a).settled with
  | some outcome =>
    rw [run_bind_settled hs]
    exact ⟨[], rfl, fun _ _ _ => List.not_mem_nil⟩
  | none =>
    rw [run_bind_first hs]
    refine ⟨_, List.append_cons _ _ w.events, fun c site reply hin => ?_⟩
    rcases List.mem_append.mp hin with hin | hin
    · obtain ⟨symbol, -, hsymbol⟩ := List.mem_map.mp (List.mem_reverse.mp hin)
      exact absurd hsymbol (by simp)
    · exact absurd (List.mem_singleton.mp hin) (by simp)

@[simp] theorem run_input (a : Argument) : (input a).run w = (a.source? w.memory, w) := rfl

@[simp] theorem run_output (a : Argument) : (output a).run w = (a.destination? w.memory, w) := rfl

@[simp] theorem run_source (r : Range) :
    (source r).run w = (.ok ⟨r.length, w.memory.read? r.start r.length⟩, w) := rfl

@[simp] theorem run_bytes (r : Range) :
    (bytes r).run w = (.ok ((w.memory.read? r.start r.length).getD []), w) := rfl

@[simp] theorem run_store (r : Range) (capacity : Nat) (written : Bytes) :
    (store r capacity written).run w =
      (.ok (), { w with memory := w.memory.write r.start (written.take capacity) }) := rfl

@[simp] theorem run_firstBytes (r : Range) (count : Nat) :
    (firstBytes r count).run w =
      (.ok ((w.memory.read? r.start (min count r.length)).getD []), w) := rfl

end Primitive

/-- From every world of the one kind an operation comes to an outcome and a world of the other. -/
def Spec (P : World σ → Prop) (x : Op σ α) (Q : Except Error α → World σ → Prop) : Prop :=
  ∀ w, P w → Q (x.run w).1 (x.run w).2

/-- An operation does not leave the worlds of some kind, whatever becomes of it. -/
def Keeps (I : World σ → Prop) (x : Op σ α) : Prop := Spec I x fun _ => I

def Gives (P : α → Prop) (x : Op σ α) : Prop := ∀ w a, (x.run w).1 = .ok a → P a

section Rules

variable {P I : World σ → Prop} {x : Op σ α}

theorem Spec.bind {R : Except Error α → World σ → Prop} {Q : Except Error β → World σ → Prop}
    {f : α → Op σ β} (hx : Spec P x R) (hf : ∀ a, Spec (R (.ok a)) (f a) Q)
    (he : ∀ e w, R (.error e) w → Q (.error e) w) : Spec P (x >>= f) Q := by
  intro w hw
  have h := hx w hw
  rw [run_bind]
  rcases hr : x.run w with ⟨e | a, w'⟩
  · rw [hr] at h
    exact he e w' h
  · rw [hr] at h
    exact hf a w' h

theorem Spec.ite {Q : Except Error α → World σ → Prop} {c : Prop} [Decidable c] {y : Op σ α}
    (hx : Spec P x Q) (hy : Spec P y Q) : Spec P (if c then x else y) Q := by
  split
  · exact hx
  · exact hy

theorem Spec.mono {P' : World σ → Prop} {Q Q' : Except Error α → World σ → Prop}
    (hx : Spec P x Q) (hp : ∀ w, P' w → P w) (hq : ∀ o w, Q o w → Q' o w) : Spec P' x Q' :=
  fun w hw => hq _ _ (hx w (hp w hw))

theorem Keeps.bind {f : α → Op σ β} (hx : Keeps I x) (hf : ∀ a, Keeps I (f a)) :
    Keeps I (x >>= f) :=
  Spec.bind hx hf fun _ _ h => h

theorem Keeps.pure (a : α) : Keeps I (Pure.pure a : Op σ α) := fun _ h => h

theorem Keeps.throw (e : Error) : Keeps I (MonadExcept.throw e : Op σ α) := fun _ h => h

theorem Keeps.throw_bind (e : Error) (f : β → Op σ α) :
    Keeps I ((MonadExcept.throw e : Op σ β) >>= f) := by
  intro w hw
  rw [run_bind_error (run_throw e w)]
  exact hw

theorem Keeps.ofExcept (o : Except Error α) : Keeps I (Op.ofExcept o : Op σ α) := fun _ h => h

theorem Keeps.checkSize (size : Int) : Keeps I (Op.checkSize size : Op σ Nat) := fun _ h => h

theorem Keeps.ite {c : Prop} [Decidable c] {y : Op σ α} (hx : Keeps I x) (hy : Keeps I y) :
    Keeps I (if c then x else y) := by
  split
  · exact hx
  · exact hy

theorem Keeps.map (g : α → β) (hx : Keeps I x) : Keeps I (g <$> x) := by
  intro w hw
  rw [run_map]
  exact hx w hw

theorem Gives.bind {R : α → Prop} {Q : β → Prop} {f : α → Op σ β} (hx : Gives R x)
    (hf : ∀ a, R a → Gives Q (f a)) : Gives Q (x >>= f) := by
  intro w b h
  rw [run_bind] at h
  rcases hr : x.run w with ⟨e | a, w'⟩
  · rw [hr] at h
    exact absurd h (by simp)
  · rw [hr] at h
    exact hf a (hx w a (by rw [hr])) w' b h

theorem Gives.after {Q : β → Prop} {f : α → Op σ β} (hf : ∀ a, Gives Q (f a)) :
    Gives Q (x >>= f) :=
  Gives.bind (fun _ _ _ => trivial) fun a (_ : True) => hf a

theorem Gives.pure {Q : α → Prop} {a : α} (h : Q a) : Gives Q (Pure.pure a : Op σ α) := by
  intro w b hb
  rw [← Except.ok.inj hb]
  exact h

theorem Gives.throw (Q : α → Prop) (e : Error) : Gives Q (MonadExcept.throw e : Op σ α) :=
  fun _ _ h => absurd h (by simp)

theorem Gives.throw_bind (Q : α → Prop) (e : Error) (f : β → Op σ α) :
    Gives Q ((MonadExcept.throw e : Op σ β) >>= f) := by
  intro w a h
  rw [run_bind_error (run_throw e w)] at h
  exact absurd h (by simp)

theorem Gives.ite {Q : α → Prop} {c : Prop} [Decidable c] {y : Op σ α} (hx : Gives Q x)
    (hy : Gives Q y) : Gives Q (if c then x else y) := by
  split
  · exact hx
  · exact hy

theorem Gives.map {R : α → Prop} {Q : β → Prop} {g : α → β} (hx : Gives R x)
    (hg : ∀ a, R a → Q (g a)) : Gives Q (g <$> x) :=
  Gives.bind hx fun a ha => Gives.pure (hg a ha)

end Rules

end NativeCodec.Native.Op
