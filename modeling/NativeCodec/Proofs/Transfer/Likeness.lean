import NativeCodec.Proofs.Memory.Destination

set_option autoImplicit false
set_option relaxedAutoImplicit false

namespace NativeCodec.Native

variable {σ α β γ δ : Type}

def Event.placeless : Event → Event
  | .called c _ reply => .called c {} reply
  | .bound a => .bound a
  | .noted n => .noted n

/-- The same happened since two points in the past, but for the places of the memory. -/
def SameSince (past past' events events' : List Event) : Prop :=
  ∃ new new', events = new ++ past ∧ events' = new' ++ past' ∧
    new'.map Event.placeless = new.map Event.placeless

/-- Two worlds with the same libraries, bindings, length cells and limit of memory, in which the
same happened. -/
structure Alike (past past' : List Event) (w w' : World σ) : Prop where
  libraries_eq : w'.libraries = w.libraries
  bindings_eq : w'.bindings = w.bindings
  cells_eq : w'.cells = w.cells
  same : SameSince past past' w.events w'.events
  limit_eq : w'.memory.limit = w.memory.limit

private theorem SameSince.cons {past past' events events' : List Event} {e e' : Event}
    (h : SameSince past past' events events') (he : e'.placeless = e.placeless) :
    SameSince past past' (e :: events) (e' :: events') := by
  obtain ⟨new, new', hnew, hnew', hsame⟩ := h
  refine ⟨e :: new, e' :: new', by rw [hnew]; rfl, by rw [hnew']; rfl, ?_⟩
  rw [List.map_cons, List.map_cons, he, hsame]

private theorem SameSince.append {past past' events events' : List Event}
    (h : SameSince past past' events events') (more : List Event) :
    SameSince past past' (more ++ events) (more ++ events') := by
  induction more with
  | nil => exact h
  | cons e more ih => exact ih.cons rfl

abbrev Views := Memory → Memory → Prop

/-- How two operations can end together: with values or with errors. -/
inductive Ends (Q : α → β → Views) (E : Error → Error → Views) (m m' : Memory) :
    Except Error α → Except Error β → Prop
  | ok {a : α} {b : β} (h : Q a b m m') : Ends Q E m m' (.ok a) (.ok b)
  | error {e e' : Error} (h : E e e' m m') : Ends Q E m m' (.error e) (.error e')

private theorem Ends.mono {Q Q' : α → β → Views} {E E' : Error → Error → Views} {m m' : Memory}
    {o : Except Error α} {o' : Except Error β} (h : Ends Q E m m' o o')
    (hq : ∀ a b, Q a b m m' → Q' a b m m') (he : ∀ e e', E e e' m m' → E' e e' m m') :
    Ends Q' E' m m' o o' := by
  cases h with
  | ok h => exact .ok (hq _ _ h)
  | error h => exact .error (he _ _ h)

namespace Op

/-- Two operations keep alike worlds alike and end together. -/
def Twin (M : Views) (x : Op σ α) (y : Op σ β) (Q : α → β → Views) (E : Error → Error → Views) :
    Prop :=
  ∀ past past' w w', Alike past past' w w' → M w.memory w'.memory →
    Alike past past' (x.run w).2 (y.run w').2 ∧
      Ends Q E (x.run w).2.memory (y.run w').2.memory (x.run w).1 (y.run w').1

abbrev Same (M : Views) (a b : α) : Views := fun m m' => b = a ∧ M m m'

/-- The same error may come of both operations where memory is like this. -/
def Admits (M : Views) (E : Error → Error → Views) : Prop := ∀ e m m', M m m' → E e e m m'

theorem eq_of_ends {N : Views} {m m' : Memory} {o o' : Except Error α}
    (h : Ends (Same N) (Same N) m m' o o') : o' = o ∧ N m m' := by
  cases h with
  | ok h =>
    obtain ⟨rfl, hm⟩ := h
    exact ⟨rfl, hm⟩
  | error h =>
    obtain ⟨rfl, hm⟩ := h
    exact ⟨rfl, hm⟩

/-- Two operations come to the same value or the same error, and then memory is like this. -/
abbrev Agree (M : Views) (x y : Op σ α) (N : Views) : Prop := Twin M x y (Same N) (Same N)

/-- An operation does the same in alike worlds, whatever is in memory, and leaves that alone. -/
def Blind (x : Op σ α) : Prop := ∀ M, Agree M x x M

section Admits

variable {M N : Views}

theorem admits_same (h : ∀ m m', M m m' → N m m') : Admits M (Same N) :=
  fun _ _ _ hm => ⟨rfl, h _ _ hm⟩

theorem admits_self : Admits M (Same M) := admits_same fun _ _ => id

theorem admits_right : Admits (fun m m' => M m m' ∧ N m m') (Same N) :=
  admits_same fun _ _ => And.right

end Admits

section Twin

variable {M M' : Views} {E E' : Error → Error → Views} {Q Q' : α → β → Views} {x : Op σ α}
  {y : Op σ β}

theorem Twin.mono (h : Twin M x y Q E) (hm : ∀ m m', M' m m' → M m m')
    (hq : ∀ a b m m', Q a b m m' → Q' a b m m')
    (he : ∀ e e' m m', E e e' m m' → E' e e' m m') : Twin M' x y Q' E' := by
  intro past past' w w' halike hw
  obtain ⟨hafter, hends⟩ := h past past' w w' halike (hm _ _ hw)
  exact ⟨hafter, hends.mono (fun a b => hq a b _ _) fun e e' => he e e' _ _⟩

theorem Twin.assume {p : Prop} (hp : ∀ m m', M m m' → p) (h : p → Twin M x y Q E) :
    Twin M x y Q E :=
  fun past past' w w' halike hw => h (hp _ _ hw) past past' w w' halike hw

theorem Twin.bind {R : α → β → Views} {Q : γ → δ → Views} {f : α → Op σ γ} {g : β → Op σ δ}
    (hx : Twin M x y R E) (hf : ∀ a b, Twin (R a b) (f a) (g b) Q E) :
    Twin M (x >>= f) (y >>= g) Q E := by
  intro past past' w w' halike hw
  obtain ⟨hafter, hends⟩ := hx past past' w w' halike hw
  rw [run_bind, run_bind]
  rcases hr : x.run w with ⟨o, v⟩
  rcases hr' : y.run w' with ⟨o', v'⟩
  rw [hr, hr'] at hafter hends
  cases hends with
  | ok h => exact hf _ _ past past' v v' hafter h
  | error h => exact ⟨hafter, .error h⟩

theorem Twin.pure {a : α} {b : β} (h : ∀ m m', M m m' → Q a b m m') :
    Twin M (Pure.pure a : Op σ α) (Pure.pure b : Op σ β) Q E :=
  fun _ _ _ _ halike hw => ⟨halike, .ok (h _ _ hw)⟩

theorem Twin.throw {e e' : Error} (h : ∀ m m', M m m' → E e e' m m') :
    Twin M (MonadExcept.throw e : Op σ α) (MonadExcept.throw e' : Op σ β) Q E :=
  fun _ _ _ _ halike hw => ⟨halike, .error (h _ _ hw)⟩

theorem Twin.throw_bind {e : Error} {f : γ → Op σ α} {g : γ → Op σ β} (he : Admits M E) :
    Twin M ((MonadExcept.throw e : Op σ γ) >>= f) ((MonadExcept.throw e : Op σ γ) >>= g) Q E := by
  intro past past' w w' halike hw
  rw [run_bind_error (run_throw e w), run_bind_error (run_throw e w')]
  exact ⟨halike, .error (he e _ _ hw)⟩

theorem Twin.ite {c : Prop} [Decidable c] {x' : Op σ α} {y' : Op σ β} (hx : Twin M x y Q E)
    (hy : Twin M x' y' Q E) : Twin M (if c then x else x') (if c then y else y') Q E := by
  split
  · exact hx
  · exact hy

theorem Twin.tryCatch {handle : Error → Op σ α} {handle' : Error → Op σ β}
    (hx : Twin M x y Q E') (hh : ∀ e e', Twin (E' e e') (handle e) (handle' e') Q E) :
    Twin M (tryCatch x handle) (tryCatch y handle') Q E := by
  intro past past' w w' halike hw
  obtain ⟨hafter, hends⟩ := hx past past' w w' halike hw
  rw [run_tryCatch, run_tryCatch]
  rcases hr : x.run w with ⟨o, v⟩
  rcases hr' : y.run w' with ⟨o', v'⟩
  rw [hr, hr'] at hafter hends
  cases hends with
  | ok h => exact ⟨hafter, .ok h⟩
  | error h => exact hh _ _ past past' v v' hafter h

theorem Twin.ensuring {N : Views} {closing : Op σ Unit} (hx : Twin M x y Q (Same N))
    (hc : Blind closing) (hq : ∀ a b m m', Q a b m m' → N m m') :
    Twin M (ensuring x closing) (ensuring y closing) Q (Same N) := by
  intro past past' w w' halike hw
  obtain ⟨hafter, hends⟩ := hx past past' w w' halike hw
  rw [run_ensuring, run_ensuring]
  rcases hr : x.run w with ⟨o, v⟩
  rcases hr' : y.run w' with ⟨o', v'⟩
  rw [hr, hr'] at hafter hends
  -- how the first operations ended is what the closing one keeps
  obtain ⟨hclosed, hclosing⟩ :=
    hc (fun m m' => Ends Q (Same N) m m' o o') past past' v v' hafter hends
  dsimp only
  rcases hs : closing.run v with ⟨u, z⟩
  rcases hs' : closing.run v' with ⟨u', z'⟩
  rw [hs, hs'] at hclosed hclosing
  refine ⟨hclosed, ?_⟩
  cases hclosing with
  | ok h => exact h.2
  | error h =>
    obtain ⟨rfl, hended⟩ := h
    refine .error ⟨rfl, ?_⟩
    cases hended with
    | ok h => exact hq _ _ _ _ h
    | error h => exact h.2

theorem Twin.bind_same {N : Views} {x y : Op σ γ} {f : γ → Op σ α} {g : γ → Op σ β}
    (hx : Twin M x y (Same N) E) (hf : ∀ c, Twin N (f c) (g c) Q E) :
    Twin M (x >>= f) (y >>= g) Q E := by
  refine Twin.bind hx fun c c' => ?_
  rintro past past' w w' halike ⟨rfl, hw⟩
  exact hf c' past past' w w' halike hw

theorem Twin.map_same {N : Views} {x y : Op σ γ} (g : γ → α) (hx : Twin M x y (Same N) E) :
    Twin M (g <$> x) (g <$> y) (Same N) E :=
  Twin.bind_same hx fun _ => Twin.pure fun _ _ h => ⟨rfl, h⟩

/-- A step that looks at nothing that differs comes before the rest. -/
theorem Twin.after {x : Op σ γ} {f : γ → Op σ α} {g : γ → Op σ β} (hx : Blind x)
    (hf : ∀ c, Twin M (f c) (g c) Q E) (he : Admits M E) : Twin M (x >>= f) (x >>= g) Q E := by
  refine Twin.bind_same ((hx M).mono (fun _ _ => id) (fun _ _ _ _ => id) ?_) hf
  rintro e e' m m' ⟨rfl, hw⟩
  exact he e' m m' hw

end Twin

section Blind

variable {x : Op σ α} {L : Libraries σ}

theorem Blind.bind {f : α → Op σ β} (hx : Blind x) (hf : ∀ a, Blind (f a)) : Blind (x >>= f) :=
  fun M => Twin.after hx (fun a => hf a M) admits_self

theorem Blind.pure (a : α) : Blind (Pure.pure a : Op σ α) :=
  fun _ => Twin.pure fun _ _ h => ⟨rfl, h⟩

theorem Blind.throw (e : Error) : Blind (MonadExcept.throw e : Op σ α) :=
  fun _ => Twin.throw fun _ _ h => ⟨rfl, h⟩

theorem Blind.throw_bind (e : Error) (f : β → Op σ α) :
    Blind ((MonadExcept.throw e : Op σ β) >>= f) :=
  fun _ => Twin.throw_bind admits_self

theorem Blind.ofExcept (o : Except Error α) : Blind (Op.ofExcept o : Op σ α) := by
  cases o with
  | error e => exact Blind.throw e
  | ok a => exact Blind.pure a

theorem Blind.ite {c : Prop} [Decidable c] {y : Op σ α} (hx : Blind x) (hy : Blind y) :
    Blind (if c then x else y) :=
  fun M => Twin.ite (hx M) (hy M)

theorem Blind.map (g : α → β) (hx : Blind x) : Blind (g <$> x) :=
  Blind.bind hx fun _ => Blind.pure _

theorem Blind.discard (hx : Blind x) : Blind (discard x) := Blind.map (fun _ => ()) hx

theorem twin_call (c : Call) (site site' : Site) (M : Views) :
    Agree M (call L c site) (call L c site') M := by
  intro past past' w w' halike hw
  rcases hr : L.answer c w.libraries with ⟨e | reply, s⟩
  · rw [run_call_error hr, run_call_error (halike.libraries_eq ▸ hr)]
    exact ⟨⟨rfl, halike.bindings_eq, halike.cells_eq, halike.same, halike.limit_eq⟩,
      .error ⟨rfl, hw⟩⟩
  · rw [run_call_ok hr, run_call_ok (halike.libraries_eq ▸ hr)]
    exact ⟨⟨rfl, halike.bindings_eq, halike.cells_eq, halike.same.cons rfl, halike.limit_eq⟩,
      .ok ⟨rfl, hw⟩⟩

theorem Blind.call (c : Call) (site : Site) : Blind (Op.call L c site) := twin_call c site site

theorem blind_note (gravity : Gravity) (text : String) : Blind (note gravity text : Op σ Unit) :=
  fun _ _ _ _ _ halike hw =>
    ⟨⟨halike.libraries_eq, halike.bindings_eq, halike.cells_eq, halike.same.cons rfl,
        halike.limit_eq⟩,
      .ok ⟨rfl, hw⟩⟩

theorem blind_checkSize (size : Int) : Blind (checkSize size : Op σ Nat) := by
  intro M past past' w w' halike hw
  refine ⟨halike, ?_⟩
  unfold checkSize
  rw [run_of, run_of, Memory.checkSize_congr halike.limit_eq]
  cases w.memory.checkSize size with
  | error e => exact .error ⟨rfl, hw⟩
  | ok count => exact .ok ⟨rfl, hw⟩

theorem blind_newCell : Blind (newCell : Op σ Nat) := by
  intro M past past' w w' halike hw
  refine ⟨⟨halike.libraries_eq, halike.bindings_eq, ?_, halike.same, halike.limit_eq⟩,
    .ok ⟨?_, hw⟩⟩
  · exact congrArg (fun cells => cells ++ [0]) halike.cells_eq
  · exact congrArg List.length halike.cells_eq

theorem blind_cell (index : Nat) : Blind (cell index : Op σ Nat) := by
  intro M past past' w w' halike hw
  exact ⟨halike, .ok ⟨congrArg (fun cells => cells.getD index 0) halike.cells_eq, hw⟩⟩

theorem blind_setCell (index n : Nat) : Blind (setCell index n : Op σ Unit) := by
  intro M past past' w w' halike hw
  unfold setCell
  rw [run_of, run_of]
  split
  · exact ⟨halike, .error ⟨rfl, hw⟩⟩
  · refine ⟨⟨halike.libraries_eq, halike.bindings_eq, ?_, halike.same, halike.limit_eq⟩,
      .ok ⟨rfl, hw⟩⟩
    exact congrArg (fun cells => cells.set index n) halike.cells_eq

theorem blind_bind (a : Algorithm) : Blind (Op.bind L a) := by
  intro M past past' w w' halike hw
  have hb := halike.bindings_eq
  have hl := halike.libraries_eq
  cases hs : (w.bindings a).settled with
  | some outcome =>
    rw [run_bind_settled hs, run_bind_settled ((congrArg (fun b => (b a).settled) hb).trans hs)]
    refine ⟨halike, ?_⟩
    cases outcome with
    | error e => exact .error ⟨rfl, hw⟩
    | ok constants => exact .ok ⟨rfl, hw⟩
  | none =>
    rw [run_bind_first hs, run_bind_first ((congrArg (fun b => (b a).settled) hb).trans hs), hb, hl]
    refine ⟨⟨?_, rfl, halike.cells_eq, ?_, halike.limit_eq⟩, ?_⟩
    · change (L.bind a w'.libraries).2 = (L.bind a w.libraries).2
      rw [hl]
    · change SameSince past past' (_ ++ .bound a :: w.events) (_ ++ .bound a :: w'.events)
      rw [hl]
      exact (halike.same.cons rfl).append _
    · cases (L.bind a w.libraries).1.outcome with
      | error e => exact .error ⟨rfl, hw⟩
      | ok constants => exact .ok ⟨rfl, hw⟩

end Blind

end Op

end NativeCodec.Native
