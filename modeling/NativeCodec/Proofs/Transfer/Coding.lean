import NativeCodec.Proofs.Memory.Window
import NativeCodec.Proofs.Operation

set_option autoImplicit false
set_option relaxedAutoImplicit false

namespace NativeCodec.Native

variable {σ α β : Type}

def Call.codes : Call → Bool
  | .lz4Compress .. | .lz4Decompress .. => true
  | .snappyCompress .. | .snappyDecompress .. => true
  | .zstdCompress .. | .zstdDecompress .. | .zstdStream .. => true
  | _ => false

def Event.coding? : Event → Option (Call × Site)
  | .called c site _ => if c.codes then some (c, site) else none
  | _ => none

/-- The coding calls among what happened, the last first. -/
def codings (events : List Event) : List (Call × Site) := events.filterMap Event.coding?

/-- Memory and coding calls are as before, and no length cell is gone. -/
structure Still (w w' : World σ) : Prop where
  memory_eq : w'.memory = w.memory
  codings_eq : codings w'.events = codings w.events
  cells_le : w.cells.length ≤ w'.cells.length

/-- What may have changed: memory in some way, and one coding call of some form at most. -/
structure Conduct (touch : Memory → Memory → Prop) (allowed : Call → Site → Prop)
    (w w' : World σ) : Prop where
  memory : touch w.memory w'.memory
  codings : codings w'.events = codings w.events ∨
    ∃ call site, allowed call site ∧ Native.codings w'.events = (call, site) :: codings w.events

private theorem Still.refl (w : World σ) : Still w w := ⟨rfl, rfl, Nat.le_refl _⟩

private theorem Still.trans {w w' w'' : World σ} (h : Still w w') (h' : Still w' w'') :
    Still w w'' :=
  ⟨h'.memory_eq.trans h.memory_eq, h'.codings_eq.trans h.codings_eq,
    Nat.le_trans h.cells_le h'.cells_le⟩

namespace Op

/-- An operation that makes no coding call and leaves memory as it is. -/
def Quiet (x : Op σ α) : Prop := ∀ w, Still w (x.run w).2

/-- An operation that makes no coding call and changes memory inside a range at most. -/
def Tidy (r : Range) (x : Op σ α) : Prop := ∀ w, Conduct (Memory.SameOutside r)
  (fun _ _ => False) w (x.run w).2

/-- From the worlds of some kind, an operation makes at most one coding call, of an allowed form,
and changes memory in an allowed way. -/
def Confines (P : World σ → Prop) (touch : Memory → Memory → Prop) (allowed : Call → Site → Prop)
    (x : Op σ α) : Prop := ∀ w, P w → Conduct touch allowed w (x.run w).2

/-- A world has some memory, and length cells enough. -/
structure Stands (m : Memory) (cells : Nat) (w : World σ) : Prop where
  memory_eq : w.memory = m
  cells_le : cells ≤ w.cells.length

section Quiet

variable {x : Op σ α} {L : Libraries σ}

theorem Quiet.still (hx : Quiet x) {w w' : World σ} {o : Except Error α}
    (h : x.run w = (o, w')) : Still w w' := by
  have hstill := hx w
  rw [h] at hstill
  exact hstill

theorem Quiet.bind {f : α → Op σ β} (hx : Quiet x) (hf : ∀ a, Quiet (f a)) : Quiet (x >>= f) := by
  intro w
  have h := hx w
  rw [run_bind]
  rcases hr : x.run w with ⟨e | a, w'⟩
  · rw [hr] at h
    exact h
  · rw [hr] at h
    exact h.trans (hf a w')

theorem Quiet.pure (a : α) : Quiet (Pure.pure a : Op σ α) := Still.refl

theorem Quiet.throw (e : Error) : Quiet (MonadExcept.throw e : Op σ α) := Still.refl

theorem Quiet.ofExcept (o : Except Error α) : Quiet (Op.ofExcept o : Op σ α) := Still.refl

theorem Quiet.throw_bind (e : Error) (f : β → Op σ α) :
    Quiet ((MonadExcept.throw e : Op σ β) >>= f) := by
  intro w
  rw [run_bind_error (run_throw e w)]
  exact Still.refl w

theorem Quiet.map (g : α → β) (hx : Quiet x) : Quiet (g <$> x) := by
  intro w
  rw [run_map]
  exact hx w

theorem Quiet.discard (hx : Quiet x) : Quiet (discard x) := by
  intro w
  rw [run_discard]
  exact hx w

theorem Quiet.ite {c : Prop} [Decidable c] {y : Op σ α} (hx : Quiet x) (hy : Quiet y) :
    Quiet (if c then x else y) := by
  split
  · exact hx
  · exact hy

theorem Quiet.call {c : Call} (site : Site) (hc : c.codes = false) : Quiet (Op.call L c site) := by
  intro w
  rcases hr : L.answer c w.libraries with ⟨e | reply, s⟩
  · rw [run_call_error hr]
    exact ⟨rfl, rfl, Nat.le_refl _⟩
  · rw [run_call_ok hr]
    refine ⟨rfl, ?_, Nat.le_refl _⟩
    exact List.filterMap_cons_none (by simp [Event.coding?, hc])

theorem quiet_note (gravity : Gravity) (text : String) : Quiet (note gravity text : Op σ Unit) :=
  fun _ => ⟨rfl, rfl, Nat.le_refl _⟩

theorem quiet_input (a : Argument) : Quiet (input a : Op σ Range) := Still.refl

theorem quiet_output (a : Argument) : Quiet (output a : Op σ Range) := Still.refl

private theorem quiet_source (r : Range) : Quiet (source r : Op σ Source) := Still.refl

theorem quiet_bytes (r : Range) : Quiet (bytes r : Op σ Bytes) := Still.refl

theorem quiet_cell (index : Nat) : Quiet (cell index : Op σ Nat) := Still.refl

theorem quiet_newCell : Quiet (newCell : Op σ Nat) := by
  intro w
  refine ⟨rfl, rfl, ?_⟩
  change w.cells.length ≤ (w.cells ++ [0]).length
  rw [List.length_append]
  exact Nat.le_add_right _ _

theorem quiet_setCell (index n : Nat) : Quiet (setCell index n : Op σ Unit) := by
  intro w
  unfold setCell
  rw [run_of]
  split
  · exact Still.refl w
  · exact ⟨rfl, rfl, Nat.le_of_eq List.length_set.symm⟩

theorem quiet_bind (a : Algorithm) : Quiet (Op.bind L a) := by
  intro w
  cases hs : (w.bindings a).settled with
  | some outcome =>
    rw [run_bind_settled hs]
    exact Still.refl w
  | none =>
    rw [run_bind_first hs]
    refine ⟨rfl, ?_, Nat.le_refl _⟩
    have hnotes (notes : List Event) (h : ∀ e ∈ notes, Event.coding? e = none) :
        codings notes = [] := List.filterMap_eq_nil_iff.mpr h
    change codings (_ ++ .bound a :: w.events) = _
    unfold codings at hnotes ⊢
    rw [List.filterMap_append, hnotes, List.nil_append]
    · rfl
    · intro e he
      obtain ⟨symbol, -, rfl⟩ := List.mem_map.mp (List.mem_reverse.mp he)
      rfl

end Quiet

section Tidy

variable {r : Range} {x : Op σ α}

theorem Quiet.tidy (hx : Quiet x) (r : Range) : Tidy r x := by
  intro w
  refine ⟨?_, Or.inl (hx w).codings_eq⟩
  rw [(hx w).memory_eq]
  exact Memory.SameOutside.refl r w.memory

private theorem Tidy.codings_eq (hx : Tidy r x) (w : World σ) :
    codings (x.run w).2.events = codings w.events :=
  (hx w).codings.resolve_right fun ⟨_, _, hno, _⟩ => hno

theorem Tidy.bind {f : α → Op σ β} (hx : Tidy r x) (hf : ∀ a, Tidy r (f a)) :
    Tidy r (x >>= f) := by
  intro w
  have hmemory := (hx w).memory
  have hcodings := hx.codings_eq w
  rw [run_bind]
  rcases hr : x.run w with ⟨e | a, w'⟩
  · rw [hr] at hmemory hcodings
    exact ⟨hmemory, Or.inl hcodings⟩
  · rw [hr] at hmemory hcodings
    exact ⟨hmemory.trans (hf a w').memory, Or.inl (((hf a).codings_eq w').trans hcodings)⟩

theorem tidy_write {data : Bytes} (h : data.length ≤ r.length) :
    Tidy r (write r.start data : Op σ Unit) :=
  fun w => ⟨Memory.sameOutside_write r w.memory h, Or.inl rfl⟩

theorem tidy_store {capacity : Nat} (h : capacity ≤ r.length) (written : Bytes) :
    Tidy r (store r capacity written : Op σ Unit) :=
  tidy_write (Nat.le_trans (List.length_take_le _ _) h)

theorem tidy_ofExcept_bind {β : Type} {o : Except Error β} {f : β → Op σ α}
    (hf : ∀ b, o = .ok b → Tidy r (f b)) : Tidy r (ofExcept o >>= f) := by
  intro w
  cases ho : o with
  | error e =>
    rw [run_bind_error (run_ofExcept _ w)]
    exact (Quiet.throw e).tidy r w
  | ok b =>
    rw [run_ofExcept_bind rfl]
    exact hf b ho w

end Tidy

section Confines

variable {P : World σ → Prop} {touch touch' : Memory → Memory → Prop}
  {allowed allowed' : Call → Site → Prop} {x : Op σ α} {r : Range}

theorem Confines.mono (hx : Confines P touch allowed x) (ht : ∀ m m', touch m m' → touch' m m')
    (ha : ∀ c site, allowed c site → allowed' c site) : Confines P touch' allowed' x := by
  intro w hw
  obtain ⟨hmemory, hcodings⟩ := hx w hw
  refine ⟨ht _ _ hmemory, ?_⟩
  rcases hcodings with hsame | ⟨c, site, hallowed, hone⟩
  · exact Or.inl hsame
  · exact Or.inr ⟨c, site, ha c site hallowed, hone⟩

theorem Confines.of_quiet (hx : Quiet x) (ht : ∀ m, touch m m) : Confines P touch allowed x := by
  intro w _
  refine ⟨?_, Or.inl (hx w).codings_eq⟩
  rw [(hx w).memory_eq]
  exact ht w.memory

/-- A quiet step of whose value something is known comes before the rest. -/
theorem Confines.bind {R : α → World σ → Prop} {f : α → Op σ β} (hx : Quiet x)
    (hv : Spec P x fun o w => ∀ a, o = .ok a → R a w) (hf : ∀ a, Confines (R a) touch allowed (f a))
    (ht : ∀ m, touch m m) : Confines P touch allowed (x >>= f) := by
  intro w hw
  have hstill := hx w
  have hvalue := hv w hw
  rw [run_bind]
  rcases hr : x.run w with ⟨e | a, w'⟩
  · rw [hr] at hstill
    refine ⟨?_, Or.inl hstill.codings_eq⟩
    dsimp only
    rw [hstill.memory_eq]
    exact ht w.memory
  · rw [hr] at hstill hvalue
    obtain ⟨hmemory, hcodings⟩ := hf a w' (hvalue a rfl)
    rw [hstill.memory_eq] at hmemory
    rw [hstill.codings_eq] at hcodings
    exact ⟨hmemory, hcodings⟩

theorem Confines.then_tidy {f : α → Op σ β} (hx : Confines P (Memory.SameOutside r) allowed x)
    (hf : ∀ a, Tidy r (f a)) : Confines P (Memory.SameOutside r) allowed (x >>= f) := by
  intro w hw
  obtain ⟨hmemory, hcodings⟩ := hx w hw
  rw [run_bind]
  rcases hr : x.run w with ⟨e | a, w'⟩
  · rw [hr] at hmemory hcodings
    exact ⟨hmemory, hcodings⟩
  · rw [hr] at hmemory hcodings
    refine ⟨hmemory.trans (hf a w').memory, ?_⟩
    rw [(hf a).codings_eq w']
    exact hcodings

theorem Confines.map (g : α → β) (hx : Confines P touch allowed x) :
    Confines P touch allowed (g <$> x) := by
  intro w hw
  rw [run_map]
  exact hx w hw

theorem Confines.ensuring {closing : Op σ Unit} (hx : Confines P touch allowed x)
    (hc : Quiet closing) : Confines P touch allowed (ensuring x closing) := by
  intro w hw
  obtain ⟨hmemory, hcodings⟩ := hx w hw
  have hstill := hc (x.run w).2
  rw [run_ensuring]
  refine ⟨?_, ?_⟩
  · dsimp only
    rw [hstill.memory_eq]
    exact hmemory
  · dsimp only
    rw [hstill.codings_eq]
    exact hcodings

theorem Confines.tryCatch {handle : Error → Op σ α} (hx : Confines P touch allowed x)
    (hh : ∀ e, Quiet (handle e)) : Confines P touch allowed (tryCatch x handle) := by
  intro w hw
  have h := hx w hw
  rw [run_tryCatch]
  rcases hr : x.run w with ⟨e | a, w'⟩
  · rw [hr] at h
    obtain ⟨hmemory, hcodings⟩ := h
    have hstill := hh e w'
    refine ⟨?_, ?_⟩
    · dsimp only
      rw [hstill.memory_eq]
      exact hmemory
    · dsimp only
      rw [hstill.codings_eq]
      exact hcodings
  · rw [hr] at h
    exact h

theorem confines_call {L : Libraries σ} {c : Call} {site : Site} (hc : c.codes = true)
    (ha : allowed c site) (ht : ∀ m, touch m m) : Confines P touch allowed (call L c site) := by
  intro w _
  rcases hr : L.answer c w.libraries with ⟨e | reply, s⟩
  · rw [run_call_error hr]
    exact ⟨ht w.memory, Or.inl rfl⟩
  · rw [run_call_ok hr]
    refine ⟨ht w.memory, Or.inr ⟨c, site, ha, ?_⟩⟩
    exact List.filterMap_cons_some (by simp [Event.coding?, hc])

end Confines

section Stands

variable {m : Memory} {cells : Nat} {touch : Memory → Memory → Prop}
  {allowed : Call → Site → Prop} {x : Op σ α} {f : α → Op σ β}

theorem Quiet.stands (hx : Quiet x) : Keeps (Stands m cells) x := by
  intro w hw
  have h := hx w
  exact ⟨h.memory_eq.trans hw.memory_eq, Nat.le_trans hw.cells_le h.cells_le⟩

theorem Confines.after (hx : Quiet x) (hf : ∀ a, Confines (Stands m cells) touch allowed (f a))
    (ht : ∀ m, touch m m) : Confines (Stands m cells) touch allowed (x >>= f) :=
  Confines.bind hx (fun w hw _ _ => hx.stands w hw) hf ht

/-- A quiet step whose value the memory decides. -/
theorem Confines.known {R : α → Prop} (hx : Quiet x)
    (hv : ∀ w a, w.memory = m → (x.run w).1 = .ok a → R a)
    (hf : ∀ a, R a → Confines (Stands m cells) touch allowed (f a)) (ht : ∀ m, touch m m) :
    Confines (Stands m cells) touch allowed (x >>= f) := by
  refine Confines.bind (R := fun a w => R a ∧ Stands m cells w) hx ?_ ?_ ht
  · intro w hw a ha
    exact ⟨hv w a hw.memory_eq ha, hx.stands w hw⟩
  · intro a w ⟨ha, hw⟩
    exact hf a ha w hw

theorem Confines.given {R : α → Prop} (hx : Quiet x) (hp : Gives R x)
    (hf : ∀ a, R a → Confines (Stands m cells) touch allowed (f a)) (ht : ∀ m, touch m m) :
    Confines (Stands m cells) touch allowed (x >>= f) :=
  Confines.known hx (fun w a _ h => hp w a h) hf ht

theorem Confines.source {src : Range} {f : Source → Op σ β}
    (hf : Confines (Stands m cells) touch allowed (f ⟨src.length, m.read? src.start src.length⟩))
    (ht : ∀ m, touch m m) : Confines (Stands m cells) touch allowed (source src >>= f) := by
  refine Confines.known (R := fun s => s = ⟨src.length, m.read? src.start src.length⟩)
    (quiet_source src) ?_ ?_ ht
  · rintro w s rfl hs
    exact (Except.ok.inj hs).symm
  · rintro s rfl
    exact hf

end Stands

end Op

end NativeCodec.Native
