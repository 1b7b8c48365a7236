import NativeCodec.Proofs.Context.Operations
import NativeCodec.Proofs.Native.System

set_option autoImplicit false
set_option relaxedAutoImplicit false

namespace NativeCodec.Native

variable {σ τ α β : Type}

def Call.contextual : Call → Bool
  | .createContext _ | .freeContext .. => true
  | .zstdCompress .. | .zstdDecompress .. | .zstdStream .. => true
  | _ => false

def Call.streams : Call → Bool
  | .zstdStream .. => true
  | _ => false

private theorem Call.streams_of_contextual {c : Call} (h : c.contextual = false) :
    c.streams = false := by
  cases c with
  | zstdStream => exact absurd h (by simp [contextual])
  | _ => rfl

def bothHolding (content : σ → Nat → Option τ) (handle handle' : Nat) (s s' : σ) : Prop :=
  ∃ t, content s handle = some t ∧ content s' handle' = some t

/-- Two answers to the request for a context: none in either run, or contexts that hold the same. -/
inductive SameContext (content : σ → Nat → Option τ) :
    Except Error (Option Nat) × σ → Except Error (Option Nat) × σ → Prop
  | refused (e : Error) (s s' : σ) : SameContext content (.error e, s) (.error e, s')
  | missing (s s' : σ) : SameContext content (.ok none, s) (.ok none, s')
  | created {s s' : σ} {handle handle' : Nat} (h : bothHolding content handle handle' s s') :
      SameContext content (.ok (some handle), s) (.ok (some handle'), s')

/-- Libraries whose answers depend on the arguments and bytes of a call alone, and those of a stream
decoder also on what its own context holds, in all states that they can be in. `content` is what an
open context holds. -/
structure Libraries.Impartial (L : Libraries σ) (sound : σ → Prop) (content : σ → Nat → Option τ) :
    Prop where
  sound_bind : ∀ a s, sound s → sound (L.bind a s).2
  sound_answer : ∀ c s, c.streams = false → sound s → sound (L.answer c s).2
  bind : ∀ a s s', sound s → sound s' → (L.bind a s').1.outcome = (L.bind a s).1.outcome
  answer : ∀ c s s', c.contextual = false → sound s → sound s' →
    (L.answer c s').1 = (L.answer c s).1
  compress : ∀ context context' capacity source level s s', sound s → sound s' →
    (L.answer (.zstdCompress context' capacity source level) s').1 =
      (L.answer (.zstdCompress context capacity source level) s).1
  decompress : ∀ context context' capacity source s s', sound s → sound s' →
    (L.answer (.zstdDecompress context' capacity source) s').1 =
      (L.answer (.zstdDecompress context capacity source) s).1
  create : ∀ d s s', sound s → sound s' →
    SameContext content (L.answer (.createContext d) s) (L.answer (.createContext d) s')
  stream : ∀ context context' room written source consumed s s', sound s → sound s' →
    bothHolding content context context' s s' →
    let (answer, s) := L.answer (.zstdStream context room written source consumed) s
    let (answer', s') := L.answer (.zstdStream context' room written source consumed) s'
    answer' = answer ∧ sound s ∧ sound s' ∧ bothHolding content context context' s s'
  free : L.FreesAlways

def Event.contextless : Event → Event
  | .called (.createContext d) site reply =>
    .called (.createContext d) site (Option.map (fun _ => 0) reply)
  | .called (.freeContext d _) site reply => .called (.freeContext d 0) site reply
  | .called (.zstdCompress _ capacity source level) site reply =>
    .called (.zstdCompress 0 capacity source level) site reply
  | .called (.zstdDecompress _ capacity source) site reply =>
    .called (.zstdDecompress 0 capacity source) site reply
  | .called (.zstdStream _ room written source consumed) site reply =>
    .called (.zstdStream 0 room written source consumed) site reply
  | e => e

/-- A call that passes a length cell finds the capacity of its destination there, or 0 if it has
none. -/
def Call.Primed : Call → Prop
  | .snappyCompress _ capacity cell => cell = capacity
  | .snappyDecompress _ capacity cell => cell = capacity
  | .snappyLength _ cell => cell = 0
  | _ => True

/-- What happened, as far as it was a call, passed a length cell with what belongs there. -/
def Event.Primed : Event → Prop
  | .called c _ _ => c.Primed
  | _ => True

theorem Event.primed_contextless {e : Event} (h : e.Primed) : e.contextless.Primed := by
  cases e with
  | called c site reply => cases c <;> exact h
  | bound a => exact trivial
  | noted n => exact trivial

/-- How a world stands between operations: the libraries are in a state that they can be in, and
what is bound is what binding comes to. -/
structure Steady (L : Libraries σ) (sound : σ → Prop) (w : World σ) : Prop where
  libraries : sound w.libraries
  genuine : ∀ a outcome, (w.bindings a).settled = some outcome → ∀ s, sound s →
    (L.bind a s).1.outcome = outcome

/-- What was settled stays so, and no length cell is gone. -/
structure Since (w₀ w : World σ) : Prop where
  settled : ∀ a outcome, (w₀.bindings a).settled = some outcome →
    (w.bindings a).settled = some outcome
  cells_le : w₀.cells.length ≤ w.cells.length

theorem Since.refl (w : World σ) : Since w w := ⟨fun _ _ h => h, Nat.le_refl _⟩

theorem Since.trans {w₀ w w' : World σ} (h : Since w₀ w) (h' : Since w w') : Since w₀ w' :=
  ⟨fun a outcome hs => h'.settled a outcome (h.settled a outcome hs),
    Nat.le_trans h.cells_le h'.cells_le⟩

/-- Two runs: the libraries, the states that these can be in, and the two worlds at the start. -/
structure Runs (σ : Type) where
  library : Libraries σ
  sound : σ → Prop
  here : World σ
  there : World σ

/-- Memory is the same in both runs, and the same happened but for the handles of contexts. -/
structure Runs.Abreast (R : Runs σ) (w w' : World σ) : Prop where
  steady : Steady R.library R.sound w
  steady' : Steady R.library R.sound w'
  since : Since R.here w
  since' : Since R.there w'
  memory_eq : w'.memory = w.memory
  events_eq : w'.events.map Event.contextless = w.events.map Event.contextless
  primed : ∀ e ∈ w.events, e.Primed

abbrev Links (σ : Type) := World σ → World σ → Prop

def unknown : Links σ := fun _ _ => True

def bothHold (index index' n : Nat) : Links σ :=
  fun w w' => w.cells.getD index 0 = n ∧ w'.cells.getD index' 0 = n

/-- A context of either run is open, and they hold the same. -/
def bothKeep (content : σ → Nat → Option τ) (context context' : Nat) : Links σ :=
  fun w w' => bothHolding content context context' w.libraries w'.libraries

/-- What is known of two worlds is known from their length cells. -/
def Links.OfCells (X : Links σ) : Prop :=
  ∀ w w' v v', v.cells = w.cells → v'.cells = w'.cells → X w w' → X v v'

theorem unknown_ofCells : (unknown : Links σ).OfCells := fun _ _ _ _ _ _ _ => trivial

theorem bothHold_ofCells (index index' n : Nat) : (bothHold index index' n : Links σ).OfCells := by
  intro w w' v v' hv hv' h
  exact ⟨hv.symm ▸ h.1, hv'.symm ▸ h.2⟩

namespace Runs.Abreast

variable {R : Runs σ} {w w' : World σ} (h : R.Abreast w w')

include h

private theorem write (p : Pointer) (data : Bytes) :
    R.Abreast { w with memory := w.memory.write p data }
      { w' with memory := w'.memory.write p data } where
  steady := ⟨h.steady.libraries, h.steady.genuine⟩
  steady' := ⟨h.steady'.libraries, h.steady'.genuine⟩
  since := ⟨h.since.settled, h.since.cells_le⟩
  since' := ⟨h.since'.settled, h.since'.cells_le⟩
  memory_eq := congrArg (fun m => m.write p data) h.memory_eq
  events_eq := h.events_eq
  primed := h.primed

theorem refused {s s' : σ} (hs : R.sound s) (hs' : R.sound s') :
    R.Abreast { w with libraries := s } { w' with libraries := s' } where
  steady := ⟨hs, h.steady.genuine⟩
  steady' := ⟨hs', h.steady'.genuine⟩
  since := ⟨h.since.settled, h.since.cells_le⟩
  since' := ⟨h.since'.settled, h.since'.cells_le⟩
  memory_eq := h.memory_eq
  events_eq := h.events_eq
  primed := h.primed

theorem event {e e' : Event} (he : e'.contextless = e.contextless) (hp : e.Primed) :
    R.Abreast { w with events := e :: w.events } { w' with events := e' :: w'.events } where
  steady := ⟨h.steady.libraries, h.steady.genuine⟩
  steady' := ⟨h.steady'.libraries, h.steady'.genuine⟩
  since := ⟨h.since.settled, h.since.cells_le⟩
  since' := ⟨h.since'.settled, h.since'.cells_le⟩
  memory_eq := h.memory_eq
  events_eq := by rw [List.map_cons, List.map_cons, he, h.events_eq]
  primed := by
    intro e hmem
    rcases List.mem_cons.mp hmem with rfl | hmem
    · exact hp
    · exact h.primed e hmem

private theorem setCell (index index' n n' : Nat) :
    R.Abreast { w with cells := w.cells.set index n }
      { w' with cells := w'.cells.set index' n' } where
  steady := ⟨h.steady.libraries, h.steady.genuine⟩
  steady' := ⟨h.steady'.libraries, h.steady'.genuine⟩
  since := ⟨h.since.settled, Nat.le_trans h.since.cells_le (Nat.le_of_eq List.length_set.symm)⟩
  since' := ⟨h.since'.settled, Nat.le_trans h.since'.cells_le (Nat.le_of_eq List.length_set.symm)⟩
  memory_eq := h.memory_eq
  events_eq := h.events_eq
  primed := h.primed

end Runs.Abreast

namespace Op

/-- From worlds that are abreast, and of which something more is known, two operations come to the
same outcome and leave the worlds abreast. -/
def Even (R : Runs σ) (X : Links σ) (x y : Op σ α) : Prop :=
  ∀ w w', R.Abreast w w' → X w w' →
    (y.run w').1 = (x.run w).1 ∧ R.Abreast (x.run w).2 (y.run w').2

section Rules

variable {R : Runs σ} {X : Links σ} {x y : Op σ α}

theorem Even.known (hx : Even R unknown x y) : Even R X x y :=
  fun w w' hw _ => hx w w' hw trivial

theorem Even.bind {f g : α → Op σ β} (hx : Even R X x y)
    (hf : ∀ a, Even R unknown (f a) (g a)) : Even R X (x >>= f) (y >>= g) := by
  intro w w' hw hX
  obtain ⟨hsame, hafter⟩ := hx w w' hw hX
  rw [run_bind, run_bind]
  rcases hr : x.run w with ⟨o, v⟩
  rcases hr' : y.run w' with ⟨o', v'⟩
  rw [hr, hr'] at hsame hafter
  cases hsame
  cases o with
  | error e => exact ⟨rfl, hafter⟩
  | ok a => exact hf a v v' hafter trivial

theorem Even.map (g : α → β) (hx : Even R X x y) : Even R X (g <$> x) (g <$> y) := by
  intro w w' hw hX
  obtain ⟨hsame, hafter⟩ := hx w w' hw hX
  rw [run_map, run_map, hsame]
  exact ⟨rfl, hafter⟩

theorem Even.ite {c : Prop} [Decidable c] {x' y' : Op σ α} (hx : Even R X x y)
    (hy : Even R X x' y') : Even R X (if c then x else x') (if c then y else y') := by
  split
  · exact hx
  · exact hy

private theorem Even.ofExcept (o : Except Error α) : Even R X (Op.ofExcept o) (Op.ofExcept o) :=
  fun _ _ hw _ => ⟨rfl, hw⟩

theorem Even.pure (a : α) : Even R X (Pure.pure a) (Pure.pure a) := Even.ofExcept (.ok a)

theorem Even.throw (e : Error) :
    Even R X (MonadExcept.throw e : Op σ α) (MonadExcept.throw e) := Even.ofExcept (.error e)

theorem Even.look {z : Op σ β} {f g : β → Op σ α} (look : Memory → Except Error β)
    (hz : ∀ w, z.run w = (look w.memory, w)) (hf : ∀ b, Even R X (f b) (g b)) :
    Even R X (z >>= f) (z >>= g) := by
  intro w w' hw hX
  rw [run_bind, run_bind, hz w, hz w', hw.memory_eq]
  cases look w.memory with
  | error e => exact ⟨rfl, hw⟩
  | ok b => exact hf b w w' hw hX

theorem Even.throw_bind (e : Error) (f g : β → Op σ α) :
    Even R X ((MonadExcept.throw e : Op σ β) >>= f) (MonadExcept.throw e >>= g) := by
  intro w w' hw _
  rw [run_bind_error (run_throw e w), run_bind_error (run_throw e w')]
  exact ⟨rfl, hw⟩

theorem Even.input {f g : Range → Op σ α} (a : Argument) (hf : ∀ r, Even R X (f r) (g r)) :
    Even R X (Op.input a >>= f) (Op.input a >>= g) :=
  Even.look a.source? (run_input · a) hf

theorem Even.output {f g : Range → Op σ α} (a : Argument) (hf : ∀ r, Even R X (f r) (g r)) :
    Even R X (Op.output a >>= f) (Op.output a >>= g) :=
  Even.look a.destination? (run_output · a) hf

theorem Even.source {f g : Source → Op σ α} (r : Range) (hf : ∀ s, Even R X (f s) (g s)) :
    Even R X (Op.source r >>= f) (Op.source r >>= g) :=
  Even.look (fun m => .ok ⟨r.length, m.read? r.start r.length⟩) (run_source · r) hf

theorem Even.bytes {f g : Bytes → Op σ α} (r : Range) (hf : ∀ b, Even R X (f b) (g b)) :
    Even R X (Op.bytes r >>= f) (Op.bytes r >>= g) :=
  Even.look (fun m => .ok ((m.read? r.start r.length).getD [])) (run_bytes · r) hf

theorem Even.outcome {o : Except Error β} {f g : β → Op σ α} (hf : ∀ b, Even R X (f b) (g b)) :
    Even R X (Op.ofExcept o >>= f) (Op.ofExcept o >>= g) :=
  Even.look (fun _ => o) (run_ofExcept o) hf

theorem even_note (gravity : Gravity) (text : String) :
    Even R X (note gravity text) (note gravity text) :=
  fun _ _ hw _ => ⟨rfl, hw.event rfl trivial⟩

theorem Even.bound {a : Algorithm} {k k' : Constants} {f g : Constants → Op σ α}
    (h : (R.here.bindings a).settled = some (.ok k))
    (h' : (R.there.bindings a).settled = some (.ok k')) (hf : Even R X (f k) (g k')) :
    Even R X (Op.bind R.library a >>= f) (Op.bind R.library a >>= g) := by
  intro w w' hw hX
  have hrun := run_bind_settled (L := R.library) (hw.since.settled a _ h)
  have hrun' := run_bind_settled (L := R.library) (hw.since'.settled a _ h')
  rw [run_bind_ok hrun, run_bind_ok hrun']
  exact hf w w' hw hX

/-- A native function that is called in either run, and what is then said to have happened. -/
def answering (answer : σ → Except Error α × σ) (event : α → Event) : Op σ α := of fun w =>
  match answer w.libraries with
  | (.error e, s) => (.error e, { w with libraries := s })
  | (.ok reply, s) =>
    (.ok reply, { w with libraries := s, events := event reply :: w.events })

private theorem call_eq_answering (L : Libraries σ) (c : Call) (site : Site) :
    Op.call L c site = answering (L.answer c) (Event.called c site) := by
  funext w
  unfold Op.call answering Op.of
  dsimp only
  rcases L.answer c w.libraries with ⟨_ | _, _⟩ <;> rfl

section Cells

variable (hX : X.OfCells)

include hX

theorem Even.store {capacity : Nat} {written : Bytes} {f g : Unit → Op σ α} (r : Range)
    (hf : Even R X (f ()) (g ())) :
    Even R X (Op.store r capacity written >>= f) (Op.store r capacity written >>= g) := by
  intro w w' hw hlink
  rw [run_bind_ok (run_store w r capacity written), run_bind_ok (run_store w' r capacity written)]
  exact hf _ _ (hw.write _ _) (hX w w' _ _ rfl rfl hlink)

private theorem Even.answering {answer answer' : σ → Except Error β × σ} {event event' : β → Event}
    {f g : β → Op σ α} (hs : ∀ s, R.sound s → R.sound (answer s).2)
    (hs' : ∀ s, R.sound s → R.sound (answer' s).2)
    (hsame : ∀ s s', R.sound s → R.sound s' → (answer' s').1 = (answer s).1)
    (he : ∀ b, (event' b).contextless = (event b).contextless) (hp : ∀ b, (event b).Primed)
    (hf : ∀ b, Even R X (f b) (g b)) :
    Even R X (Op.answering answer event >>= f) (Op.answering answer' event' >>= g) := by
  intro w w' hw hlink
  have hsound := hs _ hw.steady.libraries
  have hsound' := hs' _ hw.steady'.libraries
  have hanswer := hsame _ _ hw.steady.libraries hw.steady'.libraries
  rw [run_bind, run_bind]
  unfold Op.answering
  rw [run_of, run_of]
  rcases hr : answer w.libraries with ⟨o, s⟩
  rcases hr' : answer' w'.libraries with ⟨o', s'⟩
  rw [hr] at hsound hanswer
  rw [hr'] at hsound' hanswer
  cases hanswer
  cases o with
  | error e => exact ⟨rfl, hw.refused hsound hsound'⟩
  | ok b =>
    exact hf b _ _ ((hw.refused hsound hsound').event (he b) (hp b)) (hX w w' _ _ rfl rfl hlink)

end Cells

section Cell

variable {index index' n : Nat}

theorem Even.setCell {f g : Unit → Op σ α} (h : index < R.here.cells.length)
    (h' : index' < R.there.cells.length) (hf : Even R (bothHold index index' n) (f ()) (g ())) :
    Even R X (Op.setCell index n >>= f) (Op.setCell index' n >>= g) := by
  intro w w' hw _
  have hset {cells : List Nat} {i : Nat} (hlt : i < cells.length) :
      (cells.set i n).getD i 0 = n := by
    rw [List.getD_eq_getElem?_getD, List.getElem?_set_self hlt]
    rfl
  rw [run_bind, run_bind]
  unfold Op.setCell
  rw [run_of, run_of]
  by_cases hn : wordLimit ≤ n
  · rw [if_pos hn, if_pos hn]
    exact ⟨rfl, hw⟩
  · rw [if_neg hn, if_neg hn]
    exact hf _ _ (hw.setCell index index' n n) ⟨hset (Nat.lt_of_lt_of_le h hw.since.cells_le),
      hset (Nat.lt_of_lt_of_le h' hw.since'.cells_le)⟩

theorem Even.cell {f g : Nat → Op σ α} (hf : Even R (bothHold index index' n) (f n) (g n)) :
    Even R (bothHold index index' n) (Op.cell index >>= f) (Op.cell index' >>= g) := by
  intro w w' hw hlink
  have hrun : (Op.cell index).run w = (.ok n, w) := congrArg (fun k => (Except.ok k, w)) hlink.1
  have hrun' : (Op.cell index').run w' = (.ok n, w') :=
    congrArg (fun k => (Except.ok k, w')) hlink.2
  rw [run_bind_ok hrun, run_bind_ok hrun']
  exact hf w w' hw hlink

theorem even_cell : Even R (bothHold index index' n) (cell index) (cell index') :=
  fun _ _ hw hlink => ⟨congrArg Except.ok (hlink.2.trans hlink.1.symm), hw⟩

end Cell

theorem Even.ensuring {closing closing' : Op σ Unit} (hx : Even R X x y)
    (hc : Even R unknown closing closing') :
    Even R X (Op.ensuring x closing) (Op.ensuring y closing') := by
  intro w w' hw hlink
  obtain ⟨hsame, hafter⟩ := hx w w' hw hlink
  obtain ⟨hclosing, hclosed⟩ := hc _ _ hafter trivial
  rw [run_ensuring, run_ensuring, hsame, hclosing]
  exact ⟨rfl, hclosed⟩

section Calls

variable {τ : Type} {content : σ → Nat → Option τ} (hL : R.library.Impartial R.sound content)

include hL

theorem Even.call {c : Call} {site : Site} {f g : c.Reply → Op σ α} (hc : c.contextual = false)
    (hp : c.Primed) (hX : X.OfCells) (hf : ∀ reply, Even R X (f reply) (g reply)) :
    Even R X (Op.call R.library c site >>= f) (Op.call R.library c site >>= g) := by
  rw [call_eq_answering]
  have hsound : ∀ s, R.sound s → R.sound (R.library.answer c s).2 :=
    (hL.sound_answer c · (Call.streams_of_contextual hc))
  exact Even.answering hX hsound hsound (fun s s' => hL.answer c s s' hc) (fun _ => rfl)
    (fun _ => hp) hf

theorem even_call {c : Call} (site : Site) (hc : c.contextual = false) (hp : c.Primed) :
    Even R unknown (Op.call R.library c site) (Op.call R.library c site) := by
  have h : Even R unknown (Op.call R.library c site >>= Pure.pure)
      (Op.call R.library c site >>= Pure.pure) :=
    Even.call hL hc hp unknown_ofCells Even.pure
  rwa [bind_pure] at h

theorem Even.compress {capacity : Nat} {source : Source} {level : Int} {site : Site}
    {f g : Written Nat → Op σ α} (context context' : Nat)
    (hf : ∀ reply, Even R unknown (f reply) (g reply)) :
    Even R unknown (Op.call R.library (.zstdCompress context capacity source level) site >>= f)
      (Op.call R.library (.zstdCompress context' capacity source level) site >>= g) := by
  rw [call_eq_answering, call_eq_answering]
  exact Even.answering (β := Written Nat) unknown_ofCells
    (hL.sound_answer (.zstdCompress context capacity source level) · rfl)
    (hL.sound_answer (.zstdCompress context' capacity source level) · rfl)
    (hL.compress context context' capacity source level) (fun _ => rfl) (fun _ => trivial) hf

theorem Even.decompress {capacity : Nat} {source : Source} {site : Site}
    {f g : Written Nat → Op σ α} (context context' : Nat)
    (hf : ∀ reply, Even R unknown (f reply) (g reply)) :
    Even R unknown (Op.call R.library (.zstdDecompress context capacity source) site >>= f)
      (Op.call R.library (.zstdDecompress context' capacity source) site >>= g) := by
  rw [call_eq_answering, call_eq_answering]
  exact Even.answering (β := Written Nat) unknown_ofCells
    (hL.sound_answer (.zstdDecompress context capacity source) · rfl)
    (hL.sound_answer (.zstdDecompress context' capacity source) · rfl)
    (hL.decompress context context' capacity source) (fun _ => rfl) (fun _ => trivial) hf

end Calls

end Rules

end Op

section System

def Contexts.Unopened (s : Contexts) : Prop := ∀ handle, s.created < handle → s.stream handle = {}

def Contexts.held? (s : Contexts) (handle : Nat) : Option Zstd.Stream :=
  if handle ≤ s.created then some (s.stream handle) else none

private theorem Contexts.Unopened.setStream {s : Contexts} (hs : s.Unopened) {handle : Nat}
    (h : handle ≤ s.created) (stream : Zstd.Stream) :
    (s.setStream handle stream).Unopened ∧
      (s.setStream handle stream).held? handle = some stream := by
  constructor
  · intro other hlt
    change ((List.lookup other ((handle, stream) :: _)).getD {} : Zstd.Stream) = {}
    have hne : other ≠ handle := by
      change s.created < other at hlt
      omega
    rw [List.lookup_cons, beq_false_of_ne hne, lookup_filter, if_neg hne]
    exact hs other hlt
  · exact (if_pos h).trans (congrArg some (s.stream_setStream handle stream))

variable (snappy : Except Error Constants)

theorem answer_system (c : Call) (s : Contexts) :
    (system snappy).answer c s =
      (if c.fits then .ok (systemReply c s).1 else .error .tooLarge,
        if c.fits then (systemReply c s).2 else s) := by
  unfold system
  dsimp only
  split <;> rfl

private theorem Contexts.Unopened.answer {s : Contexts} (hs : s.Unopened) {c : Call}
    (hc : c.streams = false) : Unopened ((system snappy).answer c s).2 := by
  rw [answer_system]
  dsimp only
  split
  · cases c with
    | createContext d =>
      intro handle hlt
      change s.create.stream handle = {}
      rw [Contexts.stream_create, hs handle (Nat.lt_trans (Nat.lt_succ_self _) hlt)]
      split <;> rfl
    | freeContext d freed =>
      intro handle hlt
      change (s.free freed).stream handle = {}
      rw [Contexts.stream_free, hs handle hlt]
      split <;> rfl
    | zstdStream => exact absurd hc (by simp [Call.streams])
    | _ => exact hs
  · exact hs

private theorem Contexts.eq_of_held? {s : Contexts} {handle : Nat} {t : Zstd.Stream}
    (h : s.held? handle = some t) : handle ≤ s.created ∧ s.stream handle = t := by
  unfold held? at h
  split at h
  · next hle => exact ⟨hle, Option.some.inj h⟩
  · exact absurd h (by simp)

/-- The system's libraries remember nothing but what its open streams hold. -/
theorem Libraries.Impartial.system :
    (system snappy).Impartial Contexts.Unopened Contexts.held? where
  sound_bind _ _ hs := hs
  sound_answer c s hc hs := hs.answer snappy hc
  bind _ _ _ _ _ := rfl
  answer c s s' hc _ _ := by
    rw [answer_system, answer_system]
    cases c with
    | createContext | freeContext | zstdCompress | zstdDecompress | zstdStream =>
      exact absurd hc (by simp [Call.contextual])
    | _ => rfl
  compress _ _ _ _ _ _ _ _ _ := by
    rw [answer_system, answer_system]
    rfl
  decompress _ _ _ _ _ _ _ _ := by
    rw [answer_system, answer_system]
    rfl
  create d s s' hs hs' := by
    have hempty (s : Contexts) : s.create.held? (s.created + 1) = some {} :=
      (if_pos (Nat.le_refl _)).trans
        (congrArg some ((s.stream_create (s.created + 1)).trans (if_pos rfl)))
    exact .created ⟨{}, hempty s, hempty s'⟩
  stream context context' room written source consumed s s' hs hs' := by
    rintro ⟨t, ht, ht'⟩
    obtain ⟨hle, rfl⟩ := Contexts.eq_of_held? ht
    obtain ⟨hle', hstream⟩ := Contexts.eq_of_held? ht'
    have hafter := hs.setStream hle
      ((s.stream context).call (room - written) (source.content.drop consumed)).2
    have hafter' := hs'.setStream hle'
      ((s.stream context).call (room - written) (source.content.drop consumed)).2
    rw [answer_system, answer_system]
    dsimp only [systemReply]
    rw [hstream]
    exact ⟨rfl, hafter.1, hafter'.1, _, hafter.2, hafter'.2⟩
  free d handle s := ⟨s.free handle, rfl⟩

end System

end NativeCodec.Native
