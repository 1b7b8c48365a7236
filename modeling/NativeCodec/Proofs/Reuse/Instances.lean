import NativeCodec.Proofs.Reuse.Making

/-!
Codecs that are used again and beside each other.

A `Bench` is a world with codecs that were made in it, and a `Move` makes one, uses one with some
content of memory, or closes one. A `Trace` is all that can be seen of a use. Whatever happened on a
bench, the trace of a use is that of a codec made for it with the same options, and that of the same
codec on a bench where the other codecs never were (`trace_reused`).
-/

set_option autoImplicit false
set_option relaxedAutoImplicit false

namespace NativeCodec

open Native

def Native.World.facing {σ : Type} (w : World σ) (m : Memory) : World σ :=
  { w with memory := m, events := [] }

namespace Codec

variable {σ τ : Type}

/-- All that can be seen of the use of a codec: the outcome, memory after it, and what happened but
for the handles of contexts. -/
structure Trace where
  outcome : Except Error Answer
  memory : Memory
  events : List Event

def Operation.use (L : Libraries σ) (f : Facade) (m : Memory) (o : Operation) (w : World σ) :
    Except Error Answer × World σ :=
  (o.op L f).run (w.facing m)

/-- What can be seen of the use of a codec. -/
def Operation.trace (L : Libraries σ) (f : Facade) (m : Memory) (o : Operation) (w : World σ) :
    Trace :=
  let (outcome, w) := o.use L f m w
  ⟨outcome, w.memory, w.events.map Event.contextless⟩

/-- A codec and the options that it was made with. -/
structure Instance where
  algorithm : Algorithm
  role : Role
  given : List (String × OptionValue)
  facade : Facade
  deriving DecidableEq, Repr

/-- What can be done with codecs, which have names. -/
inductive Move
  | make (name : Nat) (algorithm : Algorithm) (role : Role) (given : List (String × OptionValue))
  | use (name : Nat) (memory : Memory) (operation : Operation)
  | close (name : Nat)

def Move.name : Move → Nat
  | make name .. | use name .. | close name => name

/-- The moves among others that are about one codec. -/
def Move.about (name : Nat) (moves : List Move) : List Move :=
  moves.filter fun move => move.name = name

structure Bench (σ : Type) where
  world : World σ
  instances : Nat → Option Instance := fun _ => none

namespace Bench

def put (b : Bench σ) (name : Nat) (i : Instance) (w : World σ) : Bench σ :=
  { world := w, instances := fun n => if n = name then some i else b.instances n }

/-- Makes a move; the bench is as before where that fails, except for the world. -/
def step (L : Libraries σ) (b : Bench σ) : Move → Bench σ
  | .make name algorithm role given =>
    match (Facade.create L algorithm role given).run b.world with
    | (.error _, w) => { b with world := w }
    | (.ok facade, w) => b.put name { algorithm, role, given, facade } w
  | .use name m o =>
    match b.instances name with
    | none => b
    | some i => { b with world := (o.use L i.facade m b.world).2 }
  | .close name =>
    match b.instances name with
    | none => b
    | some i =>
      match (i.facade.close L).run b.world with
      | (.error _, w) => { b with world := w }
      | (.ok facade, w) => b.put name { i with facade } w

/-- The bench after some moves. -/
def after (L : Libraries σ) (s : σ) (moves : List Move) : Bench σ :=
  moves.foldl (step L) { world := { libraries := s } }

end Bench

section Trace

variable {L : Libraries σ} {sound : σ → Prop} {content : σ → Nat → Option τ}
  (hL : L.Impartial sound content) {f f' : Facade} {w w' : World σ}

private theorem steady_facing (hw : Steady L sound w) (m : Memory) : Steady L sound (w.facing m) :=
  ⟨hw.libraries, hw.genuine⟩

include hL

private theorem abreast_use (hw : Steady L sound w) (hw' : Steady L sound w')
    (hsame : f'.blank = f.blank)
    (hr : f.Ready w) (hr' : f'.Ready w') (m : Memory) (o : Operation) :
    (o.use L f' m w').1 = (o.use L f m w).1 ∧
      (Runs.mk L sound (w.facing m) (w'.facing m)).Abreast (o.use L f m w).2
        (o.use L f' m w').2 := by
  have hready {f : Facade} {w : World σ} (h : f.Ready w) : f.Ready (w.facing m) := ⟨h.bound, h.cell⟩
  refine Operation.even (R := ⟨L, sound, w.facing m, w'.facing m⟩) hL hsame (hready hr)
    (hready hr') o _ _ ?_ trivial
  exact ⟨steady_facing hw m, steady_facing hw' m, Since.refl _, Since.refl _, rfl, rfl,
    fun e he => absurd he (by simp [World.facing])⟩

private theorem trace_same (hw : Steady L sound w) (hw' : Steady L sound w')
    (hsame : f'.blank = f.blank)
    (hr : f.Ready w) (hr' : f'.Ready w') (m : Memory) (o : Operation) :
    o.trace L f' m w' = o.trace L f m w := by
  obtain ⟨houtcome, habreast⟩ := abreast_use hL hw hw' hsame hr hr' m o
  unfold Operation.trace
  dsimp only
  rw [houtcome, habreast.memory_eq, habreast.events_eq]

private theorem primed_trace (hw : Steady L sound w) (hr : f.Ready w) (m : Memory) (o : Operation) :
    ∀ e ∈ (o.trace L f m w).events, e.Primed := by
  intro e he
  obtain ⟨e', hmem, rfl⟩ := List.mem_map.mp he
  exact Event.primed_contextless ((abreast_use hL hw hw rfl hr hr m o).2.primed e' hmem)

private theorem onward_use (hw : Steady L sound w) (hr : f.Ready w) (m : Memory) (o : Operation) :
    Onward L sound w (o.use L f m w).2 := by
  obtain ⟨-, habreast⟩ := abreast_use hL hw hw rfl hr hr m o
  exact ⟨habreast.steady, habreast.since.settled, habreast.since.cells_le⟩

end Trace

/-- How a codec on a bench stands in its world. An open one is what making it comes to. -/
structure Instance.Proper (L : Libraries σ) (sound : σ → Prop) (i : Instance) (w : World σ) :
    Prop where
  ready : i.facade.Ready w
  origin : i.facade.closed = false → ∃ v f, Steady L sound v ∧
    ((Facade.create L i.algorithm i.role i.given).run v).1 = .ok f ∧ f.blank = i.facade.blank

structure Bench.Proper (L : Libraries σ) (sound : σ → Prop) (b : Bench σ) : Prop where
  steady : Steady L sound b.world
  instances : ∀ name i, b.instances name = some i → i.Proper L sound b.world

def Instance.blank (i : Instance) : Instance := { i with facade := i.facade.blank }

namespace Bench

variable {L : Libraries σ} {sound : σ → Prop} {content : σ → Nat → Option τ} {b b' : Bench σ}

/-- The codec of a name is of the same make on two benches, or is on neither. -/
def Agree (name : Nat) (b b' : Bench σ) : Prop :=
  (b'.instances name).map Instance.blank = (b.instances name).map Instance.blank

private theorem instances_put (b : Bench σ) (name : Nat) (i : Instance) (w : World σ) :
    (b.put name i w).instances name = some i := if_pos rfl

private theorem Proper.onward (hb : b.Proper L sound) {w : World σ}
    (hw : Onward L sound b.world w) :
    Proper L sound { b with world := w } where
  steady := hw.steady
  instances name i hi :=
    have h := hb.instances name i hi
    ⟨h.ready.since hw.since, h.origin⟩

private theorem Proper.put (hb : b.Proper L sound) {w : World σ} (hw : Onward L sound b.world w)
    {i : Instance} (hi : i.Proper L sound w) (name : Nat) : (b.put name i w).Proper L sound where
  steady := hw.steady
  instances n j hj := by
    unfold Bench.put at hj
    dsimp only at hj
    split at hj
    · exact Option.some.inj hj ▸ hi
    · exact (hb.onward hw).instances n j hj

private theorem proper_start {s : σ} (hs : sound s) :
    Proper L sound { world := { libraries := s } } where
  steady := ⟨hs, fun a outcome h => absurd h (by simp)⟩
  instances name i h := absurd h (by simp)

section Step

variable (hL : L.Impartial sound content)

include hL

theorem Proper.step (hb : b.Proper L sound) (move : Move) : (b.step L move).Proper L sound := by
  cases move with
  | make name algorithm role given =>
    obtain ⟨hw, -, hlands⟩ := Facade.paired_create hL (X := unknown) algorithm role given _ _
      hb.steady hb.steady trivial
    unfold Bench.step
    dsimp only
    rcases hr : (Facade.create L algorithm role given).run b.world with ⟨e | f, w⟩
    · rw [hr] at hw
      exact hb.onward hw
    · rw [hr] at hw hlands
      cases hlands with
      | ok h => exact hb.put hw ⟨h.2.1, fun _ => ⟨b.world, f, hb.steady, by rw [hr], rfl⟩⟩ name
  | use name m o =>
    unfold Bench.step
    dsimp only
    split
    · exact hb
    · next i hi => exact hb.onward (onward_use hL hb.steady (hb.instances name i hi).ready m o)
  | close name =>
    unfold Bench.step
    dsimp only
    split
    · exact hb
    · next i hi =>
      obtain ⟨w, hrun, hw⟩ := i.facade.run_close_steady hL hb.steady
      have hold := hb.instances name i hi
      rw [hrun]
      refine hb.put hw ⟨(hold.ready.since hw.since).shut, fun hopen => ?_⟩ name
      have hshut := Facade.shut_of_open (f := i.facade) hopen
      dsimp only at hopen ⊢
      rw [hshut] at hopen ⊢
      exact hold.origin hopen

omit hL in
private theorem instances_step_of_ne (b : Bench σ) {move : Move} {name : Nat}
    (h : move.name ≠ name) :
    (b.step L move).instances name = b.instances name := by
  have hput (b : Bench σ) (i : Instance) (w : World σ) :
      (b.put move.name i w).instances name = b.instances name := if_neg (Ne.symm h)
  cases move with
  | make n algorithm role given =>
    unfold Bench.step
    dsimp only
    split
    · rfl
    · exact hput _ _ _
  | use n m o =>
    unfold Bench.step
    dsimp only
    split
    · rfl
    · rfl
  | close n =>
    unfold Bench.step
    dsimp only
    split
    · rfl
    · split
      · rfl
      · exact hput _ _ _

private theorem instances_close (hb : b.Proper L sound) (name : Nat) :
    (b.step L (.close name)).instances name =
      (b.instances name).map fun i => { i with facade := i.facade.shut } := by
  unfold Bench.step
  dsimp only
  cases hi : b.instances name with
  | none => exact hi
  | some i =>
    obtain ⟨w, hrun, -⟩ := i.facade.run_close_steady hL hb.steady
    dsimp only
    rw [hrun]
    exact instances_put b name _ w

theorem Agree.step {name : Nat} (h : Agree name b b') (hb : b.Proper L sound)
    (hb' : b'.Proper L sound) {move : Move} (hname : move.name = name) :
    Agree name (b.step L move) (b'.step L move) := by
  subst hname
  cases move with
  | make name algorithm role given =>
    obtain ⟨-, -, hlands⟩ := Facade.paired_create hL (X := unknown) algorithm role given _ _
      hb.steady hb'.steady trivial
    unfold Bench.step
    dsimp only
    generalize (Facade.create L algorithm role given).run b.world = r at hlands ⊢
    generalize (Facade.create L algorithm role given).run b'.world = r' at hlands ⊢
    obtain ⟨o, w⟩ := r
    obtain ⟨o', w'⟩ := r'
    cases hlands with
    | error e e' => exact h
    | @ok f f' hready =>
      change Option.map _ ((b'.put name _ w').instances name) =
        Option.map _ ((b.put name _ w).instances name)
      rw [instances_put, instances_put]
      exact congrArg (fun facade => some (Instance.mk algorithm role given facade)) hready.1
  | use name m o =>
    unfold Bench.step
    dsimp only
    split <;> split <;> exact h
  | close name =>
    unfold Agree at h ⊢
    change Option.map Instance.blank ((b'.step L (.close name)).instances name) =
      Option.map Instance.blank ((b.step L (.close name)).instances name)
    rw [instances_close hL hb, instances_close hL hb', Option.map_map, Option.map_map]
    have hcomm : Instance.blank ∘ (fun i : Instance => { i with facade := i.facade.shut }) =
        (fun i : Instance => { i with facade := i.facade.shut }) ∘ Instance.blank := by
      funext i
      exact congrArg (fun facade => { i with facade }) (Facade.blank_shut i.facade)
    rw [hcomm, ← Option.map_map, ← Option.map_map]
    exact congrArg (Option.map _) h

private theorem agree_foldl (name : Nat) (moves : List Move) (hb : b.Proper L sound)
    (hb' : b'.Proper L sound) (h : Agree name b b') :
    (moves.foldl (Bench.step L) b).Proper L sound ∧
      ((Move.about name moves).foldl (Bench.step L) b').Proper L sound ∧
      Agree name (moves.foldl (Bench.step L) b)
        ((Move.about name moves).foldl (Bench.step L) b') := by
  induction moves generalizing b b' with
  | nil => exact ⟨hb, hb', h⟩
  | cons move moves ih =>
    unfold Move.about at ih ⊢
    by_cases hname : move.name = name
    · rw [List.filter_cons_of_pos (by simpa using hname)]
      exact ih (hb.step hL move) (hb'.step hL move) (h.step hL hb hb' hname)
    · rw [List.filter_cons_of_neg (by simpa using hname)]
      refine ih (hb.step hL move) hb' ?_
      unfold Agree
      rw [instances_step_of_ne b hname]
      exact h

end Step

end Bench

/-- Whatever was done on a bench, with whatever outcome, a use of a codec that is not closed is
what it would be with a codec made for it with the same options, and what it would be if nothing had
been done with the other codecs; and it passes no length cell but with what belongs there. -/
theorem trace_reused {L : Libraries σ} {sound : σ → Prop} {content : σ → Nat → Option τ}
    (hL : L.Impartial sound content) {s : σ} (hs : sound s) (moves : List Move) {name : Nat}
    {i : Instance} (hi : (Bench.after L s moves).instances name = some i)
    (hopen : i.facade.closed = false) (m : Memory) (o : Operation) :
    (∃ f w, (Facade.create L i.algorithm i.role i.given).run (Bench.after L s moves).world =
        (.ok f, w) ∧
      o.trace L i.facade m (Bench.after L s moves).world = o.trace L f m w) ∧
    (∃ i', (Bench.after L s (Move.about name moves)).instances name = some i' ∧
      o.trace L i.facade m (Bench.after L s moves).world =
        o.trace L i'.facade m (Bench.after L s (Move.about name moves)).world) ∧
    ∀ e ∈ (o.trace L i.facade m (Bench.after L s moves).world).events, e.Primed := by
  have hstart := Bench.proper_start (L := L) hs
  obtain ⟨hb, hb', hagree⟩ := Bench.agree_foldl hL name moves hstart hstart rfl
  change (Bench.after L s moves).Proper L sound at hb
  change (Bench.after L s (Move.about name moves)).Proper L sound at hb'
  change Option.map _ ((Bench.after L s (Move.about name moves)).instances name) =
    Option.map _ ((Bench.after L s moves).instances name) at hagree
  have hproper := hb.instances name i hi
  refine ⟨?_, ?_, primed_trace hL hb.steady hproper.ready m o⟩
  · obtain ⟨v, f₀, hv, hmade, hblank⟩ := hproper.origin hopen
    obtain ⟨-, hw, hlands⟩ := Facade.paired_create hL (X := unknown) i.algorithm i.role i.given _ _
      hv hb.steady trivial
    rcases hr : (Facade.create L i.algorithm i.role i.given).run (Bench.after L s moves).world with
      ⟨o', w⟩
    rw [hmade, hr] at hlands
    rw [hr] at hw
    cases hlands with
    | @ok _ f hready =>
      refine ⟨f, w, rfl, ?_⟩
      exact trace_same hL hw.steady hb.steady (hblank.symm.trans hready.1.symm) hready.2.2
        hproper.ready m o
  · rw [hi] at hagree
    obtain ⟨i', hi', hblank⟩ := Option.map_eq_some_iff.mp hagree
    have hsame : i.facade.blank = i'.facade.blank := congrArg Instance.facade hblank.symm
    refine ⟨i', hi', ?_⟩
    exact trace_same hL hb'.steady hb.steady hsame (hb'.instances name i' hi').ready hproper.ready
      m o

/-- A snappy decompressor between failures and the uses of a zstd compressor: its length probe is
that of a new one, with the length cell at 0. -/
theorem trace_reused_probe :
    let moves := [Move.make 0 .snappy .decompressor [], .make 1 .zstd .compressor [],
      .use 0 (.holding [1, 2, 3] [.fresh 8]) (.decompress .first .second),
      .use 1 (.holding [1, 2, 3] [.fresh 8]) (.compress .first .second)]
    let w := (Bench.after (system (.ok {})) {} moves).world
    let f := Facade.snappyDecompressor ⟨0⟩
    let t := Operation.trace (system (.ok {})) f (.holding [7]) (.length .first) w
    (∃ f' w', (Facade.create (system (.ok {})) .snappy .decompressor []).run w = (.ok f', w') ∧
      t = Operation.trace (system (.ok {})) f' (.holding [7]) (.length .first) w') ∧
    ∀ e ∈ t.events, e.Primed := by
  have hi : (Bench.after (system (.ok {})) {} [Move.make 0 .snappy .decompressor [],
      .make 1 .zstd .compressor [],
      .use 0 (.holding [1, 2, 3] [.fresh 8]) (.decompress .first .second),
      .use 1 (.holding [1, 2, 3] [.fresh 8]) (.compress .first .second)]).instances 0 =
      some ⟨.snappy, .decompressor, [], .snappyDecompressor ⟨0⟩⟩ := by
    decide +kernel
  obtain ⟨hfresh, -, hprimed⟩ := trace_reused (.system (.ok {})) (s := {}) (fun _ _ => rfl) _ hi rfl
    (.holding [7]) (.length .first)
  exact ⟨hfresh, hprimed⟩

end Codec

end NativeCodec
