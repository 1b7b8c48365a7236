import NativeCodec.Native.System
import NativeCodec.Proofs.Session.Codecs

/-!
Contexts over whole sessions.

A session goes through steps in any order: objects and codecs are named, used, closed and dropped,
and every step may fail. `Step.changes` says what each of them does to what belongs to the session,
and that exactly this stays live; by induction it is live after all of them
(`contexts_owned_once`).
-/

set_option autoImplicit false
set_option relaxedAutoImplicit false

namespace NativeCodec

open Native Session

variable {σ : Type} {L : Libraries σ}

/-- What can be done with codecs. To leave a block that a codec is made for is to close it. -/
inductive Step
  | object (name : String) (d : Description)
  | construct (name : String) (algorithm : Except Error Algorithm) (role : Codec.Role)
    (given : List (String × Codec.OptionValue))
  | compress (codec : String) (input output : Description)
  | decompress (codec : String) (input output : Description)
  | length (codec : String) (input : Description)
  | validate (codec : String) (input : Description)
  | close (codec : String)
  | drop (name : String)
  | compressOnce (input : Description) (level : Option Int)
  | decompressOnce (input : Description) (size : Option Int)
  | compressInto (input output : Description) (level : Option Int)
  | decompressInto (input output : Description)
  | lengthOnce (input : Description)
  | validateOnce (input : Description)

namespace Step

open Act Codec

def act (L : Libraries σ) : Step → Act σ Unit
  | object name d => discard (newObject L name d)
  | construct name algorithm role given => discard (newCodec L name algorithm role given)
  | compress name input output =>
    discard do into input output ((← codec name).2.compress L)
  | decompress name input output =>
    discard do into input output ((← codec name).2.decompress L)
  | length name input => discard do onObject input ((← codec name).2.length L)
  | validate name input => discard do onObject input ((← codec name).2.validate L)
  | close name => closeCodec L name
  | drop name => forget L name
  | compressOnce input level => discard (onObject input fun a => Zstd.compress L a level)
  | decompressOnce input size => discard (onObject input fun a => Zstd.decompress L a size)
  | compressInto input output level =>
    discard (into input output fun a b => counted (Zstd.compressInto L a b level))
  | decompressInto input output =>
    discard (into input output fun a b => counted (Zstd.decompressInto L a b))
  | lengthOnce input => discard (onObject input (Zstd.lengthOf L))
  | validateOnce input => discard (onObject input (Zstd.validateOnce L))

/-- The session after a step, whatever becomes of the step. -/
def run (L : Libraries σ) (s : Session σ) (step : Step) : Session σ := ((step.act L).run s).2

/-- How what belongs to a session changes with a step: it is taken from a name that is given to
something else or taken away, a new codec adds what it owns, a closed one loses it, and the use of
codecs changes nothing. -/
def Changes (s s' : Session σ) : Step → Prop
  | object name _ => s'.owned = s.owned ∨ s'.owned.Perm (s.without name).owned
  | construct name algorithm _ given =>
    s'.owned.Perm (s'.leasesOf name ++ (s.without name).owned) ∧
      ∀ f, s'.codec? name = some f →
        ∃ a, algorithm = .ok a ∧ f.leases.length = Facade.kept a given
  | close name => s.owned.Perm (s.leasesOf name ++ s'.owned) ∧ s'.leasesOf name = []
  | drop name => s'.owned = (s.without name).owned
  | _ => s'.owned = s.owned

private theorem owned_of_keeps {x : Act σ Unit} {s : Session σ} (hs : Orderly [] s)
    (h : Keeps (Grown s) x) : Orderly [] (x.run s).2 ∧ (x.run s).2.owned = s.owned := by
  have hgrown := h s (Grown.refl hs)
  exact ⟨hgrown.orderly, hgrown.owned_eq⟩

/-- Whatever a step comes to, live is what belongs to the session after it. -/
theorem changes (hL : L.FreesAlways) {s : Session σ} (hs : Orderly [] s) (step : Step) :
    Orderly [] (step.run L s) ∧ step.Changes s (step.run L s) := by
  cases step with
  | object name d =>
    have hrun : (Step.object name d).run L s = ((newObject L name d).run s).2 :=
      congrArg Prod.snd (run_discard _ s)
    rw [hrun]
    exact spec_newObject hL hs name d
  | construct name a role given =>
    have hrun : (Step.construct name a role given).run L s =
        ((newCodec L name a role given).run s).2 :=
      congrArg Prod.snd (run_discard _ s)
    rw [hrun]
    exact spec_newCodec hL hs name a role given
  | close name => exact spec_closeCodec hL hs name
  | drop name => exact ⟨hs.forget hL name, owned_forget s name⟩
  | compress name input output =>
    refine owned_of_keeps hs (Keeps.discard (keeps_onCodec (fun f hf => ?_) name))
    exact keeps_into (fun _ _ => Facade.balances_compress hL hf _ _) _ _
  | decompress name input output =>
    refine owned_of_keeps hs (Keeps.discard (keeps_onCodec (fun f hf => ?_) name))
    exact keeps_into (fun _ _ => Facade.balances_decompress hL hf _ _) _ _
  | length name input =>
    refine owned_of_keeps hs (Keeps.discard (keeps_onCodec (fun f hf => ?_) name))
    exact keeps_onObject (fun _ => Facade.balances_length f.2 _) _
  | validate name input =>
    refine owned_of_keeps hs (Keeps.discard (keeps_onCodec (fun f hf => ?_) name))
    exact keeps_onObject (fun _ => Facade.balances_validate hL f.2 _) _
  | compressOnce input level =>
    refine owned_of_keeps hs (Keeps.discard (keeps_onObject (fun a => ?_) _))
    exact Zstd.balances_compress _ hL _
  | decompressOnce input size =>
    refine owned_of_keeps hs (Keeps.discard (keeps_onObject (fun a => ?_) _))
    exact Zstd.balances_decompress _ hL _
  | compressInto input output level =>
    refine owned_of_keeps hs (Keeps.discard (keeps_into (fun a b => ?_) _ _))
    exact Op.Keeps.map _ (Zstd.balances_compressInto _ _ hL _)
  | decompressInto input output =>
    refine owned_of_keeps hs (Keeps.discard (keeps_into (fun a b => ?_) _ _))
    exact Op.Keeps.map _ (Zstd.balances_decompressInto _ _ hL)
  | lengthOnce input =>
    refine owned_of_keeps hs (Keeps.discard (keeps_onObject (fun a => ?_) _))
    exact Zstd.balances_lengthOf _
  | validateOnce input =>
    refine owned_of_keeps hs (Keeps.discard (keeps_onObject (fun a => ?_) _))
    exact Zstd.balances_validateOnce _ hL

end Step

namespace Session

/-- A session before any step. -/
def start (around : Surroundings) (l : σ) : Session σ :=
  { world := { libraries := l }, surroundings := around }

theorem orderly_start (around : Surroundings) (l : σ) : Orderly [] (start around l) where
  named := ⟨List.nodup_nil, fun _ hp => absurd hp List.not_mem_nil⟩
  holding := Balanced.nil

private theorem Orderly.run (hL : L.FreesAlways) {s : Session σ} (hs : Orderly [] s)
    (steps : List Step) :
    Orderly [] (steps.foldl (Step.run L) s) := by
  induction steps generalizing s with
  | nil => exact hs
  | cons step steps ih => exact ih (step.changes hL hs).1

/-- Over whole runs of any steps, with libraries that answer as they like, contexts are used and
freed only while they are live, and live are those that belong to the codecs which have a name.
These come to the session with a new codec and leave it with a codec that is closed or has no name
any more. If no handle is given out while it is live, then each context is freed once, unless it is
still live; and all are freed when no codec is left that owns one. -/
theorem contexts_owned_once (hL : L.FreesAlways) (around : Surroundings) (l : σ)
    (steps : List Step) :
    let s := steps.foldl (Step.run L) (start around l)
    Disciplined s.world.events ∧ (live s.world.events).Perm s.owned ∧
      (∀ c, c ∈ live s.world.events ↔ ∃ name, c ∈ s.leasesOf name) ∧
      (∀ step : Step, step.Changes s (step.run L s)) ∧
      (Distinct s.world.events → (live s.world.events).Nodup ∧ FreedOnce s.world.events ∧
        ((∀ name, s.leasesOf name = []) → live s.world.events = [] ∧ FreedAll s.world.events)) := by
  intro s
  have horderly : Orderly [] s := (orderly_start around l).run hL steps
  have hbalanced : Balanced s.owned s.world.events := horderly.holding
  have hmem : ∀ c, c ∈ live s.world.events ↔ ∃ name, c ∈ s.leasesOf name := by
    intro c
    rw [hbalanced.perm.mem_iff]
    exact horderly.named.mem_owned_iff
  refine ⟨hbalanced.disciplined, hbalanced.perm, hmem, ?_, ?_⟩
  · intro step
    exact (step.changes hL horderly).2
  · intro hdistinct
    have hfreed := hbalanced.disciplined.freedOnce hdistinct
    refine ⟨hdistinct.nodup_live, hfreed, ?_⟩
    intro hclosed
    have hlive : live s.world.events = [] := by
      refine List.eq_nil_iff_forall_not_mem.mpr fun c hc => ?_
      obtain ⟨name, hcf⟩ := (hmem c).mp hc
      rw [hclosed name] at hcf
      exact List.not_mem_nil hcf
    exact ⟨hlive, hfreed.freedAll hlive⟩

/-- A compressor is used, closed twice and dropped, beside a decompressor without a context. -/
theorem contexts_owned_once_dropped :
    let L := system (.error .endless)
    let around : Surroundings :=
      { host := { marker := "__init__.py", moduleSuffix := ".py" }
        environment := []
        stem := "NATIVE"
        separator := ":"
        package := "native" }
    let input : Description := .view "bytes" [] true false
    let output : Description := .view "bytearray" (Bytes.zeros 16) false true
    let steps : List Step := [.construct "c" (.ok .zstd) .compressor [],
      .construct "d" (.ok .zstd) .decompressor [("reuse_context", .flag false)],
      .compress "c" input output, .validate "d" input, .close "c", .close "c",
      .compress "c" input output, .drop "c", .drop "d"]
    let s := steps.foldl (Step.run L) (start around {})
    L.FreesAlways ∧ s.world.events.filterMap Event.opened? = [⟨.compression, 1⟩] ∧
      Distinct s.world.events ∧ live s.world.events = [] ∧ FreedAll s.world.events := by
  intro L around input output steps
  have hfrees : L.FreesAlways := fun d handle c => ⟨c.free handle, rfl⟩
  have hall := contexts_owned_once hfrees around {} steps
  have hopened : (steps.foldl (Step.run L) (start around {})).world.events.filterMap
    Event.opened? = [⟨.compression, 1⟩] := by decide +kernel
  have hdistinct : decide (Distinct (steps.foldl (Step.run L) (start around {})).world.events) =
    true := by decide +kernel
  have hnames : (steps.foldl (Step.run L) (start around {})).names = [] := by decide +kernel
  generalize steps.foldl (Step.run L) (start around {}) = s at hall hopened hdistinct hnames ⊢
  have hnew : Distinct s.world.events := of_decide_eq_true hdistinct
  refine ⟨hfrees, hopened, hnew, (hall.2.2.2.2 hnew).2.2 ?_⟩
  intro name
  apply leasesOf_of_lookup_eq_none
  rw [hnames]
  rfl

end Session

end NativeCodec
