import NativeCodec.Codec.Facade
import NativeCodec.Native.System
import NativeCodec.Proofs.Operation

/-!
Functions that are settled once.

However often a function is called behind a `Once`, it runs until the first of its outcomes that
settles it, and that is repeated to every later caller (`calls_eq_settled`). The binding of a
library is such a function, whatever else happens between the calls (`Codec.repeats_bind`);
`outcome_settled_once` says both.
-/

set_option autoImplicit false
set_option relaxedAutoImplicit false

namespace NativeCodec

open Native

variable {α σ : Type}

namespace Once

/-- Calls a function behind a `Once` so many times: the answers in turn, and what there is then. -/
def calls (run : σ → Except Error α × σ) :
    Nat → Once α → σ → List (Answer α) × Once α × σ
  | 0, o, s => ([], o, s)
  | n + 1, o, s =>
    let (answer, o, s) := o.call run s
    let (answers, after) := calls run n o s
    (answer :: answers, after)

/-- The first run that ends in a value or in an ordinary error is the one with this number. -/
structure Settles (outcomes : Nat → Except Error α) (first : Nat) : Prop where
  settled : Outcome.isSettled (outcomes first) = true
  least : ∀ i < first, Outcome.isSettled (outcomes i) = false

/-- An answer repeats an outcome: it is the same value, or an error of the same kind that says the
same and carries the same, with the first error behind it. -/
inductive Repeats : Except Error α → Answer α → Prop
  | value (a : α) : Repeats (.ok a) { outcome := .ok a }
  | error {e e' : Error} (kind : e'.kind = e.kind) (text : e'.text = e.text)
      (code : e'.code = e.code) (diagnostic : e'.diagnostic = e.diagnostic) :
      Repeats (.error e) { outcome := .error e', cause := some e }

private theorem repeats_again (outcome : Except Error α) : Repeats outcome (.again outcome) := by
  cases outcome with
  | ok a => exact .value a
  | error e => exact .error e.kind_copy e.text_copy e.code_copy e.diagnostic_copy

private theorem calls_add (run : σ → Except Error α × σ) (m n : Nat) (o : Once α) (s : σ) :
    calls run (m + n) o s =
      ((calls run m o s).1 ++ (calls run n (calls run m o s).2.1 (calls run m o s).2.2).1,
        (calls run n (calls run m o s).2.1 (calls run m o s).2.2).2) := by
  induction m generalizing o s with
  | zero => rw [Nat.zero_add]; rfl
  | succ m ih =>
    rw [Nat.add_right_comm]
    change (_ :: (calls run (m + n) _ _).1, (calls run (m + n) _ _).2) = _
    rw [ih]
    rfl

private theorem calls_of_settled {o : Once α} {known : Except Error α} (h : o.settled = some known)
    (run : σ → Except Error α × σ) (n : Nat) (s : σ) :
    calls run n o s = (List.replicate n (.again known), o, s) := by
  induction n with
  | zero => rfl
  | succ n ih =>
    change ((o.call run s).1 :: (calls run n (o.call run s).2.1 (o.call run s).2.2).1,
      (calls run n (o.call run s).2.1 (o.call run s).2.2).2) = _
    rw [call_of_settled h, ih]
    rfl

private theorem keep_unsettled {outcome : Except Error α} (h : Outcome.isSettled outcome = false) :
    ({} : Once α).keep outcome = {} :=
  if_neg (by simp [h])

private theorem keep_first {outcome : Except Error α} (h : Outcome.isSettled outcome = true) :
    ({} : Once α).keep outcome = { settled := some outcome } :=
  if_pos h

variable {outcomes : Nat → Except Error α}

private theorem calls_eq_unsettled {n : Nat} (h : ∀ i < n, Outcome.isSettled (outcomes i) = false) :
    calls (nth outcomes) n {} 0 =
      ((List.range n).map fun i => { outcome := outcomes i }, {}, n) := by
  induction n with
  | zero => rfl
  | succ n ih =>
    rw [calls_add, ih fun i hi => h i (Nat.lt_succ_of_lt hi), List.range_succ, List.map_append]
    change (_ ++ [_], ({} : Once α).keep (outcomes n), n + 1) = _
    rw [keep_unsettled (h n (Nat.lt_succ_self n))]
    rfl

theorem calls_eq_settled {first n : Nat} (h : Settles outcomes first) :
    calls (nth outcomes) (first + 1 + n) {} 0 =
      (((List.range (first + 1)).map fun i => { outcome := outcomes i }) ++
          List.replicate n (.again (outcomes first)),
        { settled := some (outcomes first) }, first + 1) := by
  have hfirst : calls (nth outcomes) (first + 1) {} 0 =
      ((List.range (first + 1)).map fun i => { outcome := outcomes i },
        { settled := some (outcomes first) }, first + 1) := by
    rw [calls_add, calls_eq_unsettled h.least, List.range_succ, List.map_append]
    change (_ ++ [_], ({} : Once α).keep (outcomes first), first + 1) = _
    rw [keep_first h.settled]
    rfl
  rw [calls_add, hfirst, calls_of_settled rfl]

end Once

namespace Codec

/-- What is said of a library, by what its binding came to. -/
def availability : Except Error Constants → Except Error Bool
  | .ok _ => .ok true
  | .error e => if e.kind = .libraryLoad ∨ e.kind = .symbolResolution then .ok false else .error e

private theorem run_isAvailable (L : Libraries σ) (a : Algorithm) (w : World σ) :
    (isAvailable L a).run w =
      (availability ((Op.bind L a).run w).1, ((Op.bind L a).run w).2) := by
  unfold isAvailable
  rw [Op.run_tryCatch, Op.run_bind]
  rcases (Op.bind L a).run w with ⟨e | constants, w'⟩
  · dsimp only [availability]
    rw [Op.run_ite]
    split
    · rfl
    · rfl
  · rfl

private theorem repeats_availability {outcome : Except Error Constants}
    {answer : Once.Answer Constants} (h : Once.Repeats outcome answer) :
    ∃ said, Once.Repeats (availability outcome) said ∧
      availability answer.outcome = said.outcome := by
  cases h with
  | value constants => exact ⟨_, .value true, rfl⟩
  | @error e e' kind text code diagnostic =>
    by_cases hkind : e.kind = .libraryLoad ∨ e.kind = .symbolResolution
    · refine ⟨{ outcome := .ok false }, ?_, ?_⟩
      · rw [availability, if_pos hkind]
        exact .value false
      · rw [availability, kind, if_pos hkind]
    · refine ⟨{ outcome := .error e', cause := some e }, ?_, ?_⟩
      · rw [availability, if_neg hkind]
        exact .error kind text code diagnostic
      · rw [availability, kind, if_neg hkind]

/-- What may happen between two questions about a library: others are asked, and all changes but
what is kept of the bindings. -/
inductive Demand (σ : Type)
  | bindings (a : Algorithm)
  | available (a : Algorithm)
  | meanwhile (w : World σ)

def Demand.run (L : Libraries σ) (w : World σ) : Demand σ → World σ
  | bindings a => ((Op.bind L a).run w).2
  | available a => ((isAvailable L a).run w).2
  | meanwhile w' => { w' with bindings := w.bindings }

def Demand.Asks (a : Algorithm) (demand : Demand σ) : Prop :=
  demand = .bindings a ∨ demand = .available a

variable {L : Libraries σ} {a : Algorithm} {w : World σ}

private theorem Demand.run_of_asks {demand : Demand σ} (h : demand.Asks a) :
    demand.run L w = ((Op.bind L a).run w).2 := by
  rcases h with rfl | rfl
  · rfl
  · change ((isAvailable L a).run w).2 = _
    rw [run_isAvailable]

theorem settled_bind {known : Except Error Constants} (h : (w.bindings a).settled = some known)
    (b : Algorithm) : (((Op.bind L b).run w).2.bindings a).settled = some known := by
  cases hs : (w.bindings b).settled with
  | some outcome => rw [Op.run_bind_settled hs]; exact h
  | none =>
    have hne : a ≠ b := by
      rintro rfl
      exact absurd (h.symm.trans hs) (by simp)
    rw [Op.run_bind_first hs]
    simp only [if_neg hne]
    exact h

private theorem Demand.settled_run {known : Except Error Constants}
    (h : (w.bindings a).settled = some known) (demand : Demand σ) :
    ((demand.run L w).bindings a).settled = some known := by
  cases demand with
  | bindings b => exact settled_bind h b
  | available b =>
    change (((isAvailable L b).run w).2.bindings a).settled = some known
    rw [run_isAvailable]
    exact settled_bind h b
  | meanwhile w' => exact h

private theorem Demand.settled_runAll {known : Except Error Constants}
    (h : (w.bindings a).settled = some known) (demands : List (Demand σ)) :
    ((demands.foldl (Demand.run L) w).bindings a).settled = some known := by
  induction demands generalizing w with
  | nil => exact h
  | cons demand demands ih => exact ih (demand.settled_run h)

/-- Once the binding of a library is settled, asking again changes nothing and repeats it. -/
theorem repeats_bind {known : Except Error Constants} (h : (w.bindings a).settled = some known) :
    (∃ answer, Once.Repeats known answer ∧ (Op.bind L a).run w = (answer.outcome, w)) ∧
      ∃ said, Once.Repeats (availability known) said ∧
        (isAvailable L a).run w = (said.outcome, w) := by
  have hrun : (Op.bind L a).run w = ((Once.Answer.again known).outcome, w) :=
    Op.run_bind_settled h
  obtain ⟨said, hsaid, hsame⟩ := repeats_availability (Once.repeats_again known)
  refine ⟨⟨_, Once.repeats_again known, hrun⟩, said, hsaid, ?_⟩
  rw [run_isAvailable, hrun, hsame]

private theorem first_bind (h : (w.bindings a).settled = none) :
    ((Op.bind L a).run w).1 = (L.bind a w.libraries).1.outcome ∧
      ((isAvailable L a).run w).1 = availability (L.bind a w.libraries).1.outcome ∧
      ((((Op.bind L a).run w).2.bindings a).settled =
        if Outcome.isSettled (L.bind a w.libraries).1.outcome then
          some (L.bind a w.libraries).1.outcome else none) := by
  rw [run_isAvailable, Op.run_bind_first h]
  refine ⟨rfl, rfl, ?_⟩
  simp only [if_pos, Once.keep, h]
  split
  · rfl
  · exact h

end Codec

open Once Codec

/-- A function behind a `Once` runs again at every call until a run ends in a value or in an
ordinary error, and is not run after that. Until then callers are given the outcomes as they are and
nothing is kept of them; after it, every caller is given the settled outcome again. So is whoever
binds a library or asks whether there is one, whatever else happens in between. -/
theorem outcome_settled_once (outcomes : Nat → Except Error α) (L : Libraries σ) :
    (∀ n, (∀ i < n, Outcome.isSettled (outcomes i) = false) →
      calls (nth outcomes) n {} 0 =
        ((List.range n).map fun i => { outcome := outcomes i }, {}, n)) ∧
    (∀ first n, Settles outcomes first → ∃ later : List (Answer α),
      calls (nth outcomes) (first + 1 + n) {} 0 =
        (((List.range (first + 1)).map fun i => { outcome := outcomes i }) ++ later,
          { settled := some (outcomes first) }, first + 1) ∧
      later.length = n ∧ ∀ answer ∈ later, Repeats (outcomes first) answer) ∧
    (∀ (a : Algorithm) (w : World σ), (w.bindings a).settled = none →
      ∀ demand : Demand σ, demand.Asks a →
        let outcome := (L.bind a w.libraries).1.outcome
        ((Op.bind L a).run w).1 = outcome ∧
        ((isAvailable L a).run w).1 = availability outcome ∧
        (Outcome.isSettled outcome = false → ((demand.run L w).bindings a).settled = none) ∧
        (Outcome.isSettled outcome = true → ∀ later : List (Demand σ),
          let w' := later.foldl (Demand.run L) (demand.run L w)
          (∃ answer, Repeats outcome answer ∧ (Op.bind L a).run w' = (answer.outcome, w')) ∧
          ∃ said, Repeats (availability outcome) said ∧
            (isAvailable L a).run w' = (said.outcome, w'))) := by
  refine ⟨fun n => calls_eq_unsettled, ?_, ?_⟩
  · intro first n hfirst
    refine ⟨_, calls_eq_settled hfirst, List.length_replicate, ?_⟩
    intro answer hanswer
    rw [List.eq_of_mem_replicate hanswer]
    exact repeats_again _
  · intro a w hnone demand hasks outcome
    obtain ⟨hbind, havailable, hkept⟩ := first_bind (L := L) hnone
    rw [Demand.run_of_asks hasks]
    refine ⟨hbind, havailable, ?_, ?_⟩
    · intro hsettled
      rw [hkept, if_neg (Bool.eq_false_iff.mp hsettled)]
    · intro hsettled later
      rw [if_pos hsettled] at hkept
      exact repeats_bind (Demand.settled_runAll hkept later)

/-- A function is stopped, then fails in a native call, and would succeed; a library is missing. -/
theorem outcome_settled_once_stopped :
    let stop : Error := .made .interrupt "stop" none none
    let failure : Error := .made .nativeCall "boom" (some 3) (some "bad")
    let outcomes : Nat → Except Error Nat
      | 0 => .error stop
      | 1 => .error failure
      | n => .ok n
    let L := system (.error (.libraryMissing "libsnappy.so"))
    let w : World Contexts := { libraries := {} }
    Settles outcomes 1 ∧ (w.bindings .snappy).settled = none ∧
      (∃ later : List (Answer Nat), calls (nth outcomes) 4 {} 0 =
        ({ outcome := .error stop } :: { outcome := .error failure } :: later,
          { settled := some (.error failure) }, 2) ∧
        later.length = 2 ∧ ∀ answer ∈ later, Repeats (.error failure) answer) ∧
      ∃ said, Repeats (.ok false) said ∧
        ((isAvailable L .snappy).run ((Op.bind L .snappy).run w).2).1 = said.outcome := by
  intro stop failure outcomes L w
  have hsettles : Settles outcomes 1 := by
    refine ⟨rfl, fun i hi => ?_⟩
    obtain rfl : i = 0 := Nat.lt_one_iff.mp hi
    rfl
  have hnone : (w.bindings .snappy).settled = none := rfl
  obtain ⟨-, hcalls, hlibraries⟩ := outcome_settled_once outcomes L
  obtain ⟨-, -, -, hsettled⟩ := hlibraries .snappy w hnone (.bindings .snappy) (.inl rfl)
  obtain ⟨-, said, hsaid, hrun⟩ := hsettled rfl []
  exact ⟨hsettles, hnone, hcalls 1 2 hsettles, said, hsaid, congrArg Prod.fst hrun⟩

end NativeCodec
