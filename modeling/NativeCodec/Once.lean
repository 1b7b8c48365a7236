import NativeCodec.Error

/-!
Outcomes that are settled once.

A function behind a `Once` runs until it first ends in a value or in an ordinary error. From then
on that outcome is given again and the function is not run: the value itself, or a copy of the error
with the error behind it. A request to stop settles nothing.
-/

set_option autoImplicit false
set_option relaxedAutoImplicit false

namespace NativeCodec

/-- Whether an outcome ends the runs of a function. -/
def Outcome.isSettled {α : Type} : Except Error α → Bool
  | .ok _ => true
  | .error e => e.kind.isOrdinary

/-- The outcome that a function settled on, if it has. -/
structure Once (α : Type) where
  settled : Option (Except Error α) := none

namespace Once

variable {α σ : Type}

/-- What a caller is given: an outcome, and the error behind it where one is given again. -/
structure Answer (α : Type) where
  outcome : Except Error α
  cause : Option Error := none

def Answer.again : Except Error α → Answer α
  | .ok a => { outcome := .ok a }
  | .error e => { outcome := .error e.copy, cause := some e }

/-- Keeps the outcome of a run, unless it settles nothing. -/
def keep (o : Once α) (outcome : Except Error α) : Once α :=
  match o.settled with
  | some _ => o
  | none => if Outcome.isSettled outcome then ⟨some outcome⟩ else o

def call (o : Once α) (run : σ → Except Error α × σ) (s : σ) : Answer α × Once α × σ :=
  match o.settled with
  | some known => (.again known, o, s)
  | none =>
    let (outcome, s) := run s
    ({ outcome }, o.keep outcome, s)

/-- A run of a function whose outcomes are given by number, and the number of runs after it. -/
def nth (outcomes : Nat → Except Error α) (runs : Nat) : Except Error α × Nat :=
  (outcomes runs, runs + 1)

theorem call_of_settled {o : Once α} {known : Except Error α} (h : o.settled = some known)
    (run : σ → Except Error α × σ) (s : σ) : o.call run s = (.again known, o, s) := by
  simp [call, h]

theorem call_of_unsettled {o : Once α} (h : o.settled = none) (run : σ → Except Error α × σ)
    (s : σ) : o.call run s = ({ outcome := (run s).1 }, o.keep (run s).1, (run s).2) := by
  simp [call, h]

end Once

end NativeCodec
