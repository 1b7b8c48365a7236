import NativeCodec.Memory.Basic
import NativeCodec.Native.Call
import NativeCodec.Note
import NativeCodec.Once

/-!
Operations on the world.

The world is memory, the native libraries, and what has happened. `Libraries` describes native
libraries by how they answer calls, with a state of their own; nothing else is assumed of them. An
`Op` may end in an error, and what it has done by then stays done. Every call is kept, together
with the places of its memory and the reply, in the order of the calls.
-/

set_option autoImplicit false
set_option relaxedAutoImplicit false

namespace NativeCodec.Native

/-- What is asked of a library when it is bound: the size of a working state, in bytes, and the
levels that it knows. -/
structure Constants where
  stateSize : Int := 64
  minLevel : Int := -5
  maxLevel : Int := 22
  deriving DecidableEq, Repr

/-- What comes of binding a library: the symbols that were found, up to the first that is missing,
and the constants or the first error. -/
structure Binding where
  found : List String
  outcome : Except Error Constants

/-- Native libraries with a state of type `σ`. `patience` is the number of calls after which a loop
over replies is given up. -/
structure Libraries (σ : Type) where
  bind : Algorithm → σ → Binding × σ
  answer : (c : Call) → σ → Except Error c.Reply × σ
  errorName : Nat → String
  word : Int → Except Error Nat
  patience : Nat

/-- More calls than any loop makes. -/
def manyCalls : Nat := 0x4000000000000000

/-- The places of the memory that a call works on. -/
structure Site where
  source : Option Pointer := none
  destination : Option Pointer := none
  deriving DecidableEq, Repr

/-- What can happen. -/
inductive Event
  | bound (algorithm : Algorithm)
  | called (call : Call) (site : Site) (reply : call.Reply)
  | noted (note : Note)

/-- Memory, cells for lengths, the bindings that are settled, what happened (the last first), and
the state of the libraries. -/
structure World (σ : Type) where
  memory : Memory := {}
  cells : List Nat := []
  bindings : Algorithm → Once Constants := fun _ => {}
  events : List Event := []
  libraries : σ

/-- An operation on the world. -/
abbrev Op (σ α : Type) := ExceptT Error (StateM (World σ)) α

namespace Op

variable {σ α β : Type}

def of (f : World σ → Except Error α × World σ) : Op σ α := f

/-- Runs an operation. -/
def run (x : Op σ α) (w : World σ) : Except Error α × World σ := ExceptT.run x w

def ofExcept (x : Except Error α) : Op σ α := of fun w => (x, w)

def memory : Op σ Memory := of fun w => (.ok w.memory, w)

def write (p : Pointer) (data : Bytes) : Op σ Unit :=
  of fun w => (.ok (), { w with memory := w.memory.write p data })

def checkSize (size : Int) : Op σ Nat := of fun w => (w.memory.checkSize size, w)

/-- Adds a storage of zeros, and gives its place. -/
def allocate (size : Int) : Op σ Nat := of fun w =>
  match w.memory.allocate size with
  | .error e => (.error e, w)
  | .ok (place, m) => (.ok place, { w with memory := m })

def note (gravity : Gravity) (text : String) : Op σ Unit :=
  of fun w => (.ok (), { w with events := .noted ⟨gravity, text⟩ :: w.events })

def newCell : Op σ Nat :=
  of fun w => (.ok w.cells.length, { w with cells := w.cells ++ [0] })

def cell (index : Nat) : Op σ Nat := of fun w => (.ok (w.cells.getD index 0), w)

/-- Puts a length into a cell, which holds numbers of 64 bits. -/
def setCell (index n : Nat) : Op σ Unit := of fun w =>
  if wordLimit ≤ n then (.error .tooLarge, w) else (.ok (), { w with cells := w.cells.set index n })

/-- Does something, and then something else whatever became of the first. An error of the second
replaces what became of the first. -/
def ensuring (x : Op σ α) (finally_ : Op σ Unit) : Op σ α := of fun w =>
  let (outcome, w) := x.run w
  let (closing, w) := finally_.run w
  (closing.bind fun _ => outcome, w)

def call (L : Libraries σ) (c : Call) (site : Site) : Op σ c.Reply := of fun w =>
  match L.answer c w.libraries with
  | (.error e, s) => (.error e, { w with libraries := s })
  | (.ok reply, s) =>
    (.ok reply, { w with libraries := s, events := .called c site reply :: w.events })

def runBinding (L : Libraries σ) (a : Algorithm) (w : World σ) :
    Except Error Constants × World σ :=
  let (binding, s) := L.bind a w.libraries
  let notes := binding.found.map fun symbol =>
    Event.noted ⟨.debug, s!"Bound {symbol} from {a.name}"⟩
  (binding.outcome, { w with libraries := s, events := notes.reverse ++ .bound a :: w.events })

/-- Binds a library, or gives again what became of that. -/
def bind (L : Libraries σ) (a : Algorithm) : Op σ Constants := of fun w =>
  let (answer, once, w) := (w.bindings a).call (runBinding L a) w
  (answer.outcome, { w with bindings := fun b => if b = a then once else w.bindings b })

end Op

end NativeCodec.Native
