import NativeCodec.Session.Basic
import NativeCodec.Lz4.Items
import NativeCodec.Lz4.Length

set_option autoImplicit false
set_option relaxedAutoImplicit false

namespace NativeCodec

open Native

/-- A description of an object. -/
inductive Description
  | named (name : String)
  | view (type : String) (content : Bytes) (readOnly growable : Bool)
  | items (type : String) (content : Bytes) (item : Item) (shape : Option (List Nat))
  | spaced (type : String) (content : Bytes) (step : Int)
  | direct (content : Bytes)
  | foreign (address length : Int) (type : String)
  | part (of : Description) (offset : Int) (length : Option Int)
  | other (type : String)
  deriving Inhabited

/-- Takes a byte if none is to be passed over before it, and passes over `gap` bytes after it. -/
def takeAfter (gap : Nat) : Nat × Bytes → UInt8 → Nat × Bytes
  | (0, taken), b => (gap, b :: taken)
  | (left + 1, taken), _ => (left, taken)

/-- The bytes at every `step`-th place, from the first on. -/
def everyNth (step : Nat) (bytes : Bytes) : Bytes :=
  (bytes.foldl (takeAfter (step - 1)) (0, [])).2.reverse

/-- The bytes at every `step`-th place, from the last on if the step is negative. -/
def spacedBytes (step : Int) (bytes : Bytes) : Bytes :=
  if 0 ≤ step then everyNth step.toNat bytes else everyNth step.natAbs bytes.reverse

/-- Whether bytes taken at a step lie side by side. -/
def spacedFlat (step : Int) (taken : Bytes) : Bool := step == 1 || taken.length == 1

namespace Act

variable {σ : Type}

def storage (bytes : Bytes) : Act σ Nat := do
  let (place, m) := (← memory).add (.ofBytes bytes)
  setMemory m
  return place

def newView (type : String) (content : Bytes) (readOnly contiguous : Bool) (item : Item)
    (shape : Option (List Nat)) : Act σ View := do
  return ⟨type, ← storage content, readOnly, contiguous, item, shape⟩

def make : Description → Act σ Nat
  | .named name => place name
  | .view type content readOnly growable => do
    add (.view (← newView type content readOnly true .byte none) growable)
  | .items type content item shape => do
    if item.fills content.length shape = false then ofExcept (.error .wrongArgument)
    add (.view (← newView type content false true item shape) false)
  | .spaced type content step => do
    let taken := spacedBytes step content
    add (.view (← newView type taken false (spacedFlat step taken) .byte none) false)
  | .direct content => do
    let place ← storage (if content.isEmpty then [0] else content)
    add (.direct ⟨place, content.length, 0, Nat.zero_le _⟩)
  | .foreign address length type => do
    add (.range (← ofExcept (Range.foreign? (.address address) length type)))
  | .part of_ offset length => do
    let whole ← make of_
    let r ← ofExcept ((← thingAt whole).argument.range? (← memory) offset length)
    add (.range r)
  | .other type => add (.other type)

/-- The object that a description means, as it is handed to an operation. -/
def argument (d : Description) : Act σ Argument := do
  return (← thingAt (← make d)).argument

def newObject (L : Libraries σ) (name : String) (d : Description) : Act σ Argument := do
  let place ← make d
  assign L name place
  return (← thingAt place).argument

def content (name : String) : Act σ Bytes := do
  return (← thing name).argument.content (← memory)

def rangeOf (name : String) : Act σ Range := do
  match ← thing name with
  | .range r => return r
  | _ => wrongThing

def newRange (L : Libraries σ) (name : Option String) (d : Description) (offset : Int)
    (length : Option Int) : Act σ Range := do
  let a ← argument d
  let r ← ofExcept (a.range? (← memory) offset length)
  keep L name (.range r)
  return r

def newSlice (L : Libraries σ) (name : Option String) (source : String) (offset : Int)
    (length : Option Int) : Act σ Range := do
  let r ← ofExcept ((← rangeOf source).slice? offset length)
  keep L name (.range r)
  return r

/-- Names a range that is known by its address: a bare one, or one counted from a direct buffer. -/
def newForeign (L : Libraries σ) (name : Option String) (owner : Option String)
    (address length : Int) (type : String) : Act σ Range := do
  let r ← match owner with
    | none => ofExcept (Range.foreign? (.address address) length type)
    | some owner =>
      match ← thing owner with
      | .direct b => ofExcept (Range.foreign? (.near b.place address) length DirectBuffer.type)
      | _ => wrongThing
  keep L name (.range r)
  return r

def newWhole (L : Libraries σ) (name : Option String) (d : Description) (writable : Bool) :
    Act σ Range := do
  let place ← make d
  let a := (← thingAt place).argument
  let m ← memory
  let r ← ofExcept (if writable then a.destination? m else a.source? m)
  match a, name with
  | .range _, some name => assign L name place
  | _, _ => keep L name (.range r)
  return r

/-- Whether a storage is held on to: by an open view, or by a range over it that a name stands
for. -/
def pinnedAt (s : Session σ) (storage : Nat) : Bool :=
  s.pins.contains storage ||
    s.names.any fun (_, place) =>
      match s.things[place]? with
      | some (.range r) => r.start.base == .managed storage
      | _ => false

/-- Adds a zero byte to a storage, and gives its new size. -/
def growAt (storage : Nat) : Act σ Nat := do
  if pinnedAt (← get) storage then ofExcept (.error .pinned)
  else
    let m ← memory
    setMemory (m.set storage (m.get storage).grow)
    return m.size storage + 1

/-- Adds a zero byte to an object that can grow, and gives its new size. -/
def grow (name : String) : Act σ Nat := do
  match ← thing name with
  | .view v true => growAt v.place
  | _ => wrongThing

def growableAt (storage : Nat) : Thing → Bool
  | .view v growable => growable && v.place == storage
  | _ => false

/-- Adds a zero byte to the object that a range lies in, if that can grow. -/
def growOwner (r : Range) : Act σ Nat := do
  match r.start.base with
  | .managed storage =>
    if (← get).things.any (growableAt storage) then growAt storage else wrongThing
  | _ => wrongThing

def pinning {α : Type} (storage : Nat) (x : Act σ α) : Act σ α := do
  of fun s => (.ok (), { s with pins := storage :: s.pins })
  ensuring x (of fun s => (.ok (), { s with pins := s.pins.erase storage }))

def viewing {α : Type} (r : Range) (writable : Bool) (x : Act σ α) : Act σ α := do
  let _ ← ofExcept (if writable then r.writable? else .ok r)
  match r.start.base with
  | .managed storage => pinning storage x
  | _ => x

/-- Copies a run of bytes to the start of a range. -/
def copyRun (p : ByteRun) (r : Range) : Act σ Nat := do
  let (count, m) ← ofExcept (p.copyTo (← memory) r)
  setMemory m
  return count

/-- Copies bytes to the start of a range, in an open view of it. The storage that they come from is
held on to as well. -/
def copyFrom (r : Range) (data : ByteSource) : Act σ Nat := do
  let p ← ofExcept (data.run? (← memory))
  pinning p.place (viewing r true (copyRun p r))

def copy (name : String) (d : Description) : Act σ Nat := do
  let r ← rangeOf name
  copyFrom r (.object (← argument d))

/-- What a view shows: its length, its bytes before anything is stored in it, and what became of the
growth of the object that it is of, if that was tried. -/
structure Shown where
  length : Nat
  bytes : Bytes
  grown : Option (Except Error Nat) := none

/-- Opens a view of a range, stores single bytes in it, tries to let the object that the range lies
in grow if asked to, and then fails if asked to. -/
def openView (name : String) (writable : Bool) (stores : List (Nat × UInt8)) (fail : Bool)
    (growing : Bool := false) : Act σ Shown := do
  let r ← rangeOf name
  viewing r writable do
    let m ← memory
    let bytes := (m.read? r.start r.length).getD []
    setMemory (m.poke r.start stores)
    let grown ← if growing then some <$> attempt (growOwner r) else pure none
    failIf fail
    return ⟨r.length, bytes, grown⟩

def walked : Option Lz4.ItemEnd → Except Error (Option Int)
  | some (.size n) => .ok n
  | some .outOfBounds => .error (.made .index "index out of bounds on dimension 1" none none)
  | none => .error .endless

/-- The size that the headers of an LZ4 block in a view describe. A view of one dimension is walked
item by item, so its items have to be whole numbers unless there are none. -/
def viewLength (m : Memory) (v : View) : Except Error (Option Int) :=
  let bytes := (m.get v.place).bytes
  if v.item = .byte ∧ v.shape = none then
    .ok ((Lz4.blockLength? bytes).map fun n : Nat => (n : Int))
  else
    match v.shape with
    | some [] => .error .wrongArgument
    | some (0 :: _) => .ok none
    | some (_ :: _ :: _) => .error .manyDimensions
    | _ =>
      if bytes.isEmpty then .ok none
      else
        match v.item.values? bytes with
        | none => .error .notWholeNumbers
        | some items => walked (Lz4.walkItems items)

/-- The size that the headers of an LZ4 block in an object describe. -/
def blockLength (d : Description) : Act σ (Option Int) := do
  match ← argument d with
  | .view v => ofExcept (viewLength (← memory) v)
  | _ => wrongThing

end Act

end NativeCodec
