import NativeCodec.Session.Objects

set_option autoImplicit false
set_option relaxedAutoImplicit false

namespace NativeCodec.Act

open Native

variable {σ : Type}

def codec (name : String) : Act σ (Nat × Codec.Facade) := do
  let place ← place name
  match ← thingAt place with
  | .codec f => return (place, f)
  | _ => wrongThing

/-- Names a new codec. The name is taken away first. -/
def newCodec (L : Libraries σ) (name : String) (a : Except Error Algorithm) (role : Codec.Role)
    (given : List (String × Codec.OptionValue)) : Act σ Codec.Facade := do
  forget L name
  let a ← ofExcept a
  let f ← ofOp (Codec.Facade.create L a role given)
  keep L (some name) (.codec f)
  return f

def closeCodec (L : Libraries σ) (name : String) : Act σ Unit := do
  let (place, f) ← codec name
  put place (.codec (← ofOp (f.close L)))

/-- What an operation into an object came to: the count, the first bytes of the object, so many as
the count says, and the size of the object. -/
structure Filled where
  count : Int
  bytes : Bytes
  room : Nat

/-- Carries out an operation from one object into another. -/
def into (d out : Description) (op : Argument → Argument → Op σ Int) : Act σ Filled := do
  let input ← argument d
  let output ← argument out
  let count ← ofOp (op input output)
  let bytes := output.content (← memory)
  return ⟨count, bytes.take count.toNat, bytes.length⟩

/-- Carries out an operation on an object. -/
def onObject {α : Type} (d : Description) (op : Argument → Op σ α) : Act σ α := do
  ofOp (op (← argument d))

def counted (x : Op σ Nat) : Op σ Int := (fun n : Nat => (n : Int)) <$> x

/-- The levels of the zstd library, and the level that is used if none is given. -/
def levels (L : Libraries σ) : Act σ (Int × Int × Int) := do
  let constants ← ofOp (Op.bind L .zstd)
  return (constants.minLevel, constants.maxLevel, Codec.Zstd.usualLevel)

/-- Whether a result word is an error, and what the library says about it. -/
def describeWord (L : Libraries σ) (n : Int) : Act σ (Bool × String) := do
  let _ ← ofOp (Op.bind L .zstd)
  let word ← ofExcept (L.word n)
  return (Zstd.isError word, L.errorName (Zstd.errorCode word))

def raiseWord (L : Libraries σ) (operation : String) (n : Int) (decoding : Bool) :
    Act σ Unit := do
  let _ ← ofOp (Op.bind L .zstd)
  let word ← ofExcept (L.word n)
  ofOp (Codec.Zstd.fail L operation word decoding)

/-- The largest compressed size of an input of the given size. -/
def zstdBound (L : Libraries σ) (size : Int) : Act σ Nat := do
  let _ ← ofOp (Op.bind L .zstd)
  let size ← ofExcept (Codec.Facade.checkSize size)
  ofOp (Codec.Zstd.bound L size)

end NativeCodec.Act
