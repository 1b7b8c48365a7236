import NativeCodec.Lz4.Block

/-!
The walk over the headers of an LZ4 block in a view whose items are not bytes.

Such a walk reads each item as a whole number, which need not be below 256 and can be negative. It
then need not move forward: a position counts from the end where it is negative, and the walk can
leave the items at their front or go on for ever. `Walker.turn` is one sequence of the walk and
`Walker.turns` a number of them. Where a turn leads to does not depend on what was produced before,
so that a walk which is back at a position goes round; `walkItems` looks for that, and says of
every walk how it ends or that it does not.
-/

set_option autoImplicit false
set_option relaxedAutoImplicit false

namespace NativeCodec.Lz4

/-- How a walk over whole-number items ends. -/
inductive ItemEnd
  | size (n : Option Int)
  | outOfBounds
  deriving DecidableEq, Repr

/-- The item at a position, counted from the end when it is negative. -/
def itemAt (items : Array Int) (pos : Int) : Option Int :=
  if pos < 0 then
    if pos + items.size < 0 then none else items[(pos + items.size).toNat]?
  else items[pos.toNat]?

/-- The bitwise disjunction of two numbers in two's complement, of at most 80 bits. -/
def disjunction (a b : Int) : Int := (BitVec.ofInt 80 a ||| BitVec.ofInt 80 b).toInt

/-- Carries a length on over items, and gives the position after it. -/
def walkExtension (items : Array Int) (pos length : Int) : Except ItemEnd (Int × Int) :=
  if items.size ≤ pos then .error (.size none)
  else
    match itemAt items pos with
    | none => .error .outOfBounds
    | some extra =>
      if extra = 255 then walkExtension items (pos + 1) (length + extra)
      else .ok (pos + 1, length + extra)
  termination_by (items.size - pos).toNat

def walkLength (items : Array Int) (pos half : Int) : Except ItemEnd (Int × Int) :=
  if half = 15 then walkExtension items pos half else .ok (pos, half)

/-- One sequence of items: how many literals it has, and how far back its match reaches, how long
that is and where the next sequence is, unless it is the last. -/
inductive ItemPiece
  | last (literals : Int)
  | inner (literals offset length next : Int)
  deriving DecidableEq, Repr

def ItemPiece.readCopy (items : Array Int) (tok pos literals : Int) : Except ItemEnd ItemPiece :=
  match itemAt items pos, itemAt items (pos + 1) with
  | some low, some high =>
    match walkLength items (pos + 2) (tok % 16) with
    | .error e => .error e
    | .ok (next, length) =>
      .ok (.inner literals (disjunction low (high * 256)) (length + minMatch) next)
  | _, _ => .error .outOfBounds

/-- The literals of a sequence, at the position where they start, and the match after them, unless
they are the last items. -/
def ItemPiece.readLiterals (items : Array Int) (tok pos literals : Int) :
    Except ItemEnd ItemPiece :=
  if items.size < pos + literals then .error (.size none)
  else if pos + literals = items.size then .ok (.last literals)
  else if items.size < pos + literals + 2 then .error (.size none)
  else ItemPiece.readCopy items tok (pos + literals) literals

def ItemPiece.read (items : Array Int) (pos : Int) : Except ItemEnd ItemPiece :=
  if items.size ≤ pos then .error (.size none)
  else
    match itemAt items pos with
    | none => .error .outOfBounds
    | some tok =>
      match walkLength items (pos + 1) (tok / 16) with
      | .error e => .error e
      | .ok (pos, literals) => ItemPiece.readLiterals items tok pos literals

structure Walker where
  position : Int
  produced : Int
  deriving DecidableEq, Repr

namespace Walker

def start : Walker := ⟨0, 0⟩

def turn (items : Array Int) (w : Walker) : Except ItemEnd Walker :=
  match ItemPiece.read items w.position with
  | .error e => .error e
  | .ok (.last literals) => .error (.size (some (w.produced + literals)))
  | .ok (.inner literals offset length next) =>
    if offset = 0 ∨ w.produced + literals < offset then .error (.size none)
    else .ok ⟨next, w.produced + literals + length⟩

/-- Walks over a number of sequences, unless the walk ends before. -/
def turns (items : Array Int) : Nat → Walker → Except ItemEnd Walker
  | 0, w => .ok w
  | count + 1, w =>
    match w.turn items with
    | .error e => .error e
    | .ok w => w.turns items count

/-- Walks on until the walk is back at a position, over so many sequences at most. -/
def backTo (items : Array Int) (position : Int) : Nat → Walker → Except ItemEnd Walker
  | 0, w => .ok w
  | count + 1, w =>
    match w.turn items with
    | .error e => .error e
    | .ok w => if w.position = position then .ok w else w.backTo items position count

end Walker

/-- How a walk over items ends, if it does. There are two positions for each item, so that a walk of
more turns goes round. If it has then found no less than the time before, it goes round for ever;
otherwise it comes to a match that reaches back too far. -/
def walkItems (items : Array Int) : Option ItemEnd :=
  match Walker.start.turns items (2 * items.size + 1) with
  | .error e => some e
  | .ok w =>
    match w.backTo items w.position (2 * items.size) with
    | .error e => some e
    | .ok again => if w.produced ≤ again.produced then none else some (.size none)

end NativeCodec.Lz4
