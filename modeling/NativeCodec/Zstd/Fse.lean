import NativeCodec.Zstd.BitString

/-!
Finite state entropy tables.

A table has a power of two cells. Each cell names a symbol and says where to go next: read so many
bits and add them to a base. A table is made from a distribution, which gives each symbol its share
of the cells, and a distribution is read from a bit string that starts a section.
-/

set_option autoImplicit false
set_option relaxedAutoImplicit false

namespace NativeCodec.Zstd.Fse

structure Cell where
  symbol : Nat
  bits : Nat
  base : Nat
  deriving DecidableEq, Repr, Inhabited

structure Table where
  log : Nat
  cells : Array Cell
  deriving DecidableEq, Repr

def Table.cell (t : Table) (state : Nat) : Cell := t.cells.getD state ⟨0, 0, 0⟩

def Table.single (symbol : Nat) : Table := ⟨0, #[⟨symbol, 0, 0⟩]⟩

abbrev Distribution := List Int

/-- The symbols with less than one cell; they take the cells at the end, from the last down. -/
def rareSymbols (shares : Distribution) : List Nat :=
  shares.zipIdx.filterMap fun (share, symbol) => if share = -1 then some symbol else none

def commonSymbols (shares : Distribution) : List Nat :=
  shares.zipIdx.flatMap fun (share, symbol) => List.replicate share.toNat symbol

def fillOrder (size : Nat) : List Nat :=
  (List.range size).map fun k => k * (size / 2 + size / 8 + 3) % size

def spread (log : Nat) (shares : Distribution) : Array Nat :=
  let size := 1 <<< log
  let rare := rareSymbols shares
  let start := Array.replicate size 0
  let withRare := rare.zipIdx.foldl
    (fun cells (symbol, i) => cells.setIfInBounds (size - 1 - i) symbol) start
  let free := (fillOrder size).filter (· + rare.length < size)
  (free.zip (commonSymbols shares)).foldl
    (fun cells (cell, symbol) => cells.setIfInBounds cell symbol) withRare

/-- Numbers the cells of each symbol in order and finds the way from each to the next state. -/
def number (log : Nat) : List Nat → Array Nat → List Cell
  | [], _ => []
  | symbol :: rest, next =>
    let x := next.getD symbol 1
    let bits := log - Nat.log2 x
    ⟨symbol, bits, (x <<< bits) - (1 <<< log)⟩ ::
      number log rest (next.setIfInBounds symbol (x + 1))

def Table.ofDistribution (log : Nat) (shares : Distribution) : Table :=
  let next := (shares.map fun share => if share = -1 then 1 else share.toNat).toArray
  ⟨log, (number log (spread log shares).toList next).toArray⟩

/-- A run of symbols without a share: pairs of bits, carried on by a pair of ones. -/
def readZeroRun : List Bool → Option (Nat × List Bool)
  | true :: true :: bits => (readZeroRun bits).map fun (n, rest) => (n + 3, rest)
  | low :: high :: bits => some (low.toNat + 2 * high.toNat, bits)
  | _ => none

/-- One share plus one, when `remaining - 1` cells are left: a number up to `remaining`, where the
small ones are written with one bit less. -/
def readShare (remaining : Nat) (bits : List Bool) : Option (Nat × List Bool) :=
  let width := Nat.log2 remaining
  let threshold := 1 <<< width
  let short := 2 * threshold - 1 - remaining
  match takeUp? width bits with
  | none => none
  | some (low, bits) =>
    if low < short then some (low, bits)
    else
      match bits with
      | [] => none
      | false :: bits => some (low, bits)
      | true :: bits => some (low + threshold - short, bits)

/-- Reads the shares of at most `room` symbols, `fuel` counts the steps. -/
def readShares : Nat → Nat → Nat → Bool → Distribution → List Bool →
    Option (Distribution × List Bool)
  | 0, _, _, _, _, _ => none
  | fuel + 1, room, remaining, afterZero, shares, bits =>
    match (if afterZero then readZeroRun bits else some (0, bits)) with
    | none => none
    | some (zeros, bits) =>
      if room ≤ zeros then none
      else
        match readShare remaining bits with
        | none => none
        | some (plusOne, bits) =>
          let share : Int := plusOne - 1
          let shares := share :: (List.replicate zeros 0 ++ shares)
          let remaining := remaining - share.natAbs
          if remaining ≤ 1 then some (shares.reverse, bits)
          else readShares fuel (room - zeros - 1) remaining (share = 0) shares bits

/-- More bytes than any distribution of byte symbols takes. -/
def descriptionLimit : Nat := 600

/-- A distribution of the symbols up to `maxSymbol` with at most `2 ^ maxLog` cells at the front of
some bytes: its logarithm, the shares, and what follows. -/
def readDistribution (maxSymbol maxLog : Nat) (bytes : Bytes) :
    Option (Nat × Distribution × Bytes) :=
  let bits := (bytes.take descriptionLimit).flatMap bitsUp
  match takeUp? 4 bits with
  | none => none
  | some (logLess5, after) =>
    let log := logLess5 + 5
    if 15 < log then none
    else
      match readShares (maxSymbol + 1) (maxSymbol + 1) ((1 <<< log) + 1) false [] after with
      | none => none
      | some (shares, rest) =>
        if maxLog < log then none
        else some (log, shares, bytes.drop ((bits.length - rest.length + 7) / 8))

def Table.read? (maxSymbol maxLog : Nat) (bytes : Bytes) : Option (Table × Bytes) :=
  (readDistribution maxSymbol maxLog bytes).map fun (log, shares, rest) =>
    (Table.ofDistribution log shares, rest)

end NativeCodec.Zstd.Fse
