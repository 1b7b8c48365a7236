import NativeCodec.Zstd.Fse

/-!
Huffman codes of byte symbols.

A code is a binary tree with a symbol at each leaf. It is described by a weight for each symbol: a
symbol of weight `w > 0` takes `2 ^ (w - 1)` of the slots at the bottom of the tree, and the last
weight is what is left to the next power of two.
-/

set_option autoImplicit false
set_option relaxedAutoImplicit false

namespace NativeCodec.Zstd.Huffman

/-- A code: a bit chooses one of two codes until a symbol is reached. -/
inductive Tree
  | leaf (symbol : UInt8)
  | node (zero one : Tree)
  deriving DecidableEq, Repr

/-- The deepest code. -/
def maxDepth : Nat := 12

def Tree.next : Tree → List Bool → Option (UInt8 × List Bool)
  | .leaf symbol, bits => some (symbol, bits)
  | .node _ _, [] => none
  | .node zero _, false :: bits => zero.next bits
  | .node _ one, true :: bits => one.next bits

/-- Reads `count` symbols onto `out`, newest first. -/
def Tree.symbols (t : Tree) : Nat → Bytes → List Bool → Option (Bytes × List Bool)
  | 0, out, bits => some (out, bits)
  | count + 1, out, bits =>
    match t.next bits with
    | none => none
    | some (symbol, bits) => t.symbols count (symbol :: out) bits

/-- Reads `count` symbols from a backward bit string that holds nothing else, onto `out`. -/
def Tree.stream (t : Tree) (count : Nat) (out bytes : Bytes) : Option Bytes :=
  match Backward.ofBytes? bytes with
  | none => none
  | some s =>
    match t.symbols count out s.ahead with
    | some (out, []) => some out
    | _ => none

/-- Builds the code of depth `depth` whose symbols have the given spans, as exponents, in order. -/
def build : Nat → List (UInt8 × Nat) → Option (Tree × List (UInt8 × Nat))
  | _, [] => none
  | 0, (symbol, _) :: rest => some (.leaf symbol, rest)
  | depth + 1, (symbol, span) :: rest =>
    if span = depth + 1 then some (.leaf symbol, rest)
    else
      match build depth ((symbol, span) :: rest) with
      | none => none
      | some (zero, rest) =>
        match build depth rest with
        | none => none
        | some (one, rest) => some (.node zero one, rest)

def ofWeight (weights : List Nat) (weight : Nat) : List (UInt8 × Nat) :=
  weights.zipIdx.filterMap fun (w, symbol) =>
    if w = weight then some (UInt8.ofNat symbol, weight - 1) else none

/-- The weights with the last one, which is not written, if they make a code. -/
def complete? (weights : List Nat) : Option (Nat × List Nat) :=
  if weights.any (maxDepth < ·) then none
  else
    let total := weights.foldr (fun w n => (1 <<< w) / 2 + n) 0
    if total = 0 then none
    else
      let depth := Nat.log2 total + 1
      let rest := (1 <<< depth) - total
      if maxDepth < depth then none
      else if rest ≠ 1 <<< Nat.log2 rest then none
      else
        let weights := weights ++ [Nat.log2 rest + 1]
        let ones := weights.count 1
        if ones < 2 ∨ ones % 2 = 1 then none else some (depth, weights)

def Tree.ofWeights? (weights : List Nat) : Option Tree :=
  match complete? weights with
  | none => none
  | some (depth, weights) =>
    let symbols := (List.range depth).flatMap fun i => ofWeight weights (i + 1)
    (build depth symbols).map Prod.fst

def plainWeights (count : Nat) (bytes : Bytes) : List Nat :=
  (bytes.flatMap fun b => [b.toNat / 16, b.toNat % 16]).take count

/-- Weights of an entropy-coded list: two states take turns, and the list ends when a state asks
for more bits than there are. -/
def codedWeights (t : Fse.Table) : Nat → Nat → Nat → List Nat → Backward → Option (List Nat)
  | 0, _, _, _, _ => none
  | fuel + 1, now, later, weights, s =>
    let cell := t.cell now
    let weights := cell.symbol :: weights
    let (n, s) := s.read cell.bits
    if s.beyond = 0 then codedWeights t fuel later (cell.base + n) weights s
    else some ((t.cell later).symbol :: weights).reverse

/-- The longest list of coded weights, less one. -/
def weightLimit : Nat := 254

def readCodedWeights (bytes : Bytes) : Option (List Nat) :=
  match Fse.Table.read? 255 6 bytes with
  | none => none
  | some (t, bytes) =>
    match Backward.ofBytes? bytes with
    | none => none
    | some s =>
      let (now, s) := s.read t.log
      let (later, s) := s.read t.log
      codedWeights t weightLimit now later [] s

def readWeights : Bytes → Option (List Nat × Bytes)
  | [] => none
  | h :: bytes =>
    if 128 ≤ h then
      let count := h.toNat - 127
      (Bytes.split? ((count + 1) / 2) bytes).map fun (now, rest) => (plainWeights count now, rest)
    else
      match Bytes.split? h.toNat bytes with
      | none => none
      | some (now, rest) => (readCodedWeights now).map fun weights => (weights, rest)

/-- The code described at the front of some bytes, and what follows it, which is not nothing. -/
def Tree.read? (bytes : Bytes) : Option (Tree × Bytes) :=
  match readWeights bytes with
  | none => none
  | some (weights, rest) =>
    if rest.isEmpty then none else (Tree.ofWeights? weights).map fun t => (t, rest)

/-- Four bit strings one after another, after the lengths of the first three; each of the first
three holds a quarter of the symbols, rounded up. -/
def Tree.fourStreams (t : Tree) (count : Nat) (bytes : Bytes) : Option Bytes :=
  let quarter := (count + 3) / 4
  match Bytes.split? 6 bytes with
  | none => none
  | some (lengths, rest) =>
    let length (i : Nat) := Bytes.toNat ((lengths.drop (2 * i)).take 2)
    if count < 3 * quarter then none
    else
      match Bytes.split? (length 0) rest with
      | none => none
      | some (first, rest) =>
        match Bytes.split? (length 1) rest with
        | none => none
        | some (second, rest) =>
          match Bytes.split? (length 2) rest with
          | none => none
          | some (third, fourth) =>
            (t.stream quarter [] first).bind fun out =>
              (t.stream quarter out second).bind fun out =>
                (t.stream quarter out third).bind fun out =>
                  t.stream (count - 3 * quarter) out fourth

end NativeCodec.Zstd.Huffman
