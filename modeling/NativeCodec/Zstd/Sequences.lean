import NativeCodec.BackReference
import NativeCodec.Zstd.Literals

set_option autoImplicit false
set_option relaxedAutoImplicit false

namespace NativeCodec.Zstd

/-- Takes `literals` bytes and repeats `length` bytes from `offset` places back. -/
structure Sequence where
  literals : Nat
  offset : Nat
  length : Nat
  deriving DecidableEq, Repr

/-- The base value and the number of extra bits of each literal length code. -/
def literalCodes : Array (Nat × Nat) := #[
  (0, 0), (1, 0), (2, 0), (3, 0), (4, 0), (5, 0), (6, 0), (7, 0), (8, 0), (9, 0), (10, 0),
  (11, 0), (12, 0), (13, 0), (14, 0), (15, 0), (16, 1), (18, 1), (20, 1), (22, 1), (24, 2),
  (28, 2), (32, 3), (40, 3), (48, 4), (64, 6), (128, 7), (256, 8), (512, 9), (1024, 10),
  (2048, 11), (4096, 12), (8192, 13), (16384, 14), (32768, 15), (65536, 16)]

/-- The base value and the number of extra bits of each match length code. -/
def matchCodes : Array (Nat × Nat) := #[
  (3, 0), (4, 0), (5, 0), (6, 0), (7, 0), (8, 0), (9, 0), (10, 0), (11, 0), (12, 0), (13, 0),
  (14, 0), (15, 0), (16, 0), (17, 0), (18, 0), (19, 0), (20, 0), (21, 0), (22, 0), (23, 0),
  (24, 0), (25, 0), (26, 0), (27, 0), (28, 0), (29, 0), (30, 0), (31, 0), (32, 0), (33, 0),
  (34, 0), (35, 1), (37, 1), (39, 1), (41, 1), (43, 2), (47, 2), (51, 3), (59, 3), (67, 4),
  (83, 4), (99, 5), (131, 7), (259, 8), (515, 9), (1027, 10), (2051, 11), (4099, 12),
  (8195, 13), (16387, 14), (32771, 15), (65539, 16)]

/-- The shares of the literal length codes when a block gives none. -/
def literalShares : Fse.Distribution :=
  [4, 3, 2, 2, 2, 2, 2, 2, 2, 2, 2, 2, 2, 1, 1, 1, 2, 2, 2, 2, 2, 2, 2, 2, 2, 3, 2, 1, 1, 1, 1, 1,
    -1, -1, -1, -1]

/-- The shares of the match length codes when a block gives none. -/
def matchShares : Fse.Distribution :=
  [1, 4, 3, 2, 2, 2, 2, 2, 2, 1, 1, 1, 1, 1, 1, 1, 1, 1, 1, 1, 1, 1, 1, 1, 1, 1, 1, 1, 1, 1, 1, 1,
    1, 1, 1, 1, 1, 1, 1, 1, 1, 1, 1, 1, 1, 1, -1, -1, -1, -1, -1, -1, -1]

/-- The shares of the offset codes when a block gives none. -/
def offsetShares : Fse.Distribution :=
  [1, 1, 1, 1, 1, 1, 2, 2, 2, 1, 1, 1, 1, 1, 1, 1, 1, 1, 1, 1, 1, 1, 1, 1, -1, -1, -1, -1, -1]

/-- What is known of one of the three kinds of code: its largest code, its largest table, and the
table of a block that gives none. -/
structure Family where
  maxCode : Nat
  maxLog : Nat
  standard : Fse.Table

def literalFamily : Family := ⟨35, 9, .ofDistribution 6 literalShares⟩
def offsetFamily : Family := ⟨31, 8, .ofDistribution 5 offsetShares⟩
def matchFamily : Family := ⟨52, 9, .ofDistribution 6 matchShares⟩

/-- The three offsets used last, the latest first. -/
structure Recent where
  first : Nat
  second : Nat
  third : Nat
  deriving DecidableEq, Repr

/-- What one block of a frame leaves for the next: the code of its literals, its three tables if it
had sequences, and its last offsets. -/
structure Entropy where
  code : Option Huffman.Tree := none
  tables : Option (Fse.Table × Fse.Table × Fse.Table) := none
  repeatable : Bool := false
  recent : Recent := ⟨1, 4, 8⟩

/-- The number of sequences of a block and what follows it, or nothing at all for a block that ends
there without any. -/
def readCount : Bytes → Except Fault (Option (Nat × Bytes))
  | [] => .error .sourceSize
  | h :: bytes =>
    if h = 0 then (if bytes.isEmpty then .ok none else .error .sourceSize)
    else if h < 128 then .ok (some (h.toNat, bytes))
    else if h < 255 then
      match bytes with
      | [] => .error .sourceSize
      | low :: bytes => .ok (some ((h.toNat - 128) * 256 + low.toNat, bytes))
    else
      match Bytes.split? 2 bytes with
      | none => .error .sourceSize
      | some (count, bytes) => .ok (some (Bytes.toNat count + 0x7F00, bytes))

/-- One table: the standard one, one that always gives the same code, one that is described here,
or the one before it. -/
def readTable (family : Family) (mode : Nat) (before : Option Fse.Table) (bytes : Bytes) :
    Option (Fse.Table × Bytes) :=
  match mode with
  | 0 => some (family.standard, bytes)
  | 1 =>
    match bytes with
    | [] => none
    | code :: rest => if family.maxCode < code.toNat then none else some (.single code.toNat, rest)
  | 2 => Fse.Table.read? family.maxCode family.maxLog bytes
  | _ => before.map fun t => (t, bytes)

/-- The three tables of a block and the bit string that follows them. -/
def readTables (e : Entropy) : Bytes → Except Fault ((Fse.Table × Fse.Table × Fse.Table) × Bytes)
  | [] => .error .sourceSize
  | modes :: bytes =>
    let modes := modes.toNat
    let before := if e.repeatable then e.tables else none
    let found : Option ((Fse.Table × Fse.Table × Fse.Table) × Bytes) :=
      (readTable literalFamily (modes / 64) (before.map (·.1)) bytes).bind fun (ll, bytes) =>
        (readTable offsetFamily (modes / 16 % 4) (before.map (·.2.1)) bytes).bind
          fun (of, bytes) =>
            (readTable matchFamily (modes / 4 % 4) (before.map (·.2.2)) bytes).map
              fun (ml, bytes) => ((ll, of, ml), bytes)
    match found with
    | none => .error .corrupted
    | some result => .ok result

/-- The offset that an offset code means, and the offsets used last after it. Codes above 1 give a
new offset; the others choose one of the last three, shifted by one place when the sequence takes
no literals. An offset of zero cannot be, and counts as 1. -/
def Recent.choose (r : Recent) (code extra : Nat) (noLiterals : Bool) : Nat × Recent :=
  if 1 < code then
    let offset := (1 <<< code) - 3 + extra
    (offset, ⟨offset, r.first, r.second⟩)
  else
    match code + extra + noLiterals.toNat with
    | 0 => (r.first, r)
    | 1 => (r.second, ⟨r.second, r.first, r.third⟩)
    | 2 => (r.third, ⟨r.third, r.first, r.second⟩)
    | _ =>
      let offset := max (r.first - 1) 1
      (offset, ⟨offset, r.first, r.second⟩)

def readValue (codes : Array (Nat × Nat)) (code : Nat) (s : Backward) : Nat × Backward :=
  let (base, bits) := codes.getD code (0, 0)
  if bits = 0 then (base, s)
  else
    let (extra, s) := s.readExtra bits
    (base + extra, s)

def nextState (cell : Fse.Cell) (s : Backward) : Nat × Backward :=
  let (n, s) := s.read cell.bits
  (cell.base + n, s)

/-- Decodes `count` sequences in the three given states, newest first. -/
def decodeSequences (tables : Fse.Table × Fse.Table × Fse.Table) :
    Nat → Nat × Nat × Nat → Recent → List Sequence → Backward →
    List Sequence × Recent × Backward
  | 0, _, recent, done, s => (done, recent, s)
  | count + 1, (ll, of, ml), recent, done, s =>
    let literal := tables.1.cell ll
    let offset := tables.2.1.cell of
    let copy := tables.2.2.cell ml
    let (extra, s) := if offset.symbol = 0 then (0, s) else s.readExtra offset.symbol
    let (distance, recent) := recent.choose offset.symbol extra (literal.symbol = 0)
    let (length, s) := readValue matchCodes copy.symbol s
    let (literals, s) := readValue literalCodes literal.symbol s
    let (ll, s) := nextState literal s
    let (ml, s) := nextState copy s
    let (of, s) := nextState offset s
    decodeSequences tables count (ll, of, ml) recent (⟨literals, distance, length⟩ :: done) s

/-- What a frame stands for so far, newest first, and how much that is. -/
structure Output where
  reversed : Bytes := []
  size : Nat := 0

def Output.append (o : Output) (bytes : Bytes) (count : Nat) : Output :=
  ⟨bytes.reverseAux o.reversed, o.size + count⟩

def Output.toBytes (o : Output) : Bytes := o.reversed.reverse

def Output.finish (capacity : Nat) (out : Output) (literals : Bytes) (count : Nat) :
    Except Fault Output :=
  if capacity < out.size + count then .error .destinationTooSmall
  else .ok (out.append literals count)

/-- Carries sequences out with the literals that they take, `count` of them at first, and gives
the literals left over. -/
def execute (capacity : Nat) :
    List Sequence → Bytes → Nat → Output → Except Fault (Bytes × Nat × Output)
  | [], literals, count, out => .ok (literals, count, out)
  | s :: rest, literals, count, out =>
    if capacity < out.size + s.literals + s.length then .error .destinationTooSmall
    else if count < s.literals then .error .corrupted
    else if out.size + s.literals < s.offset then .error .corrupted
    else
      let (now, later) := literals.splitAt s.literals
      let out := out.append now s.literals
      execute capacity rest later (count - s.literals)
        ⟨copyMatch s.offset s.length out.reversed, out.size + s.length⟩

/-- The sequences in a bit string, with the offsets used last after them and what is left unread. -/
def readSequences (tables : Fse.Table × Fse.Table × Fse.Table) (count : Nat) (recent : Recent)
    (bytes : Bytes) : Option (List Sequence × Recent × Backward) :=
  match Backward.ofBytes? bytes with
  | none => none
  | some s =>
    let (ll, s) := s.read tables.1.log
    let (of, s) := s.read tables.2.1.log
    let (ml, s) := s.read tables.2.2.log
    let (done, recent, s) := decodeSequences tables count (ll, of, ml) recent [] s
    some (done.reverse, recent, s)

def decodeBlock (capacity : Nat) (e : Entropy) (out : Output) (src : Bytes) :
    Except Fault (Entropy × Output) :=
  if Bytes.holds maxBlock src then .error .sourceSize
  else
    match readLiterals e.code (capacity - out.size) src with
    | .error f => .error f
    | .ok (literals, code, rest) =>
      let e := { e with code }
      let all := literals.length
      match readCount rest with
      | .error f => .error f
      | .ok none => (out.finish capacity literals all).map fun out => (e, out)
      | .ok (some (count, rest)) =>
        match readTables e rest with
        | .error f => .error f
        | .ok (tables, rest) =>
          let e := { e with tables := some tables }
          if count = 0 then (out.finish capacity literals all).map fun out => (e, out)
          else
            match readSequences tables count e.recent rest with
            | none => .error .corrupted
            | some (sequences, recent, s) =>
              match execute capacity sequences literals all out with
              | .error f => .error f
              | .ok (literals, left, out) =>
                if s.ahead.isEmpty then
                  (out.finish capacity literals left).map fun out =>
                    ({ e with recent, repeatable := true }, out)
                else .error .corrupted

end NativeCodec.Zstd
