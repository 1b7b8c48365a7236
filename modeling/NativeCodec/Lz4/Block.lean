import NativeCodec.BackReference

/-!
LZ4 blocks as data.

A block is a list of sequences, each some literal bytes followed by a match (an offset back into
what was produced and a length), and a last run of literals. `Block.encode` writes the bytes of a
block, `Block.expand` the bytes it stands for, and `Grounded` says that every match has something to
copy. `Piece.read?` takes one sequence off the front of any bytes, and `Piece.read?_rest_lt` says
that a sequence which is not the last leaves less to read.
-/

set_option autoImplicit false
set_option relaxedAutoImplicit false

namespace NativeCodec.Lz4

/-- The shortest match: a token stores a match length less this. -/
def minMatch : Nat := 4

/-- The largest input of the block compressor. -/
def maxInputSize : Nat := 0x7E000000

/-- The largest compressed size of `n` bytes, which is 0 for an input that is too large. -/
def compressBound (n : Nat) : Nat := if n ≤ maxInputSize then n + n / 255 + 16 else 0

structure Sequence where
  literals : Bytes
  offset : Nat
  matchLength : Nat
  deriving DecidableEq, Repr

/-- Sequences, the last literals, and the unused half of the last token. -/
structure Block where
  sequences : List Sequence
  tail : Bytes
  spare : Fin 16 := 0
  deriving DecidableEq, Repr

def lengthNibble (n : Nat) : Nat := min n 15

/-- The bytes that carry on a length of 15 or more: as many 255 as fit, then the remainder. -/
def lengthExtension (n : Nat) : Bytes :=
  if n < 15 then [] else List.replicate ((n - 15) / 255) 255 ++ [UInt8.ofNat ((n - 15) % 255)]

/-- The token whose halves are the given numbers below 16. -/
def token (high low : Nat) : UInt8 := UInt8.ofNat (high * 16 + low)

def Sequence.encode (s : Sequence) : Bytes :=
  token (lengthNibble s.literals.length) (lengthNibble (s.matchLength - minMatch)) ::
    (lengthExtension s.literals.length ++ s.literals ++ Bytes.ofNat 2 s.offset ++
      lengthExtension (s.matchLength - minMatch))

def encodeTail (tail : Bytes) (spare : Fin 16) : Bytes :=
  token (lengthNibble tail.length) spare :: (lengthExtension tail.length ++ tail)

/-- The bytes of a block. -/
def Block.encode (b : Block) : Bytes :=
  (b.sequences.flatMap Sequence.encode) ++ encodeTail b.tail b.spare

/-- The number of bytes that a block stands for. -/
def Block.size (b : Block) : Nat :=
  b.sequences.foldr (fun s n => s.literals.length + s.matchLength + n) b.tail.length

/-- Whether every match reaches back to a byte that was produced before it, and is long enough. -/
def Grounded : Nat → List Sequence → Prop
  | _, [] => True
  | produced, s :: rest =>
    1 ≤ s.offset ∧ s.offset ≤ produced + s.literals.length ∧ minMatch ≤ s.matchLength ∧
      s.offset < 65536 ∧ Grounded (produced + s.literals.length + s.matchLength) rest

/-- The bytes that sequences and a tail stand for, after `out`, kept newest first. -/
def expandFrom (out : Bytes) : List Sequence → Bytes → Bytes
  | [], tail => (tail.reverseAux out).reverse
  | s :: rest, tail =>
    expandFrom (repeatByte s.offset s.matchLength (s.literals.reverseAux out)) rest tail

/-- The bytes that a block stands for. -/
def Block.expand (b : Block) : Bytes := expandFrom [] b.sequences b.tail

/-- Carries a length on: every 255 says that another byte follows. -/
def readExtension : Nat → Bytes → Option (Nat × Bytes)
  | _, [] => none
  | length, b :: rest =>
    if b = 255 then readExtension (length + 255) rest else some (length + b.toNat, rest)

def readLength (nibble : Nat) (bytes : Bytes) : Option (Nat × Bytes) :=
  if nibble = 15 then readExtension 15 bytes else some (nibble, bytes)

/-- A match: how far back it reaches and how long it is. -/
structure Copy where
  offset : Nat
  length : Nat
  deriving DecidableEq, Repr

def extensionWidth (n : Nat) : Nat := if n < 15 then 0 else (n - 15) / 255 + 1

def Copy.width (c : Copy) : Nat := 2 + extensionWidth (c.length - minMatch)

/-- One sequence read off the front of a block; the last one has no match and nothing after it. -/
inductive Piece
  | last (literals : Bytes)
  | inner (literals : Bytes) (copy : Copy) (rest : Bytes)
  deriving DecidableEq, Repr

def readCopy (nibble : Nat) : Bytes → Option (Copy × Bytes)
  | low :: high :: bytes =>
    (readLength nibble bytes).map fun (length, rest) =>
      (⟨low.toNat + 256 * high.toNat, length + minMatch⟩, rest)
  | _ => none

/-- Takes one sequence off the front of a block, if it is all there. -/
def Piece.read? : Bytes → Option Piece
  | [] => none
  | t :: bytes =>
    match readLength (t.toNat / 16) bytes with
    | none => none
    | some (count, bytes) =>
      match Bytes.split? count bytes with
      | none => none
      | some (literals, []) => some (.last literals)
      | some (literals, bytes) =>
        match readCopy (t.toNat % 16) bytes with
        | none => none
        | some (copy, rest) => some (.inner literals copy rest)

theorem readExtension_length_lt {length n : Nat} {bytes rest : Bytes}
    (h : readExtension length bytes = some (n, rest)) : rest.length < bytes.length := by
  induction bytes generalizing length with
  | nil => simp [readExtension] at h
  | cons b bytes ih =>
    unfold readExtension at h
    split at h
    · exact Nat.lt_succ_of_lt (ih h)
    · simp only [Option.some.injEq, Prod.mk.injEq] at h
      simp [← h.2]

theorem readLength_length_le {nibble n : Nat} {bytes rest : Bytes}
    (h : readLength nibble bytes = some (n, rest)) : rest.length ≤ bytes.length := by
  unfold readLength at h
  split at h
  · exact Nat.le_of_lt (readExtension_length_lt h)
  · simp only [Option.some.injEq, Prod.mk.injEq] at h
    simp [h.2]

theorem readCopy_length_lt {nibble : Nat} {copy : Copy} {bytes rest : Bytes}
    (h : readCopy nibble bytes = some (copy, rest)) : rest.length < bytes.length := by
  match bytes, h with
  | low :: high :: bytes, h =>
    simp only [readCopy, Option.map_eq_some_iff, Prod.mk.injEq, Prod.exists] at h
    obtain ⟨n, r, hr, -, rfl⟩ := h
    have := readLength_length_le hr
    simp only [List.length_cons]
    omega

theorem Piece.read?_rest_lt {bytes literals rest : Bytes} {copy : Copy}
    (h : Piece.read? bytes = some (.inner literals copy rest)) : rest.length < bytes.length := by
  match bytes, h with
  | t :: bytes, h =>
    simp only [Piece.read?] at h
    cases hl : readLength (t.toNat / 16) bytes with
    | none => simp [hl] at h
    | some p =>
      cases hs : Bytes.split? p.1 p.2 with
      | none => simp [hl, hs] at h
      | some q =>
        obtain ⟨lits, more⟩ := q
        cases more with
        | nil => simp [hl, hs] at h
        | cons b more =>
          cases hc : readCopy (t.toNat % 16) (b :: more) with
          | none => simp [hl, hs, hc] at h
          | some r =>
            simp only [hl, hs, hc, Option.some.injEq, Piece.inner.injEq] at h
            obtain ⟨-, -, rfl⟩ := h
            have h₁ := readLength_length_le hl
            have h₃ := readCopy_length_lt hc
            have h₄ := congrArg List.length (Bytes.split?_eq_some hs).1
            simp only [List.length_append] at h₄
            simp only [List.length_cons] at *
            omega

end NativeCodec.Lz4
