import NativeCodec.Bytes

set_option autoImplicit false
set_option relaxedAutoImplicit false

namespace NativeCodec.Zstd.Checksum

/-- The five multipliers. -/
def prime₁ : UInt64 := 11400714785074694791
@[inherit_doc prime₁] def prime₂ : UInt64 := 14029467366897019727
@[inherit_doc prime₁] def prime₃ : UInt64 := 1609587929392839161
@[inherit_doc prime₁] def prime₄ : UInt64 := 9650029242287828579
@[inherit_doc prime₁] def prime₅ : UInt64 := 2870177450012600261

def rotate (x : UInt64) (by_ : UInt64) : UInt64 := (x <<< by_) ||| (x >>> (64 - by_))

def absorb (sum word : UInt64) : UInt64 := rotate (sum + word * prime₂) 31 * prime₁

/-- The number that up to eight bytes spell. -/
def word (bytes : Bytes) : UInt64 := bytes.foldr (fun b n => n * 256 + b.toUInt64) 0

structure Sums where
  a : UInt64 := prime₁ + prime₂
  b : UInt64 := prime₂
  c : UInt64 := 0
  d : UInt64 := 0 - prime₁

def Sums.absorb (s : Sums) (stripe : Bytes) : Sums :=
  let (w₁, stripe) := stripe.splitAt 8
  let (w₂, stripe) := stripe.splitAt 8
  let (w₃, w₄) := stripe.splitAt 8
  { a := Checksum.absorb s.a (word w₁), b := Checksum.absorb s.b (word w₂),
    c := Checksum.absorb s.c (word w₃), d := Checksum.absorb s.d (word w₄) }

def join (total sum : UInt64) : UInt64 := (total ^^^ absorb 0 sum) * prime₁ + prime₄

def Sums.total (s : Sums) : UInt64 :=
  [s.a, s.b, s.c, s.d].foldl join (rotate s.a 1 + rotate s.b 7 + rotate s.c 12 + rotate s.d 18)

def mixBytes (total : UInt64) (bytes : Bytes) : UInt64 :=
  bytes.foldl (fun total b => rotate (total ^^^ b.toUInt64 * prime₅) 11 * prime₁) total

/-- Mixes in the bytes after the last full stripe. -/
def mixWords : Nat → UInt64 → Bytes → UInt64
  | 0, total, bytes => mixBytes total bytes
  | fuel + 1, total, bytes =>
    if Bytes.holds 8 bytes then
      let (w, bytes) := bytes.splitAt 8
      mixWords fuel (rotate (total ^^^ absorb 0 (word w)) 27 * prime₁ + prime₄) bytes
    else if Bytes.holds 4 bytes then
      let (w, bytes) := bytes.splitAt 4
      mixBytes (rotate (total ^^^ word w * prime₁) 23 * prime₂ + prime₃) bytes
    else mixBytes total bytes

def finish (total : UInt64) : UInt64 :=
  let total := (total ^^^ (total >>> 33)) * prime₂
  let total := (total ^^^ (total >>> 29)) * prime₃
  total ^^^ (total >>> 32)

/-- Takes the full stripes into the sums and gives what is left over. -/
def stripes : Nat → Sums → Bytes → Sums × Bytes
  | 0, s, bytes => (s, bytes)
  | count + 1, s, bytes =>
    let (stripe, bytes) := bytes.splitAt 32
    stripes count (s.absorb stripe) bytes

def ofBytes (bytes : Bytes) : UInt64 :=
  let length := bytes.length
  if length < 32 then finish (mixWords 4 (prime₅ + UInt64.ofNat length) bytes)
  else
    let (s, rest) := stripes (length / 32) {} bytes
    finish (mixWords 4 (s.total + UInt64.ofNat length) rest)

/-- The four bytes that a frame keeps of the checksum of its content. -/
def stored (content : Bytes) : Bytes := Bytes.ofNat 4 (ofBytes content).toNat

end NativeCodec.Zstd.Checksum
