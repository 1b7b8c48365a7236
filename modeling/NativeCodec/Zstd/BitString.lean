import NativeCodec.Bytes

set_option autoImplicit false
set_option relaxedAutoImplicit false

namespace NativeCodec.Zstd

def bitsUp (b : UInt8) : List Bool := (List.range 8).map fun i => b.toNat.testBit i

def bitsDown (b : UInt8) : List Bool := (bitsUp b).reverse

/-- The number whose binary digits, highest first, are the given bits. -/
def numberDown (bits : List Bool) : Nat := bits.foldl (fun n b => 2 * n + b.toNat) 0

/-- The number whose binary digits, lowest first, are the given bits. -/
def numberUp (bits : List Bool) : Nat := bits.foldr (fun b n => b.toNat + 2 * n) 0

/-- The first `count` bits as a number, lowest first, and what follows them. -/
def takeUp? (count : Nat) (bits : List Bool) : Option (Nat × List Bool) :=
  if Bytes.holds count bits then
    let (now, later) := bits.splitAt count
    some (numberUp now, later)
  else none

/-- A backward bit string: the bits ahead, in the order of reading, the number that its first
eight bytes spell, and how many bits were read past its end. -/
structure Backward where
  ahead : List Bool
  first : Nat
  beyond : Nat := 0

/-- The backward bit string in some bytes, if the last byte marks where it starts. -/
def Backward.ofBytes? (bytes : Bytes) : Option Backward :=
  match bytes.reverse with
  | [] => none
  | b :: before =>
    if b = 0 then none
    else
      some
        { ahead := ((bitsDown b).dropWhile (!·)).tail ++ before.flatMap bitsDown
          first := Bytes.toNat (bytes.take 8) }

/-- Where the next bit stands, counted from the end of the string; negative past it. -/
def Backward.position (s : Backward) : Int := (s.ahead.length : Int) - s.beyond

/-- The string after `count` bits, if that is past its end. -/
def Backward.overrun (s : Backward) (count : Nat) : Backward :=
  { s with ahead := [], beyond := s.beyond + (count - s.ahead.length) }

/-- Reads a number of `count` bits. A read that reaches past the end wraps around inside the first
eight bytes of the string. -/
def Backward.read (s : Backward) (count : Nat) : Nat × Backward :=
  if Bytes.holds count s.ahead then
    let (now, later) := s.ahead.splitAt count
    (numberDown now, { s with ahead := later })
  else
    ((s.first >>> ((s.position - count) % 64).toNat) % (1 <<< count), s.overrun count)

/-- Reads a number of `count` bits that is added to a base value. A read that reaches past the end
is filled up with zero bits, and wraps around like `read` once no bit is left. -/
def Backward.readExtra (s : Backward) (count : Nat) : Nat × Backward :=
  if Bytes.holds count s.ahead then
    let (now, later) := s.ahead.splitAt count
    (numberDown now, { s with ahead := later })
  else
    (((s.first <<< ((64 - s.position) % 64).toNat) % wordLimit) >>> (64 - count),
      s.overrun count)

/-- The binary digits of a number, highest first, in the given width. -/
def digitsDown : Nat → Nat → List Bool
  | 0, _ => []
  | width + 1, n => digitsDown width (n / 2) ++ [n % 2 == 1]

/-- Groups bits, lowest first, into bytes. -/
def packUp : Nat → List Bool → Bytes
  | 0, _ => []
  | _ + 1, [] => []
  | fuel + 1, b :: bits =>
    UInt8.ofNat (numberUp ((b :: bits).take 8)) :: packUp fuel ((b :: bits).drop 8)

/-- The bytes whose backward bit string is the given one. -/
def packBackward (ahead : List Bool) : Bytes :=
  packUp (ahead.length + 1) (ahead.reverse ++ [true])

end NativeCodec.Zstd
