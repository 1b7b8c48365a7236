import NativeCodec.Bytes

/-!
Copies from what was already produced.

A back reference names bytes by how far back they are, and may be longer than that: it then repeats
itself. `repeatByte` is the meaning, one byte at a time; `copyMatch` takes the bytes that are there
once and cycles through them, on output kept newest first.
-/

set_option autoImplicit false
set_option relaxedAutoImplicit false

namespace NativeCodec

def repeatByte (offset : Nat) : Nat → Bytes → Bytes
  | 0, out => out
  | length + 1, out => repeatByte offset length (out.getD (offset - 1) 0 :: out)

/-- Puts `count` bytes in front of `out`, taking them from `cycle` again and again. -/
def cycleOnto (cycle : Bytes) : Bytes → Nat → Bytes → Bytes
  | _, 0, out => out
  | [], count + 1, out =>
    match cycle with
    | [] => out
    | b :: rest => cycleOnto cycle rest count (b :: out)
  | b :: rest, count + 1, out => cycleOnto cycle rest count (b :: out)

/-- Appends the bytes from `offset` places back on, `length` of them. -/
def copyMatch (offset length : Nat) (out : Bytes) : Bytes :=
  let cycle := (out.take offset).reverse
  cycleOnto cycle cycle length out

end NativeCodec
