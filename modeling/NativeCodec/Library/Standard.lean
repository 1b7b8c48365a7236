import NativeCodec.Bytes
import NativeCodec.Error

set_option autoImplicit false
set_option relaxedAutoImplicit false

namespace NativeCodec.Library

inductive Value
  | number (n : Int)
  | bytes (b : Bytes)
  | other
  deriving DecidableEq, Repr

/-- The least number that does not fit the given bits with a sign. -/
def signedLimit (bits : Nat) : Int := (1 <<< (bits - 1) : Nat)

def signed? (bits : Nat) (n : Int) : Except Error Int :=
  if -signedLimit bits ≤ n ∧ n < signedLimit bits then .ok n else .error .tooLarge

inductive Function
  | ofNumber (bits : Nat) (f : Int → Int)
  | ofBytes (f : Bytes → Int)

def magnitude (bits : Nat) (n : Int) : Int := if n = -signedLimit bits then n else n.natAbs

def capital (n : Int) : Int := if 97 ≤ n ∧ n ≤ 122 then n - 32 else n

def small (n : Int) : Int := if 65 ≤ n ∧ n ≤ 90 then n + 32 else n

def untilZero (b : Bytes) : Bytes := b.takeWhile (· != 0)

def leadingNumber (b : Bytes) : Nat :=
  (b.takeWhile fun d => 48 ≤ d && d ≤ 57).foldl (fun n d => 10 * n + (d.toNat - 48)) 0

def spelledNumber (b : Bytes) : Int :=
  match (untilZero b).dropWhile fun c => c == 32 || (9 ≤ c && c ≤ 13) with
  | 45 :: rest => -leadingNumber rest
  | 43 :: rest => leadingNumber rest
  | rest => leadingNumber rest

def standardFunctions : List (String × Function) :=
  [("strlen", .ofBytes fun b => (untilZero b).length),
    ("atoi", .ofBytes spelledNumber),
    ("atol", .ofBytes spelledNumber),
    ("abs", .ofNumber 32 (magnitude 32)),
    ("labs", .ofNumber 64 (magnitude 64)),
    ("llabs", .ofNumber 64 (magnitude 64)),
    ("toupper", .ofNumber 32 capital),
    ("tolower", .ofNumber 32 small)]

def standardNames : List String := standardFunctions.map (·.1)

def callStandard (name : String) (arguments : List Value) : Except Error Int :=
  match standardFunctions.lookup name, arguments with
  | some (.ofNumber bits f), [.number n] => (signed? bits n).map f
  | some (.ofBytes f), [.bytes b] => .ok (f b)
  | _, _ => .error .wrongArgument

end NativeCodec.Library
