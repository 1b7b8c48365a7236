import NativeCodec.Bytes

set_option autoImplicit false
set_option relaxedAutoImplicit false

namespace NativeCodec.Zstd

/-- What can be wrong with a frame, or with the place it is decoded into. -/
inductive Fault
  | unknownFrame
  | unsupportedParameter
  | windowTooLarge
  | corrupted
  | wrongChecksum
  | literalsHeader
  | dictionaryCorrupted
  | dictionaryMismatch
  | destinationTooSmall
  | sourceSize
  deriving DecidableEq, Repr

def Fault.code : Fault → Nat
  | .unknownFrame => 10
  | .unsupportedParameter => 14
  | .windowTooLarge => 16
  | .corrupted => 20
  | .wrongChecksum => 22
  | .literalsHeader => 24
  | .dictionaryCorrupted => 30
  | .dictionaryMismatch => 32
  | .destinationTooSmall => 70
  | .sourceSize => 72

/-- The code of an allocation that failed. -/
def allocationCode : Nat := 64

/-- The number of words at the end of the range that are errors, less one. -/
def errorWords : Nat := 120

def errorWord (code : Nat) : Nat := wordLimit - code

def Fault.word (f : Fault) : Nat := errorWord f.code

def isError (word : Nat) : Bool := wordLimit - errorWords < word

def errorCode (word : Nat) : Nat := if isError word then wordLimit - word else 0

def codeName : Nat → String
  | 0 => "No error detected"
  | 1 => "Error (generic)"
  | 10 => "Unknown frame descriptor"
  | 12 => "Version not supported"
  | 14 => "Unsupported frame parameter"
  | 16 => "Frame requires too much memory for decoding"
  | 20 => "Data corruption detected"
  | 22 => "Restored data doesn't match checksum"
  | 24 => "Header of Literals' block doesn't respect format specification"
  | 30 => "Dictionary is corrupted"
  | 32 => "Dictionary mismatch"
  | 34 => "Cannot create Dictionary from provided samples"
  | 40 => "Unsupported parameter"
  | 42 => "Parameter is out of bound"
  | 44 => "tableLog requires too much memory : unsupported"
  | 46 => "Unsupported max Symbol Value : too large"
  | 48 => "Specified maxSymbolValue is too small"
  | 50 => "pledged buffer stability condition is not respected"
  | 60 => "Operation not authorized at current processing stage"
  | 62 => "Context should be init first"
  | 64 => "Allocation error : not enough memory"
  | 66 => "workSpace buffer is not large enough"
  | 70 => "Destination buffer is too small"
  | 72 => "Src size is incorrect"
  | 74 => "Operation on NULL destination buffer"
  | 80 => "Operation made no progress over multiple calls, due to output buffer being full"
  | 82 => "Operation made no progress over multiple calls, due to input being empty"
  | 100 => "Frame index is too large"
  | 102 => "An I/O error occurred when reading/seeking"
  | 104 => "Destination buffer is wrong"
  | 105 => "Source buffer is wrong"
  | _ => "Unspecified error code"

theorem isError_eq_true {word : Nat} : isError word = true ↔ wordLimit - errorWords < word := by
  simp [isError]

theorem isError_errorWord {code : Nat} (h : code < errorWords) :
    isError (errorWord code) = true := by
  rw [isError_eq_true]
  unfold errorWord wordLimit
  unfold errorWords at *
  omega

theorem errorCode_errorWord {code : Nat} (h : code < errorWords) :
    errorCode (errorWord code) = code := by
  unfold errorCode
  rw [isError_errorWord h, if_pos rfl]
  unfold errorWord wordLimit
  unfold errorWords at h
  omega

theorem Fault.isError_word (f : Fault) : isError f.word = true := by
  cases f <;> exact isError_errorWord (by decide)

theorem Fault.errorCode_word (f : Fault) : errorCode f.word = f.code := by
  cases f <;> exact errorCode_errorWord (by decide)

end NativeCodec.Zstd
