/-!
What can go wrong, and how it is said.

`Error` has one constructor for each cause. A cause belongs to a kind (`Error.kind`), has a text
(`Error.text`), and may carry a status of a native library and that library's own words for it.
Kinds are ordered by `Kind.isA`: each kind of this library is also one of the general kinds.
-/

set_option autoImplicit false
set_option relaxedAutoImplicit false

namespace NativeCodec

/-- The kinds of error. The first seven are this library's own. -/
inductive Kind
  | package
  | libraryLoad
  | symbolResolution
  | unsupportedBuffer
  | bufferTooSmall
  | malformedInput
  | nativeCall
  | value
  | system
  | importing
  | runtime
  | type
  | unimplemented
  | overflow
  | memory
  | key
  | buffer
  | interrupt
  | attribute
  | index
  deriving DecidableEq, Repr

namespace Kind

def parents : Kind → List Kind
  | libraryLoad => [package, system]
  | symbolResolution => [package, importing]
  | unsupportedBuffer => [package, type]
  | bufferTooSmall => [package, value]
  | malformedInput => [package, value]
  | nativeCall => [package, runtime]
  | unimplemented => [runtime]
  | _ => []

/-- Whether everything of the first kind is also of the second. -/
def isA (k above : Kind) : Bool := k == above || k.parents.contains above

def isOrdinary (k : Kind) : Bool := k != interrupt

end Kind

/-- What can go wrong. -/
inductive Error
  /-- An object that does not give its memory out. -/
  | notMemory (type : String)
  /-- A view of memory with gaps. -/
  | gaps (type : String)
  /-- Memory that must not be written. -/
  | readOnly (type : String)
  /-- An object that is not one flat run of bytes. -/
  | notFlat
  /-- Items of a view that are not whole numbers. -/
  | notWholeNumbers
  /-- A view of more than one dimension. -/
  | manyDimensions
  | offsetOutside (offset : Int) (size : Nat)
  | rangeOutside (offset length : Int) (size : Nat)
  | negativeLength (length : Int)
  | nullAddress
  | doesNotFit (count room : Nat)
  | negativeSize (size : Int)
  | writePastEnd
  | seekOutside
  | unknownWhence (whence : Int)
  | negativeCount
  /-- A number too large for the place it goes to. -/
  | tooLarge
  | outOfMemory
  | acceleration (n : Int)
  | level (n least most : Int)
  | inputTooLong (length limit : Int)
  | blockTooLong (length limit : Nat)
  | negativeInput (size : Int)
  | contentSizeUnknown
  /-- A destination too small to compress into. -/
  | compressionRoom (capacity length : Nat)
  /-- A destination smaller than what a block decompresses to. -/
  | blockRoom (capacity : Nat) (expected : Int)
  /-- A destination smaller than the size that is stored before a block. -/
  | storedRoom (capacity expected : Nat)
  /-- A destination too small, with nothing known of what it takes. -/
  | room (capacity : Nat)
  /-- A destination smaller than the library requires. -/
  | requiredRoom (capacity : Nat) (required : Int) (length : Nat)
  /-- A destination too small for a frame. -/
  | frameRoom (operation name : String)
  | malformedBlock (status : Int)
  | sizeMissing
  | sizeUnlikely (size length : Nat)
  | sizeRefuted (size : Nat) (inner : Error)
  | sizeWrong (size : Nat) (actual : Int)
  | malformedStream
  | malformedHeader
  | malformedFrame (operation name : String)
  | contextMissing (kind : String)
  | contextReleased (kind : String)
  /-- A status that says no more than that a call failed. -/
  | failed (operation : String) (status : Int)
  /-- A status that the text repeats. -/
  | failedWith (operation : String) (status : Int)
  /-- A status for which the library has words. -/
  | failedFrame (operation : String) (code : Nat) (name : String)
  | noProbe (codec : String)
  | noValidation (codec : String)
  | unknownAlgorithm (quoted : String)
  | wrongArgument
  | undeclared (signature name : String)
  | unresolved (symbol library path : String)
  | libraryMissing (path : String)
  | libraryMissingOnSystem (path name : String)
  | extractionFailed (name reason : String)
  | openingFailed (path reason : String)
  | notPackage (name : String)
  | moduleUnnamed
  /-- The name of a module that is relative to none. -/
  | moduleRelative (name : String)
  | pinned
  /-- A loop over replies that was given up. -/
  | endless
  /-- An error that a caller made up. -/
  | made (kind : Kind) (text : String) (code : Option Int) (diagnostic : Option String)
  /-- An error that was given its text and what it carries as they stand. -/
  | remade (kind : Kind) (text : String) (code : Option Int) (diagnostic : Option String)
  deriving DecidableEq, Repr

namespace Error

/-- The kind that a cause belongs to. -/
def kind : Error → Kind
  | notMemory _ | gaps _ | readOnly _ => .unsupportedBuffer
  | notFlat | notWholeNumbers | wrongArgument | notPackage _ | moduleRelative _ => .type
  | manyDimensions | noProbe _ | noValidation _ => .unimplemented
  | offsetOutside .. | rangeOutside .. | negativeLength _ | nullAddress | doesNotFit .. => .value
  | negativeSize _ | unknownWhence _ | negativeCount | acceleration _ | level .. => .value
  | inputTooLong .. | blockTooLong .. | negativeInput _ | contentSizeUnknown => .value
  | contextReleased _ | unknownAlgorithm _ | undeclared .. | moduleUnnamed => .value
  | writePastEnd | seekOutside => .system
  | tooLarge => .overflow
  | outOfMemory => .memory
  | compressionRoom .. | blockRoom .. | storedRoom .. | room _ => .bufferTooSmall
  | requiredRoom .. | frameRoom .. => .bufferTooSmall
  | malformedBlock _ | sizeMissing | sizeUnlikely .. | sizeRefuted .. => .malformedInput
  | sizeWrong .. | malformedStream | malformedHeader | malformedFrame .. => .malformedInput
  | contextMissing _ | failed .. | failedWith .. | failedFrame .. => .nativeCall
  | unresolved .. => .symbolResolution
  | libraryMissing _ | libraryMissingOnSystem .. => .libraryLoad
  | extractionFailed .. | openingFailed .. => .libraryLoad
  | pinned => .buffer
  | endless => .runtime
  | made k .. | remade k .. => k

def withDiagnostic (text : String) : Option String → String
  | none => text
  | some d => if d.isEmpty then text else s!"{text}: {d}"

/-- How a cause is said. -/
def text : Error → String
  | notMemory t => s!"Unsupported buffer kind {t}"
  | gaps t => s!"Unsupported buffer kind {t}: memory is not C-contiguous"
  | readOnly t => s!"Read-only buffer {t} cannot be used as a destination"
  | notFlat => "one flat run of bytes is required"
  | notWholeNumbers => "whole-number items are required"
  | manyDimensions => "multi-dimensional sub-views are not implemented"
  | offsetOutside o n => s!"offset {o} out of bounds for size {n}"
  | rangeOutside o l n => s!"range [{o}, {o}+{l}) out of bounds for size {n}"
  | negativeLength l => s!"length must be non-negative, got {l}"
  | nullAddress => "NULL address with non-zero length"
  | doesNotFit c r => s!"{c} bytes do not fit in a range of {r}"
  | negativeSize n => s!"size must be non-negative, got {n}"
  | writePastEnd => "Too much to write on direct buffer"
  | seekOutside => "Bad seek: cannot seek outside bounds of direct buffer"
  | unknownWhence w => s!"Invalid whence {w}, expected 0, 1 or 2"
  | negativeCount => "negative count"
  | tooLarge => "a number is too large"
  | outOfMemory => "out of memory"
  | acceleration n => s!"acceleration must be >= 1, got {n}"
  | level n least most => s!"compression level {n} outside [{least}, {most}]"
  | inputTooLong n limit => s!"input of {n} bytes exceeds LZ4 maximum of {limit}"
  | blockTooLong n limit => s!"compressed block of {n} bytes exceeds {limit}"
  | negativeInput n => s!"uncompressed size must be non-negative, got {n}"
  | contentSizeUnknown => "frame does not record its content size, pass output_len"
  | compressionRoom c n => s!"Output buffer too small: {c} bytes for {n} bytes of input"
  | blockRoom c n => s!"Output buffer too small: {c} bytes, block decompresses to {n}"
  | storedRoom c n => s!"Output buffer too small: {c} bytes, expected {n}"
  | room c => s!"Output buffer too small: {c} bytes"
  | requiredRoom c r n =>
    s!"Output buffer too small: {c} bytes, snappy requires {r} for {n} bytes of input"
  | frameRoom op name => s!"Output buffer too small during {op}: {name}"
  | malformedBlock status => s!"Malformed LZ4 block: result={status}"
  | sizeMissing => "Input too short to hold the stored size prefix"
  | sizeUnlikely n l => s!"Stored size {n} is inconsistent with a {l} byte block"
  | sizeRefuted n inner => s!"Stored size {n} is inconsistent with the block: {text inner}"
  | sizeWrong n m => s!"Stored size {n} but block decompressed to {m} bytes"
  | malformedStream => "Invalid input"
  | malformedHeader => "Invalid zstd frame header"
  | malformedFrame op name => s!"Malformed zstd input during {op}: {name}"
  | contextMissing k => s!"Failed to create native {k}"
  | contextReleased k => s!"Native {k} used after release"
  | failed op _ => s!"Unknown error occurred during {op}"
  | failedWith op status => s!"Unknown error occurred during {op}: result={status}"
  | failedFrame op _ name => withDiagnostic s!"Unknown error occurred during {op}" (some name)
  | noProbe codec => s!"{codec} cannot probe decompressed length"
  | noValidation codec => s!"{codec} cannot validate input"
  | unknownAlgorithm quoted => s!"{quoted} is not a valid Algorithm"
  | wrongArgument => "an argument is not of the right form"
  | undeclared signature name => s!"Signature {signature} does not declare {name}"
  | unresolved symbol library path => s!"unresolved symbol: {symbol} in {library} ({path})"
  | libraryMissing path => s!"Library not found: {path}"
  | libraryMissingOnSystem path name =>
    s!"Library not found: {path} and no system {name} library"
  | extractionFailed name reason => s!"Failed to extract library {name}: {reason}"
  | openingFailed path reason => s!"Failed to load library {path}: {reason}"
  | notPackage name => s!"{name} is not a package"
  | moduleUnnamed => "Empty module name"
  | moduleRelative name =>
    s!"the package argument is required to perform a relative import for {name}"
  | pinned => "the memory is pinned"
  | endless => "the native library does not come to an end"
  | made .nativeCall t _ d => withDiagnostic t d
  | made _ t _ _ | remade _ t _ _ => t

def code : Error → Option Int
  | failed _ status | failedWith _ status => some status
  | failedFrame _ c _ => some c
  | made .nativeCall _ c _ | remade _ _ c _ => c
  | _ => none

/-- What the native library says about the failure. -/
def diagnostic : Error → Option String
  | failedFrame _ _ name => some name
  | made .nativeCall _ _ d | remade _ _ _ d => d
  | _ => none

/-- The kind of what is behind an error, where something else is. -/
def cause : Error → Option Kind
  | unresolved .. => some .attribute
  | extractionFailed .. | openingFailed .. => some .system
  | _ => none

/-- A copy of an error. One of the same kind is made of the text alone, and is then given what the
error carries. -/
def copy (e : Error) : Error :=
  remade e.kind (made e.kind e.text none none).text e.code e.diagnostic

@[simp] theorem text_made (kind : Kind) (text : String) (code : Option Int) :
    (made kind text code none).text = text := by
  cases kind <;> rfl

@[simp] theorem kind_copy (e : Error) : e.copy.kind = e.kind := rfl

@[simp] theorem text_copy (e : Error) : e.copy.text = e.text := text_made e.kind e.text none

@[simp] theorem code_copy (e : Error) : e.copy.code = e.code := rfl

@[simp] theorem diagnostic_copy (e : Error) : e.copy.diagnostic = e.diagnostic := rfl

end Error

end NativeCodec
