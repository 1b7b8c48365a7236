set_option autoImplicit false
set_option relaxedAutoImplicit false

namespace NativeCodec

/-- A compression algorithm. -/
inductive Algorithm
  | lz4
  | snappy
  | zstd
  deriving DecidableEq, Repr

namespace Algorithm

/-- All algorithms. -/
def all : List Algorithm := [lz4, snappy, zstd]

def name : Algorithm → String
  | lz4 => "lz4"
  | snappy => "snappy"
  | zstd => "zstd"

def title : Algorithm → String
  | lz4 => "LZ4"
  | snappy => "SNAPPY"
  | zstd => "ZSTD"

def ofName? (name : String) : Option Algorithm := all.find? fun a => a.name == name

end Algorithm

end NativeCodec
