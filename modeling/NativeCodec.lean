import NativeCodec.Codec.Assay
import NativeCodec.Codec.Operation
import NativeCodec.Native.Scripted
import NativeCodec.Native.System
import NativeCodec.Proofs.BackReference
import NativeCodec.Proofs.Context.Codecs
import NativeCodec.Proofs.Context.Ledger
import NativeCodec.Proofs.Context.Operations
import NativeCodec.Proofs.Context.Zstd
import NativeCodec.Proofs.Library.Loading
import NativeCodec.Proofs.Library.Resolution
import NativeCodec.Proofs.Library.Tables
import NativeCodec.Proofs.Library.Variables
import NativeCodec.Proofs.Lz4.Capacity
import NativeCodec.Proofs.Lz4.Compression
import NativeCodec.Proofs.Lz4.Compressor
import NativeCodec.Proofs.Lz4.Decompression
import NativeCodec.Proofs.Lz4.Encoder
import NativeCodec.Proofs.Lz4.Encoding
import NativeCodec.Proofs.Lz4.Ending
import NativeCodec.Proofs.Lz4.Expansion
import NativeCodec.Proofs.Lz4.Grammar
import NativeCodec.Proofs.Lz4.Items
import NativeCodec.Proofs.Lz4.Measure
import NativeCodec.Proofs.Lz4.Numbers
import NativeCodec.Proofs.Lz4.PrefixFree
import NativeCodec.Proofs.Lz4.Prefixed
import NativeCodec.Proofs.Lz4.Room
import NativeCodec.Proofs.Lz4.RoundTrip
import NativeCodec.Proofs.Lz4.StoredSize
import NativeCodec.Proofs.Lz4.Sufficient
import NativeCodec.Proofs.Lz4.Typed
import NativeCodec.Proofs.Lz4.Walking
import NativeCodec.Proofs.Memory.ByteFile
import NativeCodec.Proofs.Memory.Chain
import NativeCodec.Proofs.Memory.Chunks
import NativeCodec.Proofs.Memory.Content
import NativeCodec.Proofs.Memory.Destination
import NativeCodec.Proofs.Memory.Growth
import NativeCodec.Proofs.Memory.Kinds
import NativeCodec.Proofs.Memory.Slices
import NativeCodec.Proofs.Memory.Window
import NativeCodec.Proofs.Native.System
import NativeCodec.Proofs.Once
import NativeCodec.Proofs.Operation
import NativeCodec.Proofs.Reuse.Abreast
import NativeCodec.Proofs.Reuse.Codecs
import NativeCodec.Proofs.Reuse.Instances
import NativeCodec.Proofs.Reuse.Making
import NativeCodec.Proofs.Reuse.Operations
import NativeCodec.Proofs.Session.Act
import NativeCodec.Proofs.Session.Binding
import NativeCodec.Proofs.Session.Buffers
import NativeCodec.Proofs.Session.Codecs
import NativeCodec.Proofs.Session.Copying
import NativeCodec.Proofs.Session.Cursors
import NativeCodec.Proofs.Session.Handling
import NativeCodec.Proofs.Session.Layout
import NativeCodec.Proofs.Session.Objects
import NativeCodec.Proofs.Session.Ownership
import NativeCodec.Proofs.Session.Ranges
import NativeCodec.Proofs.Session.Steps
import NativeCodec.Proofs.Session.Views
import NativeCodec.Proofs.Status.Codecs
import NativeCodec.Proofs.Status.Compression
import NativeCodec.Proofs.Status.Kinds
import NativeCodec.Proofs.Status.Replies
import NativeCodec.Proofs.Transfer.Coding
import NativeCodec.Proofs.Transfer.Confinement
import NativeCodec.Proofs.Transfer.Facing
import NativeCodec.Proofs.Transfer.Indifference
import NativeCodec.Proofs.Transfer.Likeness
import NativeCodec.Proofs.Transfer.Ranges
import NativeCodec.Proofs.Transfer.Twins
import NativeCodec.Proofs.Zstd.Additivity
import NativeCodec.Proofs.Zstd.Agreement
import NativeCodec.Proofs.Zstd.Blocks
import NativeCodec.Proofs.Zstd.Conforming
import NativeCodec.Proofs.Zstd.Contents
import NativeCodec.Proofs.Zstd.Contexts
import NativeCodec.Proofs.Zstd.Decoding
import NativeCodec.Proofs.Zstd.Draining
import NativeCodec.Proofs.Zstd.Frames
import NativeCodec.Proofs.Zstd.Headers
import NativeCodec.Proofs.Zstd.Literals
import NativeCodec.Proofs.Zstd.Looks
import NativeCodec.Proofs.Zstd.Probe
import NativeCodec.Proofs.Zstd.Recipes
import NativeCodec.Proofs.Zstd.RoundTrip
import NativeCodec.Proofs.Zstd.SelfSizing
import NativeCodec.Proofs.Zstd.Streamed
import NativeCodec.Proofs.Zstd.Truncation
import NativeCodec.Proofs.Zstd.Turns
import NativeCodec.Proofs.Zstd.Unpacking
import NativeCodec.Proofs.Zstd.Validation
import NativeCodec.Session.Codecs
import NativeCodec.Session.Contexts
import NativeCodec.Session.Direct
import NativeCodec.Session.Loading
