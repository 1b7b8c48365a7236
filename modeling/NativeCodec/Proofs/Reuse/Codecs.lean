import NativeCodec.Codec.Operation
import NativeCodec.Proofs.Reuse.Operations
import NativeCodec.Proofs.Transfer.Confinement

set_option autoImplicit false
set_option relaxedAutoImplicit false

namespace NativeCodec

def Context.blank (c : Context) : Context := { c with handle := 0 }

namespace Codec

open Native

variable {σ τ : Type} {R : Runs σ} {content : σ → Nat → Option τ}

namespace Facade

/-- A codec without its length cell and the handle of its context. -/
def blank : Facade → Facade
  | snappyCompressor _ => snappyCompressor ⟨0⟩
  | snappyDecompressor _ => snappyDecompressor ⟨0⟩
  | zstdCompressor c => zstdCompressor { c with context := c.context.map Context.blank }
  | zstdDecompressor d => zstdDecompressor { d with context := d.context.map Context.blank }
  | f => f

/-- What a codec needs for its operations: its library is bound, and its length cell is there. -/
structure Ready (f : Facade) (w : World σ) : Prop where
  bound : ∃ k, (w.bindings f.algorithm).settled = some (.ok k)
  cell : ∀ c, f.cell? = some c → c < w.cells.length

theorem Ready.since {f : Facade} {w w' : World σ} (h : f.Ready w) (hw : Since w w') :
    f.Ready w' where
  bound := h.bound.imp fun _ => hw.settled _ _
  cell c hc := Nat.lt_of_lt_of_le (h.cell c hc) hw.cells_le

end Facade

private theorem Zstd.even_within {α : Type} (hL : R.library.Impartial R.sound content)
    {x y : Nat → Op σ α} (d : Direction) {own own' : Option Context}
    (hown : own'.map Context.blank = own.map Context.blank)
    (hx : ∀ handle handle', Op.Even R unknown (x handle) (y handle')) :
    Op.Even R unknown (within R.library d own x) (within R.library d own' y) := by
  cases own with
  | none =>
    rw [Option.map_eq_none_iff.mp hown]
    exact even_withContext hL d fun handle handle' => (hx handle handle').known
  | some c =>
    obtain ⟨c', rfl, hc⟩ := Option.map_eq_some_iff.mp hown
    obtain ⟨hkind, -, hreleased⟩ := Context.mk.inj hc
    unfold within Context.use
    dsimp only
    rw [hkind, hreleased]
    split
    · exact fun _ _ hw _ => ⟨rfl, hw⟩
    · exact hx c.handle c'.handle

namespace Facade

inductive SameMake : Facade → Facade → Prop
  | lz4Compressor (c : Lz4.Compressor) : SameMake (.lz4Compressor c) (.lz4Compressor c)
  | lz4Decompressor : SameMake .lz4Decompressor .lz4Decompressor
  | snappyCompressor (c c' : Snappy.Coder) : SameMake (.snappyCompressor c) (.snappyCompressor c')
  | snappyDecompressor (c c' : Snappy.Coder) :
      SameMake (.snappyDecompressor c) (.snappyDecompressor c')
  | zstdCompressor (level : Int) {own own' : Option Context}
      (h : own'.map Context.blank = own.map Context.blank) :
      SameMake (.zstdCompressor ⟨level, own⟩) (.zstdCompressor ⟨level, own'⟩)
  | zstdDecompressor {own own' : Option Context}
      (h : own'.map Context.blank = own.map Context.blank) :
      SameMake (.zstdDecompressor ⟨own⟩) (.zstdDecompressor ⟨own'⟩)

private theorem sameMake_of_blank {f f' : Facade} (h : f'.blank = f.blank) : SameMake f f' := by
  cases f with
  | lz4Compressor c =>
    cases f' with
    | lz4Compressor c' => exact lz4Compressor.inj h ▸ .lz4Compressor c'
    | _ => exact absurd h (by simp [blank])
  | lz4Decompressor =>
    cases f' with
    | lz4Decompressor => exact .lz4Decompressor
    | _ => exact absurd h (by simp [blank])
  | snappyCompressor c =>
    cases f' with
    | snappyCompressor c' => exact .snappyCompressor c c'
    | _ => exact absurd h (by simp [blank])
  | snappyDecompressor c =>
    cases f' with
    | snappyDecompressor c' => exact .snappyDecompressor c c'
    | _ => exact absurd h (by simp [blank])
  | zstdCompressor c =>
    cases f' with
    | zstdCompressor c' =>
      obtain ⟨level, own⟩ := c
      obtain ⟨level', own'⟩ := c'
      obtain ⟨rfl, hown⟩ := Zstd.Compressor.mk.inj (zstdCompressor.inj h)
      exact .zstdCompressor _ hown
    | _ => exact absurd h (by simp [blank])
  | zstdDecompressor d =>
    cases f' with
    | zstdDecompressor d' =>
      exact .zstdDecompressor (Zstd.Decompressor.mk.inj (zstdDecompressor.inj h))
    | _ => exact absurd h (by simp [blank])

section Even

variable {f f' : Facade} (hL : R.library.Impartial R.sound content) (hsame : SameMake f f')

include hL hsame

private theorem even_length (hr : f.Ready R.here) (hr' : f'.Ready R.there) (input : Argument) :
    Op.Even R unknown (f.length R.library input) (f'.length R.library input) := by
  cases hsame with
  | snappyDecompressor c c' =>
    exact Op.Even.map _ (Op.Even.input input fun src =>
      Snappy.even_lengthOfRange hL (hr.cell _ rfl) (hr'.cell _ rfl) src)
  | zstdDecompressor =>
    exact Op.Even.input input fun src => Zstd.even_lengthOfRange hL src
  | _ => exact Op.Even.throw _

private theorem even_validate (input : Argument) :
    Op.Even R unknown (f.validate R.library input) (f'.validate R.library input) := by
  cases hsame with
  | snappyDecompressor =>
    exact Op.Even.input input fun src => Snappy.even_validateRange hL src
  | zstdDecompressor =>
    exact Op.Even.input input fun src => Zstd.even_validateRange hL src
  | _ => exact Op.Even.throw _

private theorem even_decompress (hr : f.Ready R.here) (hr' : f'.Ready R.there)
    (input output : Argument) :
    Op.Even R unknown (f.decompress R.library input output)
      (f'.decompress R.library input output) := by
  cases hsame with
  | lz4Decompressor =>
    exact Op.Even.input input fun src => Op.Even.output output fun dst =>
      Lz4.even_decompressRange hL src dst
  | snappyDecompressor c c' =>
    exact Op.Even.map _ (Op.Even.input input fun src => Op.Even.output output fun dst =>
      Snappy.even_decompressRange hL (hr.cell _ rfl) (hr'.cell _ rfl) src dst)
  | zstdDecompressor hown =>
    exact Op.Even.map _ (Op.Even.input input fun src => Op.Even.output output fun dst =>
      Zstd.even_within hL .decompression hown fun handle handle' =>
        Zstd.even_decompressRange hL handle handle' src dst)
  | _ => exact Op.Even.throw _

private theorem even_compress (hr : f.Ready R.here) (hr' : f'.Ready R.there)
    (input output : Argument) :
    Op.Even R unknown (f.compress R.library input output) (f'.compress R.library input output) := by
  obtain ⟨k, hb⟩ := hr.bound
  obtain ⟨k', hb'⟩ := hr'.bound
  cases hsame with
  | lz4Compressor c =>
    exact Op.Even.input input fun src => Op.Even.output output fun dst =>
      Lz4.even_compressRange hL hb hb' c src dst
  | snappyCompressor c c' =>
    exact Op.Even.map _ (Op.Even.input input fun src => Op.Even.output output fun dst =>
      Snappy.even_compressRange hL (hr.cell _ rfl) (hr'.cell _ rfl) hb hb' src dst)
  | zstdCompressor level hown =>
    exact Op.Even.map _ (Op.Even.input input fun src => Op.Even.output output fun dst =>
      Zstd.even_within hL .compression hown fun handle handle' =>
        Zstd.even_compressRange hL handle handle' src dst level)
  | _ => exact Op.Even.throw _

private theorem even_bound (hr : f.Ready R.here) (hr' : f'.Ready R.there) (size : Int) :
    Op.Even R unknown (f.bound R.library size) (f'.bound R.library size) := by
  obtain ⟨k, hb⟩ := hr.bound
  obtain ⟨k', hb'⟩ := hr'.bound
  refine Op.Even.outcome fun n => ?_
  cases hsame with
  | lz4Compressor | lz4Decompressor => exact Lz4.even_bound hL hb hb' n
  | snappyCompressor | snappyDecompressor => exact Snappy.even_bound hL hb hb' n
  | zstdCompressor | zstdDecompressor =>
    exact Op.Even.bind (Zstd.even_bound hL n) fun _ => Op.Even.pure _

end Even

end Facade

/-- Codecs of the same make come to the same outcome, and ask the same of the libraries. -/
theorem Operation.even (hL : R.library.Impartial R.sound content) {f f' : Facade}
    (hsame : f'.blank = f.blank) (hr : f.Ready R.here) (hr' : f'.Ready R.there) (o : Operation) :
    Op.Even R unknown (o.op R.library f) (o.op R.library f') := by
  have hmake := Facade.sameMake_of_blank hsame
  cases o with
  | bound size => exact Op.Even.map _ (Facade.even_bound hL hmake hr hr' size)
  | compress input output => exact Op.Even.map _ (Facade.even_compress hL hmake hr hr' input output)
  | decompress input output =>
    exact Op.Even.map _ (Facade.even_decompress hL hmake hr hr' input output)
  | length input => exact Op.Even.map _ (Facade.even_length hL hmake hr hr' input)
  | validate input => exact Op.Even.map _ (Facade.even_validate hL hmake input)

end Codec

end NativeCodec
