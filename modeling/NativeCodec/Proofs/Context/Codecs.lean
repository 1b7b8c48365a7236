import NativeCodec.Codec.Facade
import NativeCodec.Proofs.Context.Zstd

set_option autoImplicit false
set_option relaxedAutoImplicit false

namespace NativeCodec.Codec

open Native

variable {σ : Type} {L : Libraries σ} {held : List Lease}

namespace Lz4

private theorem balances_create (acceleration : Int) :
    Op.Balances held (create L acceleration) := by
  unfold create
  dsimp only
  split
  · exact Op.Keeps.throw_bind _ _
  · exact Op.Keeps.bind (Op.balances_bind _) fun _ => Op.Keeps.pure _

private theorem balances_bound (length : Int) : Op.Balances held (bound L length) := by
  unfold bound
  refine Op.Keeps.bind (Op.Keeps.ofExcept _) fun _ => ?_
  refine Op.Keeps.bind (Op.balances_bind _) fun _ => ?_
  exact Op.Balances.plain (fun _ => rfl) rfl rfl

private theorem balances_compressRange (c : Compressor) (src dst : Range) :
    Op.Balances held (compressRange L c src dst) := by
  unfold compressRange
  refine Op.Keeps.bind (Op.Keeps.ofExcept _) fun _ => ?_
  refine Op.Keeps.bind (Op.balances_source _) fun source => ?_
  refine Op.Keeps.bind (Op.Balances.plain (fun _ => rfl) rfl rfl) fun reply => ?_
  refine Op.Keeps.bind (Op.balances_store _ _ _) fun _ => ?_
  dsimp only
  split
  · exact Op.Keeps.pure _
  refine Op.Keeps.bind (balances_bound _) fun most => ?_
  split
  · exact Op.Keeps.throw_bind _ _
  · exact Op.Keeps.throw _

private theorem balances_decompressRange (src dst : Range) :
    Op.Balances held (decompressRange L src dst) := by
  unfold decompressRange
  dsimp only
  split
  · exact Op.Keeps.throw_bind _ _
  refine Op.Keeps.bind (Op.balances_source _) fun source => ?_
  refine Op.Keeps.bind (Op.Balances.plain (fun _ => rfl) rfl rfl) fun reply => ?_
  refine Op.Keeps.bind (Op.balances_store _ _ _) fun _ => ?_
  split
  · exact Op.Keeps.pure _
  · refine Op.Keeps.bind (Op.balances_bytes _) fun block => ?_
    exact Op.Keeps.bind (Op.balances_note _ _) fun _ => Op.Keeps.throw _

private theorem balances_compress (c : Compressor) (input output : Argument) :
    Op.Balances held (compress L c input output) := by
  unfold compress
  exact Op.Balances.ranges (balances_compressRange c) _ _

private theorem balances_decompress (input output : Argument) :
    Op.Balances held (decompress L input output) := by
  unfold decompress
  exact Op.Balances.ranges balances_decompressRange _ _

end Lz4

namespace Snappy

private theorem balances_create : Op.Balances held (create L) := by
  unfold create
  refine Op.Keeps.bind (Op.balances_bind _) fun _ => ?_
  exact Op.Keeps.bind Op.balances_newCell fun _ => Op.Keeps.pure _

private theorem balances_bound (length : Int) : Op.Balances held (bound L length) := by
  unfold bound
  refine Op.Keeps.bind (Op.balances_bind _) fun _ => ?_
  exact Op.Balances.plain (fun _ => rfl) rfl rfl

private theorem balances_leave (c : Coder) (reply : Counted) :
    Op.Balances held (c.leave reply : Op σ Unit) := by
  unfold Coder.leave
  split
  · exact Op.Keeps.pure _
  · exact Op.balances_setCell _ _

private theorem balances_compressRange (c : Coder) (src dst : Range) :
    Op.Balances held (compressRange L c src dst) := by
  unfold compressRange
  refine Op.Keeps.bind (Op.balances_source _) fun source => ?_
  refine Op.Keeps.bind (Op.balances_setCell _ _) fun _ => ?_
  refine Op.Keeps.bind (Op.balances_cell _) fun capacity => ?_
  refine Op.Keeps.bind (Op.Balances.plain (fun _ => rfl) rfl rfl) fun reply => ?_
  refine Op.Keeps.bind (Op.balances_store _ _ _) fun _ => ?_
  refine Op.Keeps.bind (balances_leave _ _) fun _ => ?_
  dsimp only
  split
  · exact Op.Keeps.bind (balances_bound _) fun _ => Op.Keeps.throw_bind _ _
  split
  · exact Op.Keeps.throw_bind _ _
  · exact Op.balances_cell _

private theorem balances_decompressRange (c : Coder) (src dst : Range) :
    Op.Balances held (decompressRange L c src dst) := by
  unfold decompressRange
  refine Op.Keeps.bind (Op.balances_source _) fun source => ?_
  refine Op.Keeps.bind (Op.balances_setCell _ _) fun _ => ?_
  refine Op.Keeps.bind (Op.balances_cell _) fun capacity => ?_
  refine Op.Keeps.bind (Op.Balances.plain (fun _ => rfl) rfl rfl) fun reply => ?_
  refine Op.Keeps.bind (Op.balances_store _ _ _) fun _ => ?_
  refine Op.Keeps.bind (balances_leave _ _) fun _ => ?_
  dsimp only
  split
  · exact Op.Keeps.throw_bind _ _
  split
  · exact Op.Keeps.throw_bind _ _
  split
  · exact Op.Keeps.throw_bind _ _
  · exact Op.balances_cell _

private theorem balances_lengthOfRange (c : Coder) (src : Range) :
    Op.Balances held (lengthOfRange L c src) := by
  unfold lengthOfRange
  refine Op.Keeps.bind (Op.balances_source _) fun source => ?_
  refine Op.Keeps.bind (Op.balances_setCell _ _) fun _ => ?_
  refine Op.Keeps.bind (Op.balances_cell _) fun capacity => ?_
  refine Op.Keeps.bind (Op.Balances.plain (fun _ => rfl) rfl rfl) fun reply => ?_
  refine Op.Keeps.bind (balances_leave _ _) fun _ => ?_
  dsimp only
  split
  · exact Op.Keeps.throw_bind _ _
  split
  · exact Op.Keeps.throw_bind _ _
  · exact Op.balances_cell _

private theorem balances_compress (c : Coder) (input output : Argument) :
    Op.Balances held (compress L c input output) := by
  unfold compress
  exact Op.Balances.ranges (balances_compressRange c) _ _

private theorem balances_decompress (c : Coder) (input output : Argument) :
    Op.Balances held (decompress L c input output) := by
  unfold decompress
  exact Op.Balances.ranges (balances_decompressRange c) _ _

private theorem balances_decompressedLength (c : Coder) (input : Argument) :
    Op.Balances held (decompressedLength L c input) := by
  unfold decompressedLength
  exact Op.Balances.range (balances_lengthOfRange c) _

private theorem balances_validate (input : Argument) : Op.Balances held (validate L input) := by
  unfold validate validateRange
  refine Op.Balances.range (fun src => ?_) _
  refine Op.Keeps.bind (Op.balances_source _) fun source => ?_
  exact Op.Keeps.bind (Op.Balances.plain (fun _ => rfl) rfl rfl) fun _ => Op.Keeps.pure _

end Snappy

namespace Facade

def leases : Facade → List Lease
  | zstdCompressor c => c.leases
  | zstdDecompressor d => d.leases
  | _ => []

theorem yields_create (a : Algorithm) (role : Role) (given : List (String × OptionValue)) :
    Op.Yields held leases (create L a role given) := by
  unfold create
  dsimp only
  split
  · exact Op.Keeps.throw_bind _ _
  split
  · refine Op.Yields.after (Op.Keeps.ofExcept _) fun acceleration => ?_
    exact Op.Yields.map (Lz4.balances_create _).yields fun _ => rfl
  · refine Op.Yields.after (Lz4.balances_create _) fun _ => ?_
    exact Op.Yields.pure rfl
  · exact Op.Yields.map Snappy.balances_create.yields fun _ => rfl
  · exact Op.Yields.map Snappy.balances_create.yields fun _ => rfl
  · refine Op.Yields.after (Op.balances_bind _) fun _ => ?_
    refine Op.Yields.after (Op.Keeps.ofExcept _) fun level => ?_
    exact Op.Yields.map (Zstd.yields_compressor _ _) fun _ => rfl
  · exact Op.Yields.map (Zstd.yields_decompressor _) fun _ => rfl

/-- How many contexts a codec is to keep. -/
def kept (a : Algorithm) (given : List (String × OptionValue)) : Nat :=
  if a = .zstd then (ownOf given).toNat else 0

/-- A new zstd codec owns one context if it is to keep one; no other codec owns any. -/
theorem gives_create (a : Algorithm) (role : Role) (given : List (String × OptionValue)) :
    Op.Gives (fun f => f.leases.length = kept a given) (create L a role given) := by
  have hany : ∀ {β : Type} (x : Op σ β), Op.Gives (fun _ => True) x := fun _ _ _ _ => trivial
  unfold create
  dsimp only
  split
  · exact Op.Gives.bind (Op.Gives.throw (fun _ => False) _) fun _ h => h.elim
  split
  · exact Op.Gives.after fun _ => Op.Gives.map (hany _) fun _ _ => rfl
  · exact Op.Gives.after fun _ => Op.Gives.pure rfl
  · exact Op.Gives.map (hany _) fun _ _ => rfl
  · exact Op.Gives.map (hany _) fun _ _ => rfl
  · refine Op.Gives.after fun _ => Op.Gives.after fun level => ?_
    exact Op.Gives.map (Zstd.gives_compressor _ _) fun _ h => h
  · exact Op.Gives.map (Zstd.gives_decompressor _) fun _ h => h

variable (hL : L.FreesAlways)
include hL

theorem spec_close (f : Facade) :
    Op.Spec (Op.Holding (f.leases ++ held)) (f.close L) fun o w =>
      ∃ f', o = .ok f' ∧ f'.leases = [] ∧ Op.Holding held w := by
  intro w hw
  cases f with
  | zstdCompressor c =>
    obtain ⟨c', hok, hleases, hheld⟩ := Zstd.spec_closeCompressor hL c w hw
    have hrun : (close L (zstdCompressor c)).run w =
        (.ok (zstdCompressor c'), ((c.close L).run w).2) := by
      change (zstdCompressor <$> c.close L).run w = _
      rw [Op.run_map, hok]
      rfl
    rw [hrun]
    exact ⟨zstdCompressor c', rfl, hleases, hheld⟩
  | zstdDecompressor d =>
    obtain ⟨d', hok, hleases, hheld⟩ := Zstd.spec_closeDecompressor hL d w hw
    have hrun : (close L (zstdDecompressor d)).run w =
        (.ok (zstdDecompressor d'), ((d.close L).run w).2) := by
      change (zstdDecompressor <$> d.close L).run w = _
      rw [Op.run_map, hok]
      rfl
    rw [hrun]
    exact ⟨zstdDecompressor d', rfl, hleases, hheld⟩
  | lz4Compressor c => exact ⟨_, rfl, rfl, hw⟩
  | lz4Decompressor => exact ⟨_, rfl, rfl, hw⟩
  | snappyCompressor c => exact ⟨_, rfl, rfl, hw⟩
  | snappyDecompressor c => exact ⟨_, rfl, rfl, hw⟩

theorem balances_compress {f : Facade} (hown : ∀ lease ∈ f.leases, lease ∈ held)
    (input output : Argument) : Op.Balances held (f.compress L input output) := by
  cases f with
  | lz4Compressor c => exact Lz4.balances_compress _ _ _
  | snappyCompressor c => exact Op.Keeps.map _ (Snappy.balances_compress _ _ _)
  | zstdCompressor c => exact Op.Keeps.map _ (Zstd.balances_compressor hL hown _ _)
  | lz4Decompressor => exact Op.Keeps.throw _
  | snappyDecompressor c => exact Op.Keeps.throw _
  | zstdDecompressor d => exact Op.Keeps.throw _

theorem balances_decompress {f : Facade} (hown : ∀ lease ∈ f.leases, lease ∈ held)
    (input output : Argument) : Op.Balances held (f.decompress L input output) := by
  cases f with
  | lz4Decompressor => exact Lz4.balances_decompress _ _
  | snappyDecompressor c => exact Op.Keeps.map _ (Snappy.balances_decompress _ _ _)
  | zstdDecompressor d => exact Op.Keeps.map _ (Zstd.balances_decompressor hL hown _ _)
  | lz4Compressor c => exact Op.Keeps.throw _
  | snappyCompressor c => exact Op.Keeps.throw _
  | zstdCompressor c => exact Op.Keeps.throw _

omit hL in
theorem balances_length (f : Facade) (input : Argument) :
    Op.Balances held (f.length L input) := by
  cases f with
  | snappyDecompressor c => exact Op.Keeps.map _ (Snappy.balances_decompressedLength _ _)
  | zstdDecompressor d => exact Zstd.balances_decompressedLength _
  | _ => exact Op.Keeps.throw _

theorem balances_validate (f : Facade) (input : Argument) :
    Op.Balances held (f.validate L input) := by
  cases f with
  | snappyDecompressor c => exact Snappy.balances_validate _
  | zstdDecompressor d => exact Zstd.balances_validate hL _
  | _ => exact Op.Keeps.throw _

end Facade

end NativeCodec.Codec
