import NativeCodec.Codec.Facade
import NativeCodec.Proofs.Transfer.Facing

set_option autoImplicit false
set_option relaxedAutoImplicit false

namespace NativeCodec.Codec

open Native

variable {σ : Type} {L : Libraries σ} {F : Views} {src src' dst dst' : Range}

namespace Lz4

private theorem blind_create (acceleration : Int) : Op.Blind (create L acceleration) := by
  refine Op.Blind.ite (Op.Blind.throw_bind _ _) ?_
  exact Op.Blind.bind (Op.blind_bind .lz4) fun _ => Op.Blind.pure _

theorem blind_bound (length : Int) : Op.Blind (bound L length) := by
  refine Op.Blind.bind (Op.Blind.ofExcept _) fun _ => ?_
  refine Op.Blind.bind (Op.blind_bind .lz4) fun _ => ?_
  exact Op.Blind.call _ {}

theorem twin_compressRange (c : Compressor) (hF : Op.Absorbs F dst dst') :
    Op.Agree (fun m m' => src.Shares src' m m' ∧ F m m') (compressRange L c src dst)
      (compressRange L c src' dst') F := by
  refine Op.Twin.assume (fun _ _ h => h.1.length_eq) fun hlength => ?_
  unfold compressRange
  rw [hlength, hF.length_eq]
  refine Op.Twin.after (Op.Blind.ofExcept _) (fun _ => ?_) Op.admits_right
  refine Op.Twin.source (fun _ _ => And.left) fun source => ?_
  refine Op.Twin.call (fun reply => ?_) Op.admits_right
  refine Op.Twin.store hF (Nat.min_le_left _ _) (fun _ _ => And.right) ?_
  refine Op.Blind.ite (Op.Blind.pure _) (Op.Blind.bind (blind_bound _) fun most => ?_) F
  exact Op.Blind.ite (Op.Blind.throw_bind _ _) (Op.Blind.throw _)

/-- The sources are looked at again after a refused call: what is found there is what was there, as
they lie beside the destinations. -/
theorem twin_decompressRange (hF : Op.Absorbs F dst dst') (hapart : src.Apart dst)
    (hapart' : src'.Apart dst') :
    Op.Agree (fun m m' => src.Shares src' m m' ∧ F m m') (decompressRange L src dst)
      (decompressRange L src' dst') F := by
  have he : Op.Admits (fun m m' => src.Shares src' m m' ∧ F m m') (Op.Same F) :=
    Op.admits_right
  refine Op.Twin.assume (fun _ _ h => h.1.length_eq) fun hlength => ?_
  unfold decompressRange
  rw [hlength, hF.length_eq]
  refine Op.Twin.ite (Op.Twin.throw_bind he) ?_
  refine Op.Twin.source (fun _ _ => And.left) fun source => ?_
  refine Op.Twin.call (fun reply => ?_) he
  refine Op.Twin.store (hF.beside hapart hapart') (Nat.min_le_left _ _) (fun _ _ => id) ?_
  refine Op.Twin.ite (Op.Twin.pure fun _ _ h => ⟨rfl, h.2⟩) ?_
  refine Op.Twin.bytes (fun _ _ => And.left) fun block => ?_
  refine Op.Twin.after (Op.blind_note _ _) (fun _ => ?_) he
  exact Op.Twin.throw fun _ _ h => ⟨rfl, h.2⟩

theorem twin_storedSize {M : Views} {E : Error → Error → Views}
    (h : ∀ m m', M m m' → src.Shares src' m m') (he : Op.Admits M E) :
    Op.Twin M (storedSize src : Op σ Nat) (storedSize src') (Op.Same M) E := by
  refine Op.Twin.assume (fun m m' hm => (h m m' hm).length_eq) fun hlength => ?_
  have hcount : src'.count? = src.count? := by rw [Range.count?, hlength, Range.count?]
  unfold storedSize
  rw [hcount]
  refine Op.Twin.after (Op.Blind.ofExcept _) (fun length => ?_) he
  refine Op.Twin.ite (Op.Twin.throw_bind he) ?_
  refine Op.Twin.slice hlength he fun o k _ hfits => ?_
  refine Op.Twin.bytes (fun m m' hm => (h m m' hm).part hfits) fun header => ?_
  exact Op.Twin.ite (Op.Twin.throw_bind he) (Op.Twin.pure fun _ _ hm => ⟨rfl, hm⟩)

variable {a a' : Argument}

/-- The part of a destination behind the bytes of a size takes what is compressed, and its first
bytes take the size. -/
theorem twin_compressBlockRange (acceleration : Option Int) (sized : Bool) :
    Op.Agree (fun m m' => src.Shares src' m m' ∧ a.Held a' dst dst' m m')
      (compressBlockRange L src dst acceleration sized)
      (compressBlockRange L src' dst' acceleration sized)
      (a.Held a' dst dst') := by
  refine Op.Twin.assume (fun _ _ h => h.2.shares.length_eq) fun hlength => ?_
  refine Op.Twin.assume (fun _ _ h => h.1.length_eq) fun hsource => ?_
  have hwhole := Op.absorbs_whole a a' hlength
  have hcount : dst'.count? = dst.count? := by rw [Range.count?, hlength, Range.count?]
  unfold compressBlockRange
  rw [hcount, hsource]
  refine Op.Twin.after (blind_create _) (fun c => ?_) Op.admits_right
  refine Op.Twin.ite (twin_compressRange c hwhole) ?_
  refine Op.Twin.after (Op.Blind.ofExcept _) (fun room => ?_) Op.admits_right
  refine Op.Twin.ite (Op.Twin.throw_bind Op.admits_right) ?_
  refine Op.Twin.slice hlength Op.admits_right fun o k ho hfits => ?_
  refine Op.Twin.bind_same (twin_compressRange c (Op.absorbs_part a a' hfits)) fun n => ?_
  refine Op.Twin.outcome Op.admits_self fun header hheader => ?_
  refine Op.Twin.write hwhole ?_ (fun _ _ => id) (Op.Blind.pure _ _)
  have hwidth : header.length = sizeWidth := by
    unfold sizeHeader at hheader
    split at hheader
    · rw [← Except.ok.inj hheader, Bytes.length_ofNat]
    · exact absurd hheader (by simp)
  omega

private theorem twin_decompressSized (hapart : src.Apart dst) (hapart' : src'.Apart dst') :
    Op.Agree (fun m m' => src.Shares src' m m' ∧ a.Held a' dst dst' m m')
      (decompressSized L src dst) (decompressSized L src' dst') (a.Held a' dst dst') := by
  have he : Op.Admits (fun m m' => src.Shares src' m m' ∧ a.Held a' dst dst' m m')
      (Op.Same (a.Held a' dst dst')) := Op.admits_right
  refine Op.Twin.assume (fun _ _ h => h.2.shares.length_eq) fun hlength => ?_
  refine Op.Twin.assume (fun _ _ h => h.1.length_eq) fun hsource => ?_
  have hcount : dst'.count? = dst.count? := by rw [Range.count?, hlength, Range.count?]
  unfold decompressSized
  rw [hcount]
  refine Op.Twin.bind_same (twin_storedSize (fun _ _ => And.left) he) fun size => ?_
  refine Op.Twin.after (Op.Blind.ofExcept _) (fun room => ?_) he
  refine Op.Twin.ite (Op.Twin.throw_bind he) ?_
  refine Op.Twin.after (blind_create _) (fun _ => ?_) he
  refine Op.Twin.slice hsource he fun o k _ hfits => ?_
  refine Op.Twin.slice hlength he fun o' k' _ hfits' => ?_
  have hpart : (src.part o k).Apart (dst.part o' k') := hapart.part hfits hfits'
  have hpart' : (src'.part o k).Apart (dst'.part o' k') :=
    hapart'.part (hsource.symm ▸ hfits) (hlength.symm ▸ hfits')
  refine Op.Twin.bind_same (N := a.Held a' dst dst') (Op.Twin.tryCatch
    ((twin_decompressRange (Op.absorbs_part a a' hfits') hpart hpart').mono
      (fun _ _ h => ⟨h.1.part hfits, h.2⟩) (fun _ _ _ _ => id) fun _ _ _ _ => id)
    fun e e' => ?_) fun n => ?_
  · refine Op.Twin.throw fun m m' h => ⟨?_, h.2⟩
    rw [h.1]
  · exact Op.Blind.ite (Op.Blind.throw_bind _ _) (Op.Blind.pure _) _

theorem twin_decompressBlockRange (sized : Bool) (hapart : src.Apart dst)
    (hapart' : src'.Apart dst') :
    Op.Agree (fun m m' => src.Shares src' m m' ∧ a.Held a' dst dst' m m')
      (decompressBlockRange L src dst sized) (decompressBlockRange L src' dst' sized)
      (a.Held a' dst dst') := by
  unfold decompressBlockRange
  cases sized with
  | true =>
    rw [if_pos rfl, if_pos rfl]
    exact twin_decompressSized hapart hapart'
  | false =>
    rw [if_neg (by decide), if_neg (by decide)]
    refine Op.Twin.assume (fun _ _ h => h.2.shares.length_eq) fun hlength => ?_
    refine Op.Twin.after (blind_create _) (fun _ => ?_) Op.admits_right
    exact twin_decompressRange (Op.absorbs_whole a a' hlength) hapart hapart'

end Lz4

namespace Snappy

theorem blind_create : Op.Blind (create L) := by
  refine Op.Blind.bind (Op.blind_bind .snappy) fun _ => ?_
  exact Op.Blind.bind Op.blind_newCell fun _ => Op.Blind.pure _

theorem blind_bound (length : Int) : Op.Blind (bound L length) :=
  Op.Blind.bind (Op.blind_bind .snappy) fun _ => Op.Blind.call _ {}

private theorem Coder.blind_leave (c : Coder) (reply : Counted) :
    Op.Blind (c.leave reply : Op σ Unit) := by
  unfold leave
  split
  · exact Op.Blind.pure ()
  · exact Op.blind_setCell _ _

theorem twin_compressRange (c : Coder) (hF : Op.Absorbs F dst dst') :
    Op.Agree (fun m m' => src.Shares src' m m' ∧ F m m') (compressRange L c src dst)
      (compressRange L c src' dst') F := by
  refine Op.Twin.assume (fun _ _ h => h.1.length_eq) fun hlength => ?_
  unfold compressRange
  rw [hlength, hF.length_eq]
  refine Op.Twin.source (fun _ _ => And.left) fun source => ?_
  refine Op.Twin.after (Op.blind_setCell _ _) (fun _ => ?_) Op.admits_right
  refine Op.Twin.after (Op.blind_cell _) (fun room => ?_) Op.admits_right
  refine Op.Twin.call (fun reply => ?_) Op.admits_right
  refine Op.Twin.store hF (Nat.le_refl _) (fun _ _ => And.right) ?_
  refine Op.Blind.bind (c.blind_leave reply) (fun _ => ?_) F
  refine Op.Blind.ite ?_ (Op.Blind.ite (Op.Blind.throw_bind _ _) (Op.blind_cell _))
  exact Op.Blind.bind (blind_bound _) fun _ => Op.Blind.throw_bind _ _

theorem twin_decompressRange (c : Coder) (hF : Op.Absorbs F dst dst') :
    Op.Agree (fun m m' => src.Shares src' m m' ∧ F m m') (decompressRange L c src dst)
      (decompressRange L c src' dst') F := by
  unfold decompressRange
  rw [hF.length_eq]
  refine Op.Twin.source (fun _ _ => And.left) fun source => ?_
  refine Op.Twin.after (Op.blind_setCell _ _) (fun _ => ?_) Op.admits_right
  refine Op.Twin.after (Op.blind_cell _) (fun room => ?_) Op.admits_right
  refine Op.Twin.call (fun reply => ?_) Op.admits_right
  refine Op.Twin.store hF (Nat.le_refl _) (fun _ _ => And.right) ?_
  refine Op.Blind.bind (c.blind_leave reply) (fun _ => ?_) F
  refine Op.Blind.ite (Op.Blind.throw_bind _ _) (Op.Blind.ite (Op.Blind.throw_bind _ _) ?_)
  exact Op.Blind.ite (Op.Blind.throw_bind _ _) (Op.blind_cell _)

variable {M : Views} (h : ∀ m m', M m m' → src.Shares src' m m')

include h

theorem twin_lengthOfRange (c : Coder) :
    Op.Agree M (lengthOfRange L c src) (lengthOfRange L c src') M := by
  refine Op.Twin.source h fun source => ?_
  refine Op.Twin.after (Op.blind_setCell _ _) (fun _ => ?_) Op.admits_self
  refine Op.Twin.after (Op.blind_cell _) (fun room => ?_) Op.admits_self
  refine Op.Twin.call (fun reply => ?_) Op.admits_self
  refine Op.Blind.bind (c.blind_leave reply) (fun _ => ?_) M
  refine Op.Blind.ite (Op.Blind.throw_bind _ _) ?_
  exact Op.Blind.ite (Op.Blind.throw_bind _ _) (Op.blind_cell _)

theorem twin_validateRange :
    Op.Agree M (validateRange L src) (validateRange L src') M := by
  refine Op.Twin.source h fun source => ?_
  exact Op.Twin.call (fun status => Op.Blind.pure _ M) Op.admits_self

end Snappy

namespace Zstd

private theorem blind_fail {α : Type} (operation : String) (word : Nat) (decoding : Bool) :
    Op.Blind (fail L operation word decoding : Op σ α) :=
  Op.Blind.bind (Op.blind_note _ _) fun _ => Op.Blind.throw _

private theorem blind_sized (operation : String) (word : Nat) (decoding : Bool) :
    Op.Blind (sized L operation word decoding) :=
  Op.Blind.ite (Op.Blind.bind (blind_fail _ _ _) fun _ => Op.Blind.pure _) (Op.Blind.pure _)

theorem blind_bound (length : Int) : Op.Blind (bound L length) :=
  Op.Blind.bind (Op.Blind.call _ {}) fun _ => blind_sized _ _ _

private theorem blind_acquire (d : Direction) : Op.Blind (acquire L d) :=
  Op.Blind.bind (Op.Blind.call _ {}) fun _ => Op.Blind.ofExcept _

private theorem blind_free (d : Direction) (handle : Nat) : Op.Blind (free L d handle) :=
  Op.Blind.call _ {}

private theorem blind_release (d : Direction) (c : Context) : Op.Blind (release L d c) := by
  unfold release
  split
  · exact Op.Blind.pure _
  · exact Op.Blind.bind (blind_free d _) fun _ => Op.Blind.pure _

private theorem blind_releaseOwn (d : Direction) (c : Option Context) :
    Op.Blind (releaseOwn L d c) := by
  cases c with
  | none => exact Op.Blind.pure _
  | some c => exact Op.Blind.map _ (blind_release d c)

private theorem blind_ownContext (d : Direction) (own : Bool) : Op.Blind (ownContext L d own) :=
  Op.Blind.ite (Op.Blind.bind (blind_acquire d) fun _ => Op.Blind.pure _) (Op.Blind.pure _)

private theorem Compressor.blind_create (level : Option Int) (own : Bool) :
    Op.Blind (Compressor.create L level own) := by
  refine Op.Blind.bind (Op.blind_bind .zstd) fun constants => ?_
  refine Op.Blind.ite (Op.Blind.throw_bind _ _) ?_
  exact Op.Blind.bind (blind_ownContext _ _) fun _ => Op.Blind.pure _

private theorem Compressor.blind_close (c : Compressor) : Op.Blind (c.close L) :=
  Op.Blind.bind (blind_releaseOwn _ _) fun _ => Op.Blind.pure _

private theorem Decompressor.blind_create (own : Bool) : Op.Blind (Decompressor.create L own) := by
  refine Op.Blind.bind (Op.blind_bind .zstd) fun constants => ?_
  exact Op.Blind.bind (blind_ownContext _ _) fun _ => Op.Blind.pure _

private theorem Decompressor.blind_close (d : Decompressor) : Op.Blind (d.close L) :=
  Op.Blind.bind (blind_releaseOwn _ _) fun _ => Op.Blind.pure _

theorem twin_compressRange (context : Nat) (level : Int) (hF : Op.Absorbs F dst dst') :
    Op.Agree (fun m m' => src.Shares src' m m' ∧ F m m') (compressRange L context src dst level)
      (compressRange L context src' dst' level) F := by
  unfold compressRange
  rw [hF.length_eq]
  refine Op.Twin.source (fun _ _ => And.left) fun source => ?_
  refine Op.Twin.call (fun reply => ?_) Op.admits_right
  exact Op.Twin.store hF (Nat.le_refl _) (fun _ _ => And.right) (blind_sized _ _ _ F)

theorem twin_decompressRange (context : Nat) (hF : Op.Absorbs F dst dst') :
    Op.Agree (fun m m' => src.Shares src' m m' ∧ F m m') (decompressRange L context src dst)
      (decompressRange L context src' dst') F := by
  unfold decompressRange
  rw [hF.length_eq]
  refine Op.Twin.source (fun _ _ => And.left) fun source => ?_
  refine Op.Twin.call (fun reply => ?_) Op.admits_right
  exact Op.Twin.store hF (Nat.le_refl _) (fun _ _ => And.right) (blind_sized _ _ _ F)

variable {α : Type} {M : Views}

private theorem twin_probeFrom (source : Source) (start start' : Pointer)
    (patience position total : Nat) :
    Op.Agree M (probeFrom L source start patience position total)
      (probeFrom L source start' patience position total) M := by
  induction patience generalizing position total with
  | zero => exact Op.Twin.throw fun _ _ h => ⟨rfl, h⟩
  | succ patience ih =>
    refine Op.Twin.call (fun (content : Nat) => ?_) Op.admits_self
    refine Op.Twin.ite (Op.Blind.pure _ M) (Op.Twin.ite (Op.Twin.throw_bind Op.admits_self) ?_)
    refine Op.Twin.call (fun word => ?_) Op.admits_self
    refine Op.Twin.after (blind_sized _ _ _) (fun extent => ?_) Op.admits_self
    exact Op.Twin.ite (Op.Blind.pure _ M) (ih _ _)

private theorem twin_drainFrom (context room : Nat) (source : Source) (site site' : Site)
    (patience consumed : Nat) :
    Op.Agree M (drainFrom L context room source site patience consumed)
      (drainFrom L context room source site' patience consumed) M := by
  induction patience generalizing consumed with
  | zero => exact Op.Twin.throw fun _ _ h => ⟨rfl, h⟩
  | succ patience ih =>
    refine Op.Twin.call (fun reply => ?_) Op.admits_self
    refine Op.Twin.ite (Op.Blind.ite (Op.Blind.bind (blind_fail _ _ _) fun _ => Op.Blind.pure _)
      (Op.Blind.pure _) M) ?_
    exact Op.Twin.ite (Op.Blind.pure _ M) (Op.Twin.ite (Op.Blind.pure _ M) (ih _))

private theorem twin_withContext {x y : Nat → Op σ α} {N : Views} (d : Direction)
    (hx : ∀ handle, Op.Agree M (x handle) (y handle) N)
    (hn : ∀ m m', M m m' → N m m') :
    Op.Agree M (withContext L d x) (withContext L d y) N := by
  refine Op.Twin.after (blind_acquire d) (fun c => ?_) (Op.admits_same hn)
  exact Op.Twin.ensuring (hx c.handle) (blind_free d _) fun _ _ _ _ => And.right

theorem twin_within {x y : Nat → Op σ α} {N : Views} (d : Direction) (own : Option Context)
    (hx : ∀ handle, Op.Agree M (x handle) (y handle) N)
    (hn : ∀ m m', M m m' → N m m') :
    Op.Agree M (within L d own x) (within L d own y) N := by
  cases own with
  | none => exact twin_withContext d hx hn
  | some c => exact Op.Twin.after (Op.Blind.ofExcept _) hx (Op.admits_same hn)

theorem twin_withCompressor {x y : Compressor → Op σ α} {N : Views} (level : Option Int)
    (hx : ∀ c, Op.Agree M (x c) (y c) N) (hn : ∀ m m', M m m' → N m m') :
    Op.Agree M (withCompressor L level x) (withCompressor L level y) N := by
  refine Op.Twin.after (Compressor.blind_create level true) (fun c => ?_) (Op.admits_same hn)
  exact Op.Twin.ensuring (hx c) (Op.Blind.discard c.blind_close) fun _ _ _ _ => And.right

theorem twin_withDecompressor {x y : Decompressor → Op σ α} {N : Views}
    (hx : ∀ d, Op.Agree M (x d) (y d) N) (hn : ∀ m m', M m m' → N m m') :
    Op.Agree M (withDecompressor L x) (withDecompressor L y) N := by
  refine Op.Twin.after (Decompressor.blind_create true) (fun d => ?_) (Op.admits_same hn)
  exact Op.Twin.ensuring (hx d) (Op.Blind.discard d.blind_close) fun _ _ _ _ => And.right

variable (h : ∀ m m', M m m' → src.Shares src' m m')

include h

theorem twin_lengthOfRange :
    Op.Agree M (lengthOfRange L src) (lengthOfRange L src') M :=
  Op.Twin.source h fun source => twin_probeFrom source _ _ _ _ _

theorem twin_validateRange :
    Op.Agree M (validateRange L src) (validateRange L src') M := by
  refine Op.Twin.assume (fun m m' hm => (h m m' hm).length_eq) fun hlength => ?_
  unfold validateRange
  rw [hlength]
  refine Op.Twin.ite (Op.Blind.pure _ M) ?_
  refine Op.Twin.after (Op.Blind.call _ {}) (fun room => ?_) Op.admits_self
  refine Op.Twin.after (Op.blind_checkSize _) (fun _ => ?_) Op.admits_self
  refine twin_withContext .decompression (fun context => ?_) fun _ _ => id
  refine Op.Twin.source h fun source => ?_
  exact Op.Twin.ite (Op.Twin.throw_bind Op.admits_self) (twin_drainFrom _ _ _ _ _ _ _)

end Zstd

end NativeCodec.Codec
