import NativeCodec.Codec.Zstd
import NativeCodec.Proofs.Context.Operations

set_option autoImplicit false
set_option relaxedAutoImplicit false

namespace NativeCodec

open Native

def Context.leases (d : Direction) (c : Context) : List Lease :=
  if c.released then [] else [⟨d, c.handle⟩]

namespace Codec.Zstd

open NativeCodec.Zstd

variable {σ α : Type} {L : Libraries σ} {held : List Lease} {d : Direction}

def leases (d : Direction) : Option Context → List Lease
  | none => []
  | some c => c.leases d

def Compressor.leases (c : Compressor) : List Lease := Zstd.leases .compression c.context

def Decompressor.leases (c : Decompressor) : List Lease := Zstd.leases .decompression c.context

section Result

private theorem balances_fail (operation : String) (word : Nat) (decoding : Bool) :
    Op.Balances held (fail L operation word decoding : Op σ α) := by
  unfold fail
  exact Op.Keeps.bind (Op.balances_note _ _) fun _ => Op.Keeps.throw _

private theorem balances_sized (operation : String) (word : Nat) (decoding : Bool) :
    Op.Balances held (sized L operation word decoding) := by
  unfold sized
  split
  · exact Op.Keeps.bind (balances_fail _ _ _) fun _ => Op.Keeps.pure _
  · exact Op.Keeps.pure _

private theorem balances_bound (length : Int) : Op.Balances held (bound L length) := by
  unfold bound
  refine Op.Keeps.bind (Op.Balances.plain (fun _ => rfl) rfl rfl) fun word => ?_
  exact balances_sized _ _ _

end Result

section Lifetime

private theorem spec_acquire :
    Op.Spec (Op.Holding held) (acquire L d) fun o w =>
      (∀ c, o = .ok c → c.released = false) ∧
        Op.After held (fun c => [⟨d, c.handle⟩]) o w := by
  intro w hw
  unfold acquire
  rcases hr : L.answer (.createContext d) w.libraries with ⟨e | reply, s⟩
  · rw [Op.run_bind_error (Op.run_call_error hr)]
    exact ⟨fun _ h => absurd h (by simp), hw⟩
  · rw [Op.run_bind_ok (Op.run_call_ok hr), Op.run_ofExcept]
    cases reply with
    | none =>
      refine ⟨fun _ h => absurd h (by simp [Context.create]), ?_⟩
      exact Balanced.skip hw rfl rfl fun _ h => absurd h (by simp [Event.used?, Call.uses?])
    | some handle =>
      refine ⟨?_, Balanced.opened hw rfl⟩
      intro c hc
      rw [← Except.ok.inj hc]

private theorem gives_acquire : Op.Gives (fun c => (c.leases d).length = 1) (acquire L d) := by
  unfold acquire
  refine Op.Gives.after fun reply => ?_
  intro w c hc
  cases reply with
  | none => exact absurd hc (by simp [Context.create])
  | some handle =>
    rw [← Except.ok.inj hc]
    rfl

private theorem gives_ownContext (own : Bool) :
    Op.Gives (fun context => (leases d context).length = own.toNat) (ownContext L d own) := by
  unfold ownContext
  cases own with
  | true => exact Op.Gives.map gives_acquire fun _ h => h
  | false => exact Op.Gives.pure rfl

theorem gives_compressor (level : Option Int) (own : Bool) :
    Op.Gives (fun c => c.leases.length = own.toNat) (Compressor.create L level own) := by
  unfold Compressor.create
  refine Op.Gives.after fun constants => ?_
  dsimp only
  split
  · exact Op.Gives.throw _ _
  · exact Op.Gives.map (gives_ownContext own) fun _ h => h

theorem gives_decompressor (own : Bool) :
    Op.Gives (fun d => d.leases.length = own.toNat) (Decompressor.create L own) := by
  unfold Decompressor.create
  exact Op.Gives.after fun _ => Op.Gives.map (gives_ownContext own) fun _ h => h

private theorem yields_acquire : Op.Yields held (Context.leases d) (acquire L d) := by
  refine Op.Spec.mono spec_acquire (fun _ h => h) ?_
  rintro (e | c) w ⟨hlive, hafter⟩
  · exact hafter
  · have hleases : c.leases d = [⟨d, c.handle⟩] := by
      unfold Context.leases
      rw [hlive c rfl]
      rfl
    change Op.Holding (c.leases d ++ held) w
    rw [hleases]
    exact hafter

private theorem yields_ownContext (own : Bool) :
    Op.Yields held (leases d) (ownContext L d own) := by
  unfold ownContext
  split
  · exact Op.Yields.map yields_acquire fun _ => rfl
  · exact Op.Yields.pure rfl

theorem yields_compressor (level : Option Int) (own : Bool) :
    Op.Yields held Compressor.leases (Compressor.create L level own) := by
  unfold Compressor.create
  refine Op.Yields.after (Op.balances_bind _) fun constants => ?_
  dsimp only
  split
  · exact Op.Yields.throw _
  · exact Op.Yields.map (yields_ownContext own) fun _ => rfl

theorem yields_decompressor (own : Bool) :
    Op.Yields held Decompressor.leases (Decompressor.create L own) := by
  unfold Decompressor.create
  refine Op.Yields.after (Op.balances_bind _) fun _ => ?_
  exact Op.Yields.map (yields_ownContext own) fun _ => rfl

variable (hL : L.FreesAlways)
include hL

private theorem spec_free (handle : Nat) :
    Op.Spec (Op.Holding (⟨d, handle⟩ :: held)) (free L d handle) fun o w =>
      o = .ok () ∧ Op.Holding held w := by
  intro w hw
  obtain ⟨s, hs⟩ := hL d handle w.libraries
  have hrun : (free L d handle).run w = (.ok (), _) := Op.run_call_ok hs
  rw [hrun]
  exact ⟨rfl, Balanced.closed hw rfl⟩

private theorem spec_release (c : Context) :
    Op.Spec (Op.Holding (c.leases d ++ held)) (release L d c) fun o w =>
      o = .ok c.release.2 ∧ c.release.2.leases d = [] ∧ Op.Holding held w := by
  intro w hw
  unfold release Context.release
  unfold Context.leases at hw ⊢
  cases hc : c.released with
  | true =>
    rw [hc] at hw
    exact ⟨rfl, by simp [hc], hw⟩
  | false =>
    rw [hc] at hw
    obtain ⟨hok, hheld⟩ := spec_free hL c.handle w hw
    simp only [Bool.false_eq_true, if_false]
    rw [Op.run_bind_ok (Prod.ext hok rfl)]
    exact ⟨rfl, rfl, hheld⟩

private theorem spec_releaseOwn (context : Option Context) :
    Op.Spec (Op.Holding (leases d context ++ held)) (releaseOwn L d context) fun o w =>
      ∃ context', o = .ok context' ∧ leases d context' = [] ∧ Op.Holding held w := by
  intro w hw
  cases context with
  | none => exact ⟨none, rfl, rfl, hw⟩
  | some c =>
    obtain ⟨hok, hleases, hheld⟩ := spec_release hL c w hw
    unfold releaseOwn
    rw [Op.run_map, hok]
    exact ⟨some c.release.2, rfl, hleases, hheld⟩

theorem balances_withContext {body : Nat → Op σ α}
    (hbody : ∀ handle, Op.Balances (⟨d, handle⟩ :: held) (body handle)) :
    Op.Balances held (withContext L d body) := by
  have hacquire : Op.Yields held (fun c => [⟨d, c.handle⟩]) (acquire L d) :=
    Op.Spec.mono spec_acquire (fun _ h => h) fun _ _ h => h.2
  refine Op.Balances.of_yields hacquire fun c => ?_
  refine Op.Spec.ensuring (hbody c.handle) ?_
  exact Op.Spec.mono (spec_free hL c.handle) (fun _ h => h) fun _ _ h => h.2

/-- An operation works in a context that is owned, or else in one that it has to itself. -/
theorem balances_within {context : Option Context} {body : Nat → Op σ α}
    (hown : ∀ lease ∈ leases d context, lease ∈ held)
    (hbody : ∀ handle held, ⟨d, handle⟩ ∈ held → Op.Balances held (body handle)) :
    Op.Balances held (within L d context body) := by
  cases context with
  | none =>
    exact balances_withContext hL fun handle => hbody handle _ (List.mem_cons_self ..)
  | some c =>
    intro w hw
    change Op.Holding held ((Op.ofExcept c.use >>= body).run w).2
    by_cases hc : c.released = true
    · have huse : c.use = .error (.contextReleased c.kind) := if_pos hc
      rw [huse, Op.run_bind_error (Op.run_ofExcept _ w)]
      exact hw
    · have huse : c.use = .ok c.handle := if_neg hc
      have hlive : (⟨d, c.handle⟩ : Lease) ∈ held := by
        apply hown
        change _ ∈ c.leases d
        unfold Context.leases
        rw [if_neg hc]
        exact List.mem_singleton_self _
      rw [Op.run_ofExcept_bind huse]
      exact hbody c.handle held hlive w hw

theorem spec_closeCompressor (c : Compressor) :
    Op.Spec (Op.Holding (c.leases ++ held)) (c.close L) fun o w =>
      ∃ c', o = .ok c' ∧ c'.leases = [] ∧ Op.Holding held w := by
  intro w hw
  obtain ⟨context', hok, hleases, hheld⟩ := spec_releaseOwn hL c.context w hw
  unfold Compressor.close
  rw [Op.run_bind_ok (Prod.ext hok rfl)]
  exact ⟨_, rfl, hleases, hheld⟩

theorem spec_closeDecompressor (c : Decompressor) :
    Op.Spec (Op.Holding (c.leases ++ held)) (c.close L) fun o w =>
      ∃ c', o = .ok c' ∧ c'.leases = [] ∧ Op.Holding held w := by
  intro w hw
  obtain ⟨context', hok, hleases, hheld⟩ := spec_releaseOwn hL c.context w hw
  unfold Decompressor.close
  rw [Op.run_bind_ok (Prod.ext hok rfl)]
  exact ⟨_, rfl, hleases, hheld⟩

private theorem balances_withCompressor {level : Option Int} {body : Compressor → Op σ α}
    (hbody : ∀ c, Op.Balances (c.leases ++ held) (body c)) :
    Op.Balances held (withCompressor L level body) := by
  unfold withCompressor
  refine Op.Balances.of_yields (yields_compressor level true) fun c => ?_
  refine Op.Spec.ensuring (hbody c) (Op.Spec.discard ?_)
  refine Op.Spec.mono (spec_closeCompressor hL c) (fun _ h => h) ?_
  rintro o w ⟨c', -, -, hheld⟩
  exact hheld

private theorem balances_withDecompressor {body : Decompressor → Op σ α}
    (hbody : ∀ c, Op.Balances (c.leases ++ held) (body c)) :
    Op.Balances held (withDecompressor L body) := by
  unfold withDecompressor
  refine Op.Balances.of_yields (yields_decompressor true) fun c => ?_
  refine Op.Spec.ensuring (hbody c) (Op.Spec.discard ?_)
  refine Op.Spec.mono (spec_closeDecompressor hL c) (fun _ h => h) ?_
  rintro o w ⟨c', -, -, hheld⟩
  exact hheld

end Lifetime

section Range

private theorem balances_compressRange {context : Nat} (h : ⟨.compression, context⟩ ∈ held)
    (src dst : Range) (level : Int) :
    Op.Balances held (compressRange L context src dst level) := by
  unfold compressRange
  refine Op.Keeps.bind (Op.balances_source _) fun source => ?_
  refine Op.Keeps.bind (Op.Balances.using (fun _ => rfl) rfl rfl h) fun reply => ?_
  refine Op.Keeps.bind (Op.balances_store _ _ _) fun _ => ?_
  exact balances_sized _ _ _

private theorem balances_decompressRange {context : Nat} (h : ⟨.decompression, context⟩ ∈ held)
    (src dst : Range) : Op.Balances held (decompressRange L context src dst) := by
  unfold decompressRange
  refine Op.Keeps.bind (Op.balances_source _) fun source => ?_
  refine Op.Keeps.bind (Op.Balances.using (fun _ => rfl) rfl rfl h) fun reply => ?_
  refine Op.Keeps.bind (Op.balances_store _ _ _) fun _ => ?_
  exact balances_sized _ _ _

private theorem balances_probeFrom (source : Source) (start : Pointer)
    (patience position total : Nat) :
    Op.Balances held (probeFrom L source start patience position total) := by
  induction patience generalizing position total with
  | zero => exact Op.Keeps.throw _
  | succ patience ih =>
    unfold probeFrom
    dsimp only
    refine Op.Keeps.bind (Op.Balances.plain (fun _ => rfl) rfl rfl) fun content => ?_
    split
    · exact Op.Keeps.pure _
    split
    · exact Op.Keeps.throw_bind _ _
    refine Op.Keeps.bind (Op.Balances.plain (fun _ => rfl) rfl rfl) fun word => ?_
    refine Op.Keeps.bind (balances_sized _ _ _) fun extent => ?_
    exact Op.Keeps.ite (Op.Keeps.pure _) (ih _ _)

private theorem balances_lengthOfRange (src : Range) : Op.Balances held (lengthOfRange L src) := by
  unfold lengthOfRange
  refine Op.Keeps.bind (Op.balances_source _) fun source => ?_
  exact balances_probeFrom _ _ _ _ _

private theorem balances_drainFrom {context : Nat} (h : ⟨.decompression, context⟩ ∈ held)
    (room : Nat)
    (source : Source) (site : Site) (patience consumed : Nat) :
    Op.Balances held (drainFrom L context room source site patience consumed) := by
  induction patience generalizing consumed with
  | zero => exact Op.Keeps.throw _
  | succ patience ih =>
    unfold drainFrom
    refine Op.Keeps.bind (Op.Balances.using (fun _ => rfl) rfl rfl h) fun reply => ?_
    dsimp only
    split
    · split
      · exact Op.Keeps.bind (balances_fail _ _ _) fun _ => Op.Keeps.pure _
      · exact Op.Keeps.pure _
    · split
      · exact Op.Keeps.pure _
      · exact Op.Keeps.ite (Op.Keeps.pure _) (ih _)

variable (hL : L.FreesAlways)
include hL

private theorem balances_validateRange (src : Range) : Op.Balances held (validateRange L src) := by
  unfold validateRange
  dsimp only
  split
  · exact Op.Keeps.pure _
  refine Op.Keeps.bind (Op.Balances.plain (fun _ => rfl) rfl rfl) fun room => ?_
  refine Op.Keeps.bind (Op.Keeps.checkSize _) fun _ => ?_
  refine balances_withContext hL fun handle => ?_
  refine Op.Keeps.bind (Op.balances_source _) fun source => ?_
  split
  · exact Op.Keeps.throw_bind _ _
  · exact balances_drainFrom (List.mem_cons_self ..) _ _ _ _ _

end Range

section Codec

variable (hL : L.FreesAlways)
include hL

theorem balances_compressor {c : Compressor} (hown : ∀ lease ∈ c.leases, lease ∈ held)
    (input output : Argument) : Op.Balances held (c.compress L input output) := by
  unfold Compressor.compress
  refine Op.Balances.ranges (fun src dst => ?_) _ _
  exact balances_within hL hown fun _ _ h => balances_compressRange h _ _ _

theorem balances_decompressor {c : Decompressor} (hown : ∀ lease ∈ c.leases, lease ∈ held)
    (input output : Argument) : Op.Balances held (c.decompress L input output) := by
  unfold Decompressor.decompress
  refine Op.Balances.ranges (fun src dst => ?_) _ _
  exact balances_within hL hown fun _ _ h => balances_decompressRange h _ _

omit hL in
theorem balances_decompressedLength (input : Argument) :
    Op.Balances held (decompressedLength L input) := by
  unfold decompressedLength
  exact Op.Balances.range balances_lengthOfRange _

theorem balances_validate (input : Argument) : Op.Balances held (validate L input) := by
  unfold validate
  exact Op.Balances.range (balances_validateRange hL) _

end Codec

section Once

variable (input output : Argument)

theorem balances_lengthOf : Op.Balances held (lengthOf L input) := by
  unfold lengthOf
  refine Op.Keeps.bind (Op.balances_bind _) fun _ => ?_
  exact balances_decompressedLength input

variable (hL : L.FreesAlways)
include hL

theorem balances_compressInto (level : Option Int) :
    Op.Balances held (compressInto L input output level) := by
  refine balances_withCompressor hL fun c => ?_
  exact balances_compressor hL (fun _ h => List.mem_append_left _ h) _ _

theorem balances_decompressInto : Op.Balances held (decompressInto L input output) := by
  refine balances_withDecompressor hL fun c => ?_
  exact balances_decompressor hL (fun _ h => List.mem_append_left _ h) _ _

theorem balances_compress (level : Option Int) : Op.Balances held (compress L input level) := by
  unfold compress
  refine Op.Balances.range (fun src => ?_) _
  refine balances_withCompressor hL fun c => ?_
  refine Op.Keeps.bind (Op.Keeps.ofExcept _) fun count => ?_
  refine Op.Keeps.bind (balances_bound _) fun most => ?_
  refine Op.Keeps.bind (Op.balances_scratch _) fun dst => ?_
  have hcompress : Op.Balances (c.leases ++ held) (c.compress L (.range src) (.range dst)) :=
    balances_compressor hL (fun _ h => List.mem_append_left _ h) _ _
  exact Op.Keeps.bind hcompress fun _ => Op.balances_firstBytes _ _

theorem balances_decompress (length : Option Int) :
    Op.Balances held (decompress L input length) := by
  unfold decompress
  refine Op.Balances.range (fun src => ?_) _
  refine balances_withDecompressor hL fun c => ?_
  have hafter : ∀ length : Int, Op.Balances (c.leases ++ held) (do
      let dst ← Op.scratch length
      let n ← c.decompress L (.range src) (.range dst)
      Op.firstBytes dst n) := by
    intro length
    refine Op.Keeps.bind (Op.balances_scratch _) fun dst => ?_
    have hdecompress : Op.Balances (c.leases ++ held)
        (c.decompress L (.range src) (.range dst)) :=
      balances_decompressor hL (fun _ h => List.mem_append_left _ h) _ _
    exact Op.Keeps.bind hdecompress fun _ => Op.balances_firstBytes _ _
  cases length with
  | some n => exact hafter n
  | none =>
    refine Op.Keeps.bind (balances_lengthOfRange src) fun found => ?_
    cases found with
    | some n => exact hafter n
    | none => exact Op.Keeps.throw_bind _ _

theorem balances_validateOnce : Op.Balances held (validateOnce L input) :=
  balances_withDecompressor hL fun _ => balances_validate hL input

end Once

end Codec.Zstd

end NativeCodec
