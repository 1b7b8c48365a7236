import NativeCodec.Native.System
import NativeCodec.Proofs.Context.Operations
import NativeCodec.Proofs.Memory.Chain
import NativeCodec.Proofs.Transfer.Ranges

/-!
Transfers keep to the ranges they are given.

Whatever objects a transfer goes between, and however these were reached, it makes one coding call
at most. `Transfer.Invokes` says which: for the ranges of the two objects, or for what a stored size
leaves of them, and in the form of the codec. Memory outside the range of the destination is as
before, and a destination that must not be written is refused.
-/

set_option autoImplicit false
set_option relaxedAutoImplicit false

namespace NativeCodec.Codec

open Native

variable {σ : Type}

def Facade.role : Facade → Role
  | lz4Compressor _ | snappyCompressor _ | zstdCompressor _ => .compressor
  | lz4Decompressor | snappyDecompressor _ | zstdDecompressor _ => .decompressor

def Facade.cell? : Facade → Option Nat
  | snappyCompressor c | snappyDecompressor c => some c.cell
  | _ => none

namespace Transfer

/-- What of the source is given to the native function: what is behind a stored size. -/
def reads (src : Range) : Transfer → Range
  | lz4Decompress sized => Lz4.behindSize sized src
  | _ => src

/-- What of the destination is given to the native function: what is behind a size that is to be
stored, and as much as a stored size says. -/
def fills (m : Memory) (src dst : Range) : Transfer → Range
  | lz4Compress _ sized => Lz4.behindSize sized dst
  | lz4Decompress sized => Lz4.roomFor m sized src dst
  | _ => dst

/-- The calls that a transfer may make for a source and a room. -/
inductive Calls (room : Nat) (source : Source) : Transfer → Call → Prop
  | lz4Compressor (c : Lz4.Compressor) : Calls room source (compress (.lz4Compressor c))
      (.lz4Compress c.stateWords source (min room Lz4.intMax) c.acceleration)
  | lz4Decompressor : Calls room source (decompress .lz4Decompressor)
      (.lz4Decompress source (min room Lz4.intMax))
  | snappyCompressor (c : Snappy.Coder) : Calls room source (compress (.snappyCompressor c))
      (.snappyCompress source room room)
  | snappyDecompressor (c : Snappy.Coder) : Calls room source (decompress (.snappyDecompressor c))
      (.snappyDecompress source room room)
  | zstdCompressor (c : Zstd.Compressor) (context : Nat)
      (h : ∀ own, c.context = some own → context = own.handle) :
      Calls room source (compress (.zstdCompressor c)) (.zstdCompress context room source c.level)
  | zstdDecompressor (d : Zstd.Decompressor) (context : Nat)
      (h : ∀ own, d.context = some own → context = own.handle) :
      Calls room source (decompress (.zstdDecompressor d)) (.zstdDecompress context room source)
  | lz4Compress (acceleration : Option Int) (sized : Bool) (words : Int) :
      Calls room source (lz4Compress acceleration sized)
        (.lz4Compress words source (min room Lz4.intMax)
          (acceleration.getD Lz4.usualAcceleration))
  | lz4Decompress (sized : Bool) : Calls room source (lz4Decompress sized)
      (.lz4Decompress source (min room Lz4.intMax))
  | snappyCompress : Calls room source snappyCompress (.snappyCompress source room room)
  | snappyDecompress : Calls room source snappyDecompress (.snappyDecompress source room room)
  | zstdCompress (level : Option Int) (context : Nat) : Calls room source (zstdCompress level)
      (.zstdCompress context room source (level.getD Zstd.usualLevel))
  | zstdDecompress (context : Nat) : Calls room source zstdDecompress
      (.zstdDecompress context room source)

/-- A call that a transfer from one range into another may make, and the places it gets. -/
structure Invokes (t : Transfer) (m : Memory) (src dst : Range) (call : Call) (site : Site) :
    Prop where
  calls : t.Calls (t.fills m src dst).length (sourceOf m (t.reads src)) call
  site_eq : site = ⟨some (t.reads src).start, some (t.fills m src dst).start⟩

/-- The length cell of the codec is there. -/
def Owned (w : World σ) : Transfer → Prop
  | compress f | decompress f => ∀ cell, f.cell? = some cell → cell < w.cells.length
  | _ => True

/-- Nothing but its objects can keep a transfer from its call: a codec is used for what it is for,
and one that is made for the transfer can be made. -/
def Ready (L : Libraries σ) (w : World σ) : Transfer → Prop
  | compress f => f.role = .compressor
  | decompress f => f.role = .decompressor
  | lz4Compress .. | lz4Decompress _ => True
  | snappyCompress | snappyDecompress => ∃ c, ((Snappy.create L).run w).1 = .ok c
  | zstdCompress level => ∃ c, ((Zstd.Compressor.create L level true).run w).1 = .ok c
  | zstdDecompress => ∃ d, ((Zstd.Decompressor.create L true).run w).1 = .ok d

/-- A call that a transfer from one object into another may make. -/
def Between (t : Transfer) (m : Memory) (input output : Argument) (call : Call) (site : Site) :
    Prop :=
  ∃ src dst, input.source? m = .ok src ∧ output.destination? m = .ok dst ∧
    t.Invokes m src dst call site

end Transfer

def Touches (m : Memory) (output : Argument) (m₁ m₂ : Memory) : Prop :=
  m₂ = m₁ ∨ ∃ dst, output.destination? m = .ok dst ∧ Memory.SameOutside dst m₁ m₂

section Confinement

variable {α : Type} {L : Libraries σ} {m : Memory} {cells : Nat} {t : Transfer}
  {input output : Argument}

private theorem confines_ranges {f : Range → Range → Op σ α}
    (hf : ∀ src dst, Op.Confines (Op.Stands m cells) (Memory.SameOutside dst)
      (t.Invokes m src dst) (f src dst)) :
    Op.Confines (Op.Stands m cells) (Touches m output) (t.Between m input output)
      (Op.input input >>= fun src => Op.output output >>= f src) := by
  have hrefl : ∀ m', Touches m output m' m' := fun _ => Or.inl rfl
  refine Op.Confines.known (R := fun src => input.source? m = .ok src) (Op.quiet_input input) ?_
    (fun src hsrc => ?_) hrefl
  · rintro w src rfl h
    exact h
  refine Op.Confines.known (R := fun dst => output.destination? m = .ok dst)
    (Op.quiet_output output) ?_ (fun dst hdst => ?_) hrefl
  · rintro w dst rfl h
    exact h
  · exact (hf src dst).mono (fun _ _ h => Or.inr ⟨dst, hdst, h⟩)
      fun _ _ h => ⟨src, dst, hsrc, hdst, h⟩

private theorem confines_relayed {form : Nat → Source → Call → Prop} {f : Range → Range → Op σ α}
    (hreads : ∀ src, t.reads src = src) (hfills : ∀ m src dst, t.fills m src dst = dst)
    (hcalls : ∀ room source call, form room source call → t.Calls room source call)
    (hf : ∀ src dst, Op.Relays m cells src dst (form dst.length) (f src dst)) :
    Op.Confines (Op.Stands m cells) (Touches m output) (t.Between m input output)
      (Op.input input >>= fun src => Op.output output >>= f src) := by
  refine confines_ranges fun src dst => Op.Confines.mono (hf src dst) (fun _ _ => id) ?_
  rintro call site ⟨hform, hsite⟩
  refine ⟨?_, ?_⟩
  · rw [hfills, hreads]
    exact hcalls _ _ _ hform
  · rw [hfills, hreads]
    exact hsite

private theorem confines_compress (f : Facade)
    (hcell : ∀ cell, f.cell? = some cell → cell < cells) :
    Op.Confines (Op.Stands m cells) (Touches m output)
      ((Transfer.compress f).Between m input output) (f.compress L input output) := by
  cases f with
  | lz4Compressor c =>
    refine confines_relayed (fun _ => rfl) (fun _ _ _ => rfl) ?_ fun src dst =>
      Lz4.relays_compressRange c src dst
    rintro room source call rfl
    exact .lz4Compressor c
  | snappyCompressor c =>
    refine Op.Confines.map _ (confines_relayed (fun _ => rfl) (fun _ _ _ => rfl) ?_ fun src dst =>
      (Snappy.relays_compressRange c src dst).weaken (hcell c.cell rfl))
    rintro room source call rfl
    exact .snappyCompressor c
  | zstdCompressor c =>
    refine Op.Confines.map _ (confines_relayed (fun _ => rfl) (fun _ _ _ => rfl)
      (fun _ _ _ => id) fun src dst => Zstd.relays_within fun handle hown =>
        (Zstd.relays_compressRange handle src dst c.level).mono ?_)
    rintro source call rfl
    exact .zstdCompressor c handle hown
  | _ => exact Op.Confines.of_quiet (Op.Quiet.throw _) fun _ => Or.inl rfl

private theorem confines_decompress (f : Facade)
    (hcell : ∀ cell, f.cell? = some cell → cell < cells) :
    Op.Confines (Op.Stands m cells) (Touches m output)
      ((Transfer.decompress f).Between m input output) (f.decompress L input output) := by
  cases f with
  | lz4Decompressor =>
    refine confines_relayed (fun _ => rfl) (fun _ _ _ => rfl) ?_ fun src dst =>
      Lz4.relays_decompressRange src dst
    rintro room source call rfl
    exact .lz4Decompressor
  | snappyDecompressor c =>
    refine Op.Confines.map _ (confines_relayed (fun _ => rfl) (fun _ _ _ => rfl) ?_ fun src dst =>
      (Snappy.relays_decompressRange c src dst).weaken (hcell c.cell rfl))
    rintro room source call rfl
    exact .snappyDecompressor c
  | zstdDecompressor d =>
    refine Op.Confines.map _ (confines_relayed (fun _ => rfl) (fun _ _ _ => rfl)
      (fun _ _ _ => id) fun src dst => Zstd.relays_within fun handle hown =>
        (Zstd.relays_decompressRange handle src dst).mono ?_)
    rintro source call rfl
    exact .zstdDecompressor d handle hown
  | _ => exact Op.Confines.of_quiet (Op.Quiet.throw _) fun _ => Or.inl rfl

private theorem confines_coder {f : Snappy.Coder → Op σ α}
    (hf : ∀ c : Snappy.Coder, Op.Confines (Op.Stands m (c.cell + 1)) (Touches m output)
      (t.Between m input output) (f c)) :
    Op.Confines (Op.Stands m cells) (Touches m output) (t.Between m input output)
      (Snappy.create L >>= f) :=
  Op.Confines.bind Snappy.quiet_create Snappy.stands_create hf fun _ => Or.inl rfl

private theorem Transfer.conducts (t : Transfer) {w : World σ} (ht : t.Owned w) :
    Conduct (Touches w.memory output) (t.Between w.memory input output) w
      ((t.op L input output).run w).2 := by
  have hrefl : ∀ m, Touches w.memory output m m := fun _ => Or.inl rfl
  have hstands : Op.Stands w.memory w.cells.length w := ⟨rfl, Nat.le_refl _⟩
  refine (?_ : Op.Confines (Op.Stands w.memory w.cells.length) _ _ (t.op L input output)) w hstands
  -- the ranges come first, or a codec that is made for them; its call decides the rest
  cases t with
  | compress f => exact confines_compress f ht
  | decompress f => exact confines_decompress f ht
  | lz4Compress acceleration sized =>
    refine confines_ranges fun src dst =>
      (Lz4.confines_compressBlockRange acceleration sized src dst).mono (fun _ _ => id) ?_
    rintro call site ⟨⟨words, rfl⟩, hsite⟩
    exact ⟨.lz4Compress acceleration sized words, hsite⟩
  | lz4Decompress sized =>
    refine confines_ranges fun src dst =>
      (Lz4.confines_decompressBlockRange sized src dst).mono (fun _ _ => id) ?_
    rintro call site ⟨rfl, hsite⟩
    exact ⟨.lz4Decompress sized, hsite⟩
  | snappyCompress =>
    refine confines_coder fun c => Op.Confines.map _ ?_
    refine confines_relayed (fun _ => rfl) (fun _ _ _ => rfl) ?_ (Snappy.relays_compressRange c)
    rintro room source call rfl
    exact .snappyCompress
  | snappyDecompress =>
    refine confines_coder fun c => Op.Confines.map _ ?_
    refine confines_relayed (fun _ => rfl) (fun _ _ _ => rfl) ?_ (Snappy.relays_decompressRange c)
    rintro room source call rfl
    exact .snappyDecompress
  | zstdCompress level =>
    refine Op.Confines.map _ (Op.Confines.given (Zstd.Compressor.quiet_create _ _)
      (Zstd.Compressor.gives_create _ _) (fun c hlevel => ?_) hrefl)
    refine Op.Confines.ensuring ?_ (Op.Quiet.discard c.quiet_close)
    refine confines_relayed (fun _ => rfl) (fun _ _ _ => rfl) (fun _ _ _ => id) fun src dst =>
      Zstd.relays_within fun handle _ => (Zstd.relays_compressRange handle src dst c.level).mono ?_
    rintro source call rfl
    rw [hlevel]
    exact .zstdCompress level handle
  | zstdDecompress =>
    refine Op.Confines.map _ (Op.Confines.after (Zstd.Decompressor.quiet_create _) (fun d => ?_)
      hrefl)
    refine Op.Confines.ensuring ?_ (Op.Quiet.discard d.quiet_close)
    refine confines_relayed (fun _ => rfl) (fun _ _ _ => rfl) (fun _ _ _ => id) fun src dst =>
      Zstd.relays_within fun handle _ => (Zstd.relays_decompressRange handle src dst).mono ?_
    rintro source call rfl
    exact .zstdDecompress handle

end Confinement

section Refusal

variable {α : Type} {L : Libraries σ} {w : World σ} {input output : Argument} {src dst : Range}

private theorem run_ranges_readOnly (hi : input.source? w.memory = .ok src)
    (ho : output.source? w.memory = .ok dst) (hr : dst.readOnly = true)
    (f : Range → Range → Op σ α) :
    (Op.input input >>= fun src => Op.output output >>= f src).run w =
      (.error (.readOnly dst.owner), w) := by
  have hinput : (Op.input input).run w = (.ok src, w) := by rw [Op.run_input, hi]
  have houtput : (Op.output output).run w = (.error (.readOnly dst.owner), w) := by
    rw [Op.run_output, Argument.destination?, ho]
    change (dst.writable?, w) = _
    rw [Range.writable?, if_pos hr]
  rw [Op.run_bind_ok hinput, Op.run_bind_error houtput]

/-- The error of a failed operation stays its outcome when what is done at the end comes back. -/
private theorem run_ensuring_error {x : Op σ α} {closing : Op σ Unit} {e : Error} {w' : World σ}
    (hx : x.run w = (.error e, w')) (hc : ∃ w'', closing.run w' = (.ok (), w'')) :
    ((Op.ensuring x closing).run w).1 = .error e := by
  obtain ⟨w'', hclosing⟩ := hc
  rw [Op.run_ensuring, hx, hclosing]
  rfl

private theorem Zstd.run_releaseOwn_ok (hL : L.FreesAlways) (d : Direction) (own : Option Context)
    (w : World σ) : ∃ own' w', (Zstd.releaseOwn L d own).run w = (.ok own', w') := by
  cases own with
  | none => exact ⟨none, w, rfl⟩
  | some c =>
    unfold Zstd.releaseOwn
    rw [Op.run_map]
    unfold Zstd.release
    split
    · exact ⟨_, _, rfl⟩
    · next handle c' _ =>
      obtain ⟨s, hanswer⟩ := hL d handle w.libraries
      have hfree : (Zstd.free L d handle).run w = (.ok (), _) := Op.run_call_ok hanswer
      rw [Op.run_bind_ok hfree]
      exact ⟨_, _, rfl⟩

private theorem Zstd.run_closeCompressor_ok (hL : L.FreesAlways) (c : Zstd.Compressor)
    (w : World σ) :
    ∃ w', (discard (c.close L)).run w = (.ok (), w') := by
  obtain ⟨own, w', hrun⟩ := run_releaseOwn_ok hL .compression c.context w
  have hclose : (c.close L).run w = (.ok { c with context := own }, w') := Op.run_bind_ok hrun _
  exact ⟨w', by rw [Op.run_discard, hclose]; rfl⟩

private theorem Zstd.run_closeDecompressor_ok (hL : L.FreesAlways) (d : Zstd.Decompressor)
    (w : World σ) :
    ∃ w', (discard (d.close L)).run w = (.ok (), w') := by
  obtain ⟨own, w', hrun⟩ := run_releaseOwn_ok hL .decompression d.context w
  have hclose : (d.close L).run w = (.ok { d with context := own }, w') := Op.run_bind_ok hrun _
  exact ⟨w', by rw [Op.run_discard, hclose]; rfl⟩

private theorem eq_ok_of_quiet {x : Op σ α} (hx : Op.Quiet x) {a : α} (h : (x.run w).1 = .ok a) :
    ∃ w', x.run w = (.ok a, w') ∧ w'.memory = w.memory :=
  ⟨(x.run w).2, Prod.ext h rfl, (hx w).memory_eq⟩

private theorem Transfer.run_readOnly (t : Transfer) (hL : L.FreesAlways) (ht : t.Ready L w)
    (hi : input.source? w.memory = .ok src) (ho : output.source? w.memory = .ok dst)
    (hr : dst.readOnly = true) :
    ((t.op L input output).run w).1 = .error (.readOnly dst.owner) := by
  have hrefused : ∀ {β : Type} {v : World σ} (f : Range → Range → Op σ β), v.memory = w.memory →
      (Op.input input >>= fun src => Op.output output >>= f src).run v =
        (.error (.readOnly dst.owner), v) := by
    intro β v f hv
    rw [← hv] at hi ho
    exact run_ranges_readOnly hi ho hr f
  -- the objects are looked at before anything else, but for what is made for the transfer
  cases t with
  | compress f =>
    cases f with
    | lz4Compressor c => exact congrArg Prod.fst (hrefused (Lz4.compressRange L c) rfl)
    | snappyCompressor c =>
      change (((fun n : Nat => (n : Int)) <$> Snappy.compress L c input output).run w).1 = _
      rw [Op.run_map, Snappy.compress, hrefused _ rfl]
      rfl
    | zstdCompressor c =>
      change (((fun n : Nat => (n : Int)) <$> c.compress L input output).run w).1 = _
      rw [Op.run_map, Zstd.Compressor.compress, hrefused _ rfl]
      rfl
    | _ => exact absurd ht (by simp [Ready, Facade.role])
  | decompress f =>
    cases f with
    | lz4Decompressor => exact congrArg Prod.fst (hrefused (Lz4.decompressRange L) rfl)
    | snappyDecompressor c =>
      change (((fun n : Nat => (n : Int)) <$> Snappy.decompress L c input output).run w).1 = _
      rw [Op.run_map, Snappy.decompress, hrefused _ rfl]
      rfl
    | zstdDecompressor d =>
      change (((fun n : Nat => (n : Int)) <$> d.decompress L input output).run w).1 = _
      rw [Op.run_map, Zstd.Decompressor.decompress, hrefused _ rfl]
      rfl
    | _ => exact absurd ht (by simp [Ready, Facade.role])
  | lz4Compress acceleration sized => exact congrArg Prod.fst (hrefused _ rfl)
  | lz4Decompress sized => exact congrArg Prod.fst (hrefused _ rfl)
  | snappyCompress =>
    obtain ⟨c, hc⟩ := ht
    obtain ⟨w', hcreate, hw'⟩ := eq_ok_of_quiet Snappy.quiet_create hc
    unfold op
    rw [Op.run_bind_ok hcreate, Op.run_map, Snappy.compress, hrefused _ hw']
    rfl
  | snappyDecompress =>
    obtain ⟨c, hc⟩ := ht
    obtain ⟨w', hcreate, hw'⟩ := eq_ok_of_quiet Snappy.quiet_create hc
    unfold op
    rw [Op.run_bind_ok hcreate, Op.run_map, Snappy.decompress, hrefused _ hw']
    rfl
  | zstdCompress level =>
    obtain ⟨c, hc⟩ := ht
    obtain ⟨w', hcreate, hw'⟩ := eq_ok_of_quiet (Zstd.Compressor.quiet_create level true) hc
    have hbody : (c.compress L input output).run w' = (.error (.readOnly dst.owner), w') :=
      hrefused _ hw'
    unfold op
    rw [Op.run_map, Zstd.compressInto, Zstd.withCompressor, Op.run_bind_ok hcreate,
      run_ensuring_error hbody (Zstd.run_closeCompressor_ok hL c w')]
    rfl
  | zstdDecompress =>
    obtain ⟨d, hd⟩ := ht
    obtain ⟨w', hcreate, hw'⟩ := eq_ok_of_quiet (Zstd.Decompressor.quiet_create true) hd
    have hbody : (d.decompress L input output).run w' = (.error (.readOnly dst.owner), w') :=
      hrefused _ hw'
    unfold op
    rw [Op.run_map, Zstd.decompressInto, Zstd.withDecompressor, Op.run_bind_ok hcreate,
      run_ensuring_error hbody (Zstd.run_closeDecompressor_ok hL d w')]
    rfl

end Refusal

/-- Whatever becomes of a transfer between two objects that chains of parts lead to, it makes one
coding call at most. The call is one of those the codec makes for the two ranges, which start where
the whole objects do plus the offsets of the chains; no byte outside the range of the destination
is changed, so that what is held apart from it stays; and a destination that must not be written is
refused without such a call. -/
theorem transfer_confined (L : Libraries σ) (t : Transfer) {w w' : World σ}
    {outcome : Except Error Int} {a b input output : Argument} {chain chain' : Chain}
    (hi : a.reach w.memory chain = .ok input) (ho : b.reach w.memory chain' = .ok output)
    (ht : t.Owned w) (hrun : (t.op L input output).run w = (outcome, w')) :
    (codings w'.events = codings w.events ∨
      ∃ call site src dst p q, codings w'.events = (call, site) :: codings w.events ∧
        input.source? w.memory = .ok src ∧ output.destination? w.memory = .ok dst ∧
        a.origin? = some p ∧ src.start = p.advance chain.distance ∧
        chain.distance + src.length ≤ a.extent w.memory ∧
        b.origin? = some q ∧ dst.start = q.advance chain'.distance ∧
        chain'.distance + dst.length ≤ b.extent w.memory ∧ t.Invokes w.memory src dst call site) ∧
    (w'.memory = w.memory ∨ ∃ dst, output.destination? w.memory = .ok dst ∧
      Memory.SameOutside dst w.memory w'.memory) ∧
    (∀ (r : Range) bytes, (∀ dst, output.destination? w.memory = .ok dst → r.Apart dst) →
      r.Holds w.memory bytes → r.Holds w'.memory bytes) ∧
    (∀ dst, output.source? w.memory = .ok dst → dst.readOnly = true →
      codings w'.events = codings w.events ∧ w'.memory = w.memory ∧
      (L.FreesAlways → t.Ready L w → (∃ src, input.source? w.memory = .ok src) →
        outcome = .error (.readOnly dst.owner) ∧
        (Error.readOnly dst.owner).kind = .unsupportedBuffer)) := by
  have hconduct : Conduct (Touches w.memory output) (t.Between w.memory input output) w
      ((t.op L input output).run w).2 := t.conducts ht
  rw [hrun] at hconduct
  obtain ⟨hmemory, hcodings⟩ := hconduct
  refine ⟨?_, hmemory, ?_, ?_⟩
  · rcases hcodings with hsame | ⟨call, site, ⟨src, dst, hsrc, hdst, hinvokes⟩, hone⟩
    · exact Or.inl hsame
    · obtain ⟨p, hp, hstart, hin⟩ := Argument.source?_reach hi hsrc
      obtain ⟨hdst', -⟩ := Argument.source?_of_destination hdst
      obtain ⟨q, hq, hstart', hin'⟩ := Argument.source?_reach ho hdst'
      exact Or.inr ⟨call, site, src, dst, p, q, hone, hsrc, hdst, hp, hstart, hin, hq, hstart',
        hin', hinvokes⟩
  · intro r bytes hapart hholds
    rcases hmemory with hsame | ⟨dst, hdst, houtside⟩
    · rw [hsame]
      exact hholds
    · exact hholds.of_apart houtside (hapart dst hdst)
  · intro dst hdst hr
    have hnone : ∀ dst', output.destination? w.memory ≠ .ok dst' := by
      intro dst' h
      obtain ⟨hs, hwritable⟩ := Argument.source?_of_destination h
      rw [hdst] at hs
      rw [← Except.ok.inj hs, hr] at hwritable
      exact absurd hwritable (by simp)
    refine ⟨?_, ?_, ?_⟩
    · refine hcodings.resolve_right ?_
      rintro ⟨call, site, ⟨src, dst', -, h, -⟩, -⟩
      exact hnone dst' h
    · refine hmemory.resolve_right ?_
      rintro ⟨dst', h, -⟩
      exact hnone dst' h
    · rintro hL hready ⟨src, hsrc⟩
      have hrefused := t.run_readOnly hL hready hsrc hdst hr
      rw [hrun] at hrefused
      exact ⟨hrefused, rfl⟩

/-- A part of a part of six bytes goes into a part of a part of twelve, and into nothing that must
not be written. -/
theorem transfer_confined_parts :
    (∃ (w' : World Contexts) (call : Call) (site : Site) (src dst : Range),
      ((Transfer.lz4Compress none true).op (system (.ok {}))
        (.range ⟨⟨.managed 0, 3⟩, 3, "bytes", true⟩)
        (.range ⟨⟨.managed 1, 3⟩, 8, "bytearray", false⟩)).run
          { memory := .holding [1, 2, 3, 4, 5, 6] [.fresh 12], libraries := {} } = (.ok 8, w') ∧
      codings w'.events = [(call, site)] ∧
      src.start = ⟨.managed 0, 3⟩ ∧ dst.start = ⟨.managed 1, 3⟩ ∧
      (Transfer.lz4Compress none true).Invokes (.holding [1, 2, 3, 4, 5, 6] [.fresh 12]) src dst
        call site ∧
      Memory.SameOutside dst (.holding [1, 2, 3, 4, 5, 6] [.fresh 12]) w'.memory) ∧
    (((Transfer.lz4Compress none true).op (system (.ok {}))
        (.range ⟨⟨.managed 0, 3⟩, 3, "bytes", true⟩) .first).run
          { memory := .holding [1, 2, 3, 4, 5, 6] [.fresh 12], libraries := {} }).1 =
      .error (.readOnly "bytes") := by
  have hinput : Argument.first.reach (.holding [1, 2, 3, 4, 5, 6] [.fresh 12])
      [(1, none), (2, some 3)] = .ok (.range ⟨⟨.managed 0, 3⟩, 3, "bytes", true⟩) := by
    decide +kernel
  have houtput : Argument.second.reach (.holding [1, 2, 3, 4, 5, 6] [.fresh 12])
      [(1, some 10), (2, none)] = .ok (.range ⟨⟨.managed 1, 3⟩, 8, "bytearray", false⟩) := by
    decide +kernel
  constructor
  · obtain ⟨hcall, hmemory, -⟩ := @transfer_confined Contexts (system (.ok {}))
      (.lz4Compress none true)
      { memory := .holding [1, 2, 3, 4, 5, 6] [.fresh 12], libraries := {} } _ _ _ _ _ _ _ _
      hinput houtput trivial rfl
    have hmade : codings (((Transfer.lz4Compress none true).op (system (.ok {}))
        (.range ⟨⟨.managed 0, 3⟩, 3, "bytes", true⟩)
        (.range ⟨⟨.managed 1, 3⟩, 8, "bytearray", false⟩)).run
          { memory := .holding [1, 2, 3, 4, 5, 6] [.fresh 12],
            libraries := {} }).2.events ≠ [] := by
      decide +kernel
    obtain ⟨call, site, src, dst, p, q, hone, hsrc, hdst, hp, hstart, -, hq, hstart', -,
      hinvokes⟩ := hcall.resolve_left hmade
    refine ⟨_, call, site, src, dst, Prod.ext ?_ rfl, hone, ?_, ?_, hinvokes, ?_⟩
    · decide +kernel
    · rw [hstart, ← Option.some.inj hp]
      decide
    · rw [hstart', ← Option.some.inj hq]
      decide
    · rcases hmemory with hsame | ⟨dst', hdst', houtside⟩
      · rw [hsame]
        exact Memory.SameOutside.refl _ _
      · rw [Except.ok.inj (hdst.symm.trans hdst')]
        exact houtside
  · have hfrees : (system (.ok {})).FreesAlways := fun d handle c => ⟨c.free handle, rfl⟩
    exact ((@transfer_confined Contexts (system (.ok {})) (.lz4Compress none true)
      { memory := .holding [1, 2, 3, 4, 5, 6] [.fresh 12], libraries := {} } _ _ _ .first _ .first
      _ [] hinput rfl trivial rfl).2.2.2 _ rfl rfl).2.2 hfrees trivial ⟨_, rfl⟩ |>.1

end NativeCodec.Codec
