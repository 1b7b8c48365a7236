import NativeCodec.Codec.Request
import NativeCodec.Native.Scripted
import NativeCodec.Native.System
import NativeCodec.Proofs.Memory.Chain
import NativeCodec.Proofs.Memory.Kinds
import NativeCodec.Proofs.Session.Cursors
import NativeCodec.Proofs.Transfer.Twins

/-!
Codecs and kinds of memory.

Whatever a transfer or a query is given, it makes of it what the bytes say (`requests_alike`): two
runs with objects that show the same come to the same outcome, store the same, and make the same
native calls, be the objects views of any form, direct buffers, ranges or parts of these. Cursors of
direct buffers have no part in it.
-/

set_option autoImplicit false
set_option relaxedAutoImplicit false

namespace NativeCodec

open Native

/-- Two objects show the same bytes, each in its memory, and storages for them are there. -/
structure Argument.Presents (a a' : Argument) (m m' : Memory) : Prop where
  shares : a.Shares a' m m'
  here : a.Within m
  there : a'.Within m'

private theorem Argument.Within.add {a : Argument} {m : Memory} (h : a.Within m) (s : Storage) :
    a.Within (m.add s).2 := by
  cases a with
  | view v =>
    change v.place < (m.storages ++ [s]).length
    rw [List.length_append]
    exact Nat.lt_add_right _ h
  | _ => trivial

private theorem Argument.Presents.add {a a' : Argument} {m m' : Memory} (h : a.Presents a' m m')
    (s : Storage) : a.Presents a' (m.add s).2 (m'.add s).2 := by
  obtain ⟨⟨bytes, hshows, hshows'⟩, hin, hin'⟩ := h
  exact ⟨⟨bytes, hshows.add hin s, hshows'.add hin' s⟩, hin.add s, hin'.add s⟩

private theorem Range.Shares.arguments {r r' : Range} {m m' : Memory} (h : r.Shares r' m m') :
    (Argument.range r).Shares (.range r') m m' := by
  obtain ⟨bytes, hr, hr'⟩ := h
  exact ⟨bytes, ⟨r, rfl, hr⟩, ⟨r', rfl, hr'⟩⟩

private theorem Range.Apart.arguments {src r : Range} (h : src.Apart r) (m : Memory) :
    (Argument.range src).Apart (.range r) m := by
  intro s d hs hd
  obtain rfl := Except.ok.inj hs
  obtain rfl := Except.ok.inj hd
  exact h

private theorem Argument.Faces.ranges {r r' : Range} {m m' : Memory}
    (h : (Argument.range r).Faces (.range r') m m') : r.Shares r' m m' := by
  obtain ⟨bytes, ⟨s, hs, hholds⟩, ⟨s', hs', hholds'⟩⟩ := h
  obtain rfl := Except.ok.inj (Argument.source?_of_destination hs).1
  obtain rfl := Except.ok.inj (Argument.source?_of_destination hs').1
  exact ⟨bytes, hholds, hholds'⟩

namespace Codec

variable {σ α : Type} {L : Libraries σ} {a a' b b' : Argument} {M : Views}

structure Given (a a' b b' : Argument) (m m' : Memory) : Prop where
  shares : a.Shares a' m m'
  faces : b.Faces b' m m'
  apart : a.Apart b m
  apart' : a'.Apart b' m'

section Transfer

private theorem twin_ranges {f g : Range → Range → Op σ α}
    (hf : ∀ src src' dst dst', src.Apart dst → src'.Apart dst' →
      Op.Absorbs (b.Held b' dst dst') dst dst' →
      Op.Agree (fun m m' => src.Shares src' m m' ∧ b.Held b' dst dst' m m') (f src dst)
        (g src' dst') (b.Held b' dst dst')) :
    Op.Agree (Given a a' b b')
      (Op.input a >>= fun src => Op.output b >>= f src)
      (Op.input a' >>= fun src => Op.output b' >>= g src) (b.Faces b') := by
  refine Op.Twin.input (fun _ _ h => h.shares) fun src src' => ?_
  refine Op.Twin.output (fun _ _ h => h.2.faces) fun dst dst' => ?_
  refine Op.Twin.assume (fun _ _ h => h.1.shares.length_eq) fun hlength => ?_
  refine Op.Twin.assume (p := src.Apart dst ∧ src'.Apart dst') ?_ fun hapart => ?_
  · rintro m m' ⟨hheld, hseen, hgiven⟩
    obtain ⟨hdst, -⟩ := Argument.source?_of_destination hheld.here
    obtain ⟨hdst', -⟩ := Argument.source?_of_destination hheld.there
    exact ⟨hgiven.apart src dst hseen.here hdst, hgiven.apart' src' dst' hseen.there hdst'⟩
  refine (hf src src' dst dst' hapart.1 hapart.2 (Op.absorbs_whole b b' hlength)).mono ?_ ?_ ?_
  · rintro m m' ⟨hheld, hseen, -⟩
    exact ⟨hseen.shares, hheld⟩
  · rintro n n' m m' ⟨hn, hheld⟩
    exact ⟨hn, hheld.faces⟩
  · rintro e e' m m' ⟨he, hheld⟩
    exact ⟨he, hheld.faces⟩

private theorem Zstd.twin_compressInto (c : Zstd.Compressor) :
    Op.Agree (Given a a' b b') (c.compress L a b) (c.compress L a' b') (b.Faces b') :=
  twin_ranges fun _ _ _ _ _ _ hF => twin_within .compression c.context
    (fun handle => twin_compressRange handle c.level hF) fun _ _ => And.right

private theorem Zstd.twin_decompressInto (d : Zstd.Decompressor) :
    Op.Agree (Given a a' b b') (d.decompress L a b) (d.decompress L a' b') (b.Faces b') :=
  twin_ranges fun _ _ _ _ _ _ hF => twin_within .decompression d.context
    (fun handle => twin_decompressRange handle hF) fun _ _ => And.right

private theorem Transfer.agree_op (t : Transfer) :
    Op.Agree (Given a a' b b') (t.op L a b) (t.op L a' b') (b.Faces b') := by
  have he : ∀ m m', Given a a' b b' m m' → b.Faces b' m m' := fun _ _ h => h.faces
  cases t with
  | compress f =>
    cases f with
    | lz4Compressor c => exact twin_ranges fun _ _ _ _ _ _ => Lz4.twin_compressRange c
    | snappyCompressor c =>
      exact Op.Twin.map_same _ (twin_ranges fun _ _ _ _ _ _ => Snappy.twin_compressRange c)
    | zstdCompressor c => exact Op.Twin.map_same _ (Zstd.twin_compressInto c)
    | _ => exact Op.Twin.throw fun _ _ h => ⟨rfl, h.faces⟩
  | decompress f =>
    cases f with
    | lz4Decompressor =>
      exact twin_ranges fun _ _ _ _ hapart hapart' hF =>
        Lz4.twin_decompressRange hF hapart hapart'
    | snappyDecompressor c =>
      exact Op.Twin.map_same _ (twin_ranges fun _ _ _ _ _ _ => Snappy.twin_decompressRange c)
    | zstdDecompressor d => exact Op.Twin.map_same _ (Zstd.twin_decompressInto d)
    | _ => exact Op.Twin.throw fun _ _ h => ⟨rfl, h.faces⟩
  | lz4Compress acceleration sized =>
    exact twin_ranges fun _ _ _ _ _ _ _ => Lz4.twin_compressBlockRange acceleration sized
  | lz4Decompress sized =>
    exact twin_ranges fun _ _ _ _ hapart hapart' _ =>
      Lz4.twin_decompressBlockRange sized hapart hapart'
  | snappyCompress =>
    refine Op.Twin.after Snappy.blind_create (fun c => ?_) (Op.admits_same he)
    exact Op.Twin.map_same _ (twin_ranges fun _ _ _ _ _ _ => Snappy.twin_compressRange c)
  | snappyDecompress =>
    refine Op.Twin.after Snappy.blind_create (fun c => ?_) (Op.admits_same he)
    exact Op.Twin.map_same _ (twin_ranges fun _ _ _ _ _ _ => Snappy.twin_decompressRange c)
  | zstdCompress level =>
    exact Op.Twin.map_same _ (Zstd.twin_withCompressor level (fun c => Zstd.twin_compressInto c) he)
  | zstdDecompress =>
    exact Op.Twin.map_same _ (Zstd.twin_withDecompressor (fun d => Zstd.twin_decompressInto d) he)

end Transfer

abbrev anyViews : Views := fun _ _ => True

section Query

private theorem admits_any : Op.Admits M (Op.Same anyViews) := Op.admits_same fun _ _ _ => trivial

private theorem agree_any {N : Views} {x y : Op σ α} (h : Op.Agree M x y N) :
    Op.Agree M x y anyViews :=
  h.mono (fun _ _ => id) (fun _ _ _ _ => And.imp_right fun _ => trivial)
    fun _ _ _ _ => And.imp_right fun _ => trivial

private theorem agree_bind {β : Type} {N : Views} {x y : Op σ β} {f g : β → Op σ α}
    (hx : Op.Agree M x y N) (hf : ∀ c, Op.Agree N (f c) (g c) anyViews) :
    Op.Agree M (x >>= f) (y >>= g) anyViews :=
  Op.Twin.bind_same (hx.mono (fun _ _ => id) (fun _ _ _ _ => id)
    fun _ _ _ _ => And.imp_right fun _ => trivial) hf

private theorem twin_range {f g : Range → Op σ α}
    (hf : ∀ src src', Op.Agree (src.Shares src') (f src) (g src') anyViews) :
    Op.Agree (a.Presents a') (Op.input a >>= f) (Op.input a' >>= g) anyViews :=
  Op.Twin.input (fun _ _ h => h.shares) fun src src' =>
    (hf src src').mono (fun _ _ h => h.1.shares) (fun _ _ _ _ => id) fun _ _ _ _ => id

private theorem Lz4.twin_blockBound (sized : Bool) :
    Op.Agree (a.Presents a') (Lz4.blockBound L a sized) (Lz4.blockBound L a' sized)
      (a.Presents a') := by
  refine Op.Twin.input (fun _ _ h => h.shares) fun src src' => ?_
  refine Op.Twin.assume (fun _ _ h => h.1.shares.count_eq) fun hcount => ?_
  rw [hcount]
  refine Op.Twin.after (Op.Blind.ofExcept _) (fun n => ?_) Op.admits_right
  refine Op.Twin.after (Lz4.blind_bound _) (fun most => ?_) Op.admits_right
  exact Op.Twin.pure fun _ _ h => ⟨rfl, h.2⟩

private theorem twin_first {β : Type} {N N' : Views} {r r' : Range} {x y : Op σ β} (count : β → Nat)
    (hx : Op.Agree N x y N') (hm : ∀ m m', M m m' → N m m')
    (hr : ∀ m m', N' m m' → r.Shares r' m m') :
    Op.Agree M (x >>= fun n => Op.firstBytes r (count n))
      (y >>= fun n => Op.firstBytes r' (count n)) anyViews :=
  agree_bind (hx.mono hm (fun _ _ _ _ => id) fun _ _ _ _ => id) fun _ =>
    agree_any (Op.twin_firstBytes hr)

private theorem twin_scratch {size : Int} {src src' : Range} {f g : Range → Op σ α}
    (hf : ∀ r r', src.Apart r → src'.Apart r' →
      Op.Agree (fun m m' => src.Shares src' m m' ∧ (Argument.range r).Held (.range r') r r' m m')
        (f r) (g r') anyViews) :
    Op.Agree (src.Shares src') (Op.scratch size >>= f) (Op.scratch size >>= g) anyViews := by
  refine Op.Twin.scratch (N := fun r r' m m' => src.Shares src' m m' ∧ src.Apart r ∧ src'.Apart r')
    admits_any (fun m m' n hshares => ?_) fun r r' => ?_
  · refine ⟨hshares.add (.fresh n), ?_⟩
    obtain ⟨bytes, hholds, hholds'⟩ := hshares
    exact ⟨hholds.apart_scratch n, hholds'.apart_scratch n⟩
  · refine Op.Twin.assume (fun _ _ h => h.2.2) fun hapart => ?_
    exact (hf r r' hapart.1 hapart.2).mono (fun _ _ h => ⟨h.2.1, h.1⟩) (fun _ _ _ _ => id)
      fun _ _ _ _ => id

private theorem given_ranges {src src' r r' : Range} (h : src.Apart r) (h' : src'.Apart r') :
    ∀ m m', src.Shares src' m m' ∧ (Argument.range r).Held (.range r') r r' m m' →
      Given (.range src) (.range src') (.range r) (.range r') m m' :=
  fun _ _ hw => ⟨hw.1.arguments, hw.2.faces, h.arguments _, h'.arguments _⟩

private theorem Lz4.twin_compressBlock (acceleration : Option Int) (sized : Bool) :
    Op.Agree (a.Presents a') (Lz4.compressBlock L a acceleration sized)
      (Lz4.compressBlock L a' acceleration sized) anyViews := by
  refine agree_bind (Lz4.twin_blockBound sized) fun most => ?_
  refine Op.Twin.scratch (N := fun _ _ => a.Presents a') admits_any
    (fun _ _ n h => h.add (.fresh n)) fun r r' => ?_
  refine Op.Twin.input (fun _ _ h => h.2.shares) fun src src' => ?_
  exact twin_first Int.toNat (Lz4.twin_compressBlockRange acceleration sized)
    (fun _ _ h => ⟨h.1.shares, h.2.1⟩) fun _ _ h => h.shares

private theorem Lz4.twin_decompressBlock (size : Option Int) :
    Op.Agree (a.Presents a') (Lz4.decompressBlock L a size) (Lz4.decompressBlock L a' size)
      anyViews := by
  refine twin_range fun src src' => ?_
  have hrest : ∀ (n : Int) (sized : Bool), Op.Agree (src.Shares src')
      (do let dst ← Op.scratch n
          let n ← Lz4.decompressBlockRange L src dst sized
          Op.firstBytes dst n.toNat)
      (do let dst ← Op.scratch n
          let n ← Lz4.decompressBlockRange L src' dst sized
          Op.firstBytes dst n.toNat) anyViews := by
    intro n sized
    refine twin_scratch fun r r' hapart hapart' => ?_
    exact twin_first Int.toNat (Lz4.twin_decompressBlockRange sized hapart hapart')
      (fun _ _ => id) fun _ _ h => h.shares
  cases size with
  | none =>
    refine Op.Twin.bind_same (Lz4.twin_storedSize (fun _ _ => id) admits_any) fun n => ?_
    exact hrest n true
  | some n => exact hrest n false

private theorem Snappy.twin_rawBound :
    Op.Agree (a.Presents a') (Snappy.rawBound L a) (Snappy.rawBound L a') anyViews := by
  refine twin_range fun src src' => ?_
  refine Op.Twin.assume (fun _ _ h => h.count_eq) fun hcount => ?_
  rw [hcount]
  exact agree_any (Op.Blind.bind (Op.Blind.ofExcept _) (fun _ => Snappy.blind_bound _) _)

private theorem Snappy.twin_compressRaw :
    Op.Agree (a.Presents a') (Snappy.compressRaw L a) (Snappy.compressRaw L a') anyViews := by
  refine twin_range fun src src' => ?_
  refine Op.Twin.assume (fun _ _ h => h.count_eq) fun hcount => ?_
  rw [hcount]
  refine Op.Twin.after (Op.Blind.ofExcept _) (fun n => ?_) admits_any
  refine Op.Twin.after (Snappy.blind_bound _) (fun most => ?_) admits_any
  refine twin_scratch fun r r' _ _ => ?_
  refine Op.Twin.after Snappy.blind_create (fun c => ?_) admits_any
  refine Op.Twin.assume (fun _ _ h => h.2.shares.length_eq) fun hlength => ?_
  exact twin_first id (Snappy.twin_compressRange c (Op.absorbs_whole _ _ hlength)) (fun _ _ => id)
    fun _ _ h => h.shares

private theorem Snappy.twin_decompressRaw :
    Op.Agree (a.Presents a') (Snappy.decompressRaw L a) (Snappy.decompressRaw L a')
      anyViews := by
  refine twin_range fun src src' => ?_
  refine Op.Twin.after Snappy.blind_create (fun c => ?_) admits_any
  refine agree_bind (Snappy.twin_lengthOfRange (fun _ _ => id) c) fun n => ?_
  refine twin_scratch fun r r' _ _ => ?_
  refine Op.Twin.assume (fun _ _ h => h.2.shares.length_eq) fun hlength => ?_
  exact twin_first id (Snappy.twin_decompressRange c (Op.absorbs_whole _ _ hlength))
    (fun _ _ => id) fun _ _ h => h.shares

private theorem Zstd.twin_boundOf :
    Op.Agree (a.Presents a') (Zstd.boundOf L a) (Zstd.boundOf L a') anyViews := by
  refine Op.Twin.after (Op.blind_bind .zstd) (fun _ => ?_) admits_any
  refine twin_range fun src src' => ?_
  refine Op.Twin.assume (fun _ _ h => h.count_eq) fun hcount => ?_
  rw [hcount]
  exact agree_any (Op.Blind.bind (Op.Blind.ofExcept _) (fun _ => Zstd.blind_bound _) _)

private theorem Zstd.twin_decompressedLength :
    Op.Agree (a.Presents a') (Zstd.decompressedLength L a) (Zstd.decompressedLength L a')
      anyViews :=
  twin_range fun _ _ => agree_any (Zstd.twin_lengthOfRange fun _ _ => id)

private theorem Zstd.twin_validate :
    Op.Agree (a.Presents a') (Zstd.validate L a) (Zstd.validate L a') anyViews :=
  twin_range fun _ _ => agree_any (Zstd.twin_validateRange fun _ _ => id)

private theorem Zstd.twin_compress (level : Option Int) :
    Op.Agree (a.Presents a') (Zstd.compress L a level) (Zstd.compress L a' level)
      anyViews := by
  refine twin_range fun src src' => ?_
  refine Zstd.twin_withCompressor level (fun c => ?_) fun _ _ _ => trivial
  refine Op.Twin.assume (fun _ _ h => h.count_eq) fun hcount => ?_
  rw [hcount]
  refine Op.Twin.after (Op.Blind.ofExcept _) (fun n => ?_) admits_any
  refine Op.Twin.after (Zstd.blind_bound _) (fun most => ?_) admits_any
  refine twin_scratch fun r r' hapart hapart' => ?_
  exact twin_first id (Zstd.twin_compressInto c) (given_ranges hapart hapart')
    fun _ _ h => h.ranges

private theorem Zstd.twin_decompress (size : Option Int) :
    Op.Agree (a.Presents a') (Zstd.decompress L a size) (Zstd.decompress L a' size)
      anyViews := by
  refine twin_range fun src src' => ?_
  refine Zstd.twin_withDecompressor (fun d => ?_) fun _ _ _ => trivial
  have hrest : ∀ n : Int, Op.Agree (src.Shares src')
      (do let dst ← Op.scratch n
          let n ← d.decompress L (.range src) (.range dst)
          Op.firstBytes dst n)
      (do let dst ← Op.scratch n
          let n ← d.decompress L (.range src') (.range dst)
          Op.firstBytes dst n) anyViews := by
    intro n
    refine twin_scratch fun r r' hapart hapart' => ?_
    exact twin_first id (Zstd.twin_decompressInto d) (given_ranges hapart hapart')
      fun _ _ h => h.ranges
  cases size with
  | some n => exact hrest n
  | none =>
    refine agree_bind (Zstd.twin_lengthOfRange fun _ _ => id) fun recorded => ?_
    cases recorded with
    | none => exact Op.Twin.throw_bind admits_any
    | some n => exact hrest n

private theorem Query.twin_op (q : Query) :
    Op.Agree (a.Presents a') (q.op L a) (q.op L a') anyViews := by
  have hprobe (c : Snappy.Coder) : Op.Agree (a.Presents a') (Snappy.decompressedLength L c a)
      (Snappy.decompressedLength L c a') anyViews :=
    twin_range fun _ _ => agree_any (Snappy.twin_lengthOfRange (fun _ _ => id) c)
  have hvalidate : Op.Agree (a.Presents a') (Snappy.validate L a) (Snappy.validate L a')
      anyViews :=
    twin_range fun _ _ => agree_any (Snappy.twin_validateRange fun _ _ => id)
  cases q with
  | length f =>
    refine Op.Twin.map_same _ ?_
    cases f with
    | snappyDecompressor c => exact Op.Twin.map_same _ (hprobe c)
    | zstdDecompressor d => exact Zstd.twin_decompressedLength
    | _ => exact Op.Twin.throw fun _ _ _ => ⟨rfl, trivial⟩
  | validate f =>
    refine Op.Twin.map_same _ ?_
    cases f with
    | snappyDecompressor c => exact hvalidate
    | zstdDecompressor d => exact Zstd.twin_validate
    | _ => exact Op.Twin.throw fun _ _ _ => ⟨rfl, trivial⟩
  | lz4Bound sized => exact Op.Twin.map_same _ (agree_any (Lz4.twin_blockBound sized))
  | lz4Compress acceleration sized =>
    exact Op.Twin.map_same _ (Lz4.twin_compressBlock acceleration sized)
  | lz4Decompress size => exact Op.Twin.map_same _ (Lz4.twin_decompressBlock size)
  | snappyBound => exact Op.Twin.map_same _ Snappy.twin_rawBound
  | snappyLength =>
    refine Op.Twin.after Snappy.blind_create (fun c => ?_) admits_any
    exact Op.Twin.map_same _ (hprobe c)
  | snappyValidate =>
    refine Op.Twin.after Snappy.blind_create (fun c => ?_) admits_any
    exact Op.Twin.map_same _ hvalidate
  | snappyCompress => exact Op.Twin.map_same _ Snappy.twin_compressRaw
  | snappyDecompress => exact Op.Twin.map_same _ Snappy.twin_decompressRaw
  | zstdBound => exact Op.Twin.map_same _ Zstd.twin_boundOf
  | zstdLength =>
    refine Op.Twin.map_same _ (Op.Twin.after (Op.blind_bind .zstd) (fun _ => ?_) admits_any)
    exact Zstd.twin_decompressedLength
  | zstdValidate =>
    exact Op.Twin.map_same _ (Zstd.twin_withDecompressor (fun _ => Zstd.twin_validate)
      fun _ _ _ => trivial)
  | zstdCompress level => exact Op.Twin.map_same _ (Zstd.twin_compress level)
  | zstdDecompress size => exact Op.Twin.map_same _ (Zstd.twin_decompress size)

end Query

section Cursor

variable (d : DirectBuffer) (position : Nat) (h : position ≤ d.size)

private theorem Transfer.op_moveTo (t : Transfer) (a : Argument) :
    t.op L (.direct (d.moveTo position h)) a = t.op L (.direct d) a ∧
      t.op L a (.direct (d.moveTo position h)) = t.op L a (.direct d) := by
  constructor
  · cases t with
    | compress f => cases f <;> rfl
    | decompress f => cases f <;> rfl
    | _ => rfl
  · cases t with
    | compress f => cases f <;> rfl
    | decompress f => cases f <;> rfl
    | _ => rfl

private theorem Query.op_moveTo (q : Query) :
    q.op L (.direct (d.moveTo position h)) = q.op L (.direct d) := by
  cases q with
  | length f => cases f <;> rfl
  | validate f => cases f <;> rfl
  | _ => rfl

end Cursor

private theorem alike_start {w w' : World σ} (hl : w'.libraries = w.libraries)
    (hb : w'.bindings = w.bindings) (hc : w'.cells = w.cells)
    (hm : w'.memory.limit = w.memory.limit) : Alike w.events w'.events w w' :=
  ⟨hl, hb, hc, ⟨[], [], rfl, rfl, rfl⟩, hm⟩

/-- Transfers and queries depend on what objects show, and on nothing else about them: with other
objects, in other memory, that show the same they come to the same outcome, make the same native
calls with the same lengths, capacities and contents, and leave the same in the destination, if that
shares no byte with the source. They neither look at the cursor of a direct buffer nor move it. -/
theorem requests_alike (L : Libraries σ) {w w' : World σ} (hl : w'.libraries = w.libraries)
    (hb : w'.bindings = w.bindings) (hc : w'.cells = w.cells)
    (hm : w'.memory.limit = w.memory.limit) :
    (∀ (t : Transfer) (a a' b b' : Argument) (data old : Bytes),
      a.Shows w.memory data → a'.Shows w'.memory data →
      b.Takes w.memory old → b'.Takes w'.memory old →
      a.Apart b w.memory → a'.Apart b' w'.memory →
        ((t.op L a' b').run w').1 = ((t.op L a b).run w).1 ∧
        SameSince w.events w'.events ((t.op L a b).run w).2.events
          ((t.op L a' b').run w').2.events ∧
        ∃ new, b.Takes ((t.op L a b).run w).2.memory new ∧
          b'.Takes ((t.op L a' b').run w').2.memory new) ∧
    (∀ (q : Query) (a a' : Argument) (data : Bytes),
      a.Shows w.memory data → a'.Shows w'.memory data → a.Within w.memory → a'.Within w'.memory →
        ((q.op L a').run w').1 = ((q.op L a).run w).1 ∧
        SameSince w.events w'.events ((q.op L a).run w).2.events
          ((q.op L a').run w').2.events) ∧
    (∀ (d : DirectBuffer) (position : Nat) (h : position ≤ d.size),
      (∀ (t : Transfer) (a : Argument),
        t.op L (.direct (d.moveTo position h)) a = t.op L (.direct d) a ∧
        t.op L a (.direct (d.moveTo position h)) = t.op L a (.direct d)) ∧
      ∀ q : Query, q.op L (.direct (d.moveTo position h)) = q.op L (.direct d)) ∧
    (∀ (s : Session σ) (name : String) (position : Nat), Act.cursor? s name = some position →
      (∀ (t : Transfer) (input output : Description),
        Act.cursor? ((Act.into input output (t.op L)).run s).2 name = some position) ∧
      ∀ (q : Query) (input : Description),
        Act.cursor? ((Act.onObject input (q.op L)).run s).2 name = some position) := by
  have halike := alike_start hl hb hc hm
  refine ⟨?_, ?_, ?_, ?_⟩
  · intro t a a' b b' data old hshows hshows' htakes htakes' hapart hapart'
    obtain ⟨hafter, hends⟩ := t.agree_op (L := L) _ _ w w' halike
      ⟨⟨data, hshows, hshows'⟩, ⟨old, htakes, htakes'⟩, hapart, hapart'⟩
    obtain ⟨hsame, hfaces⟩ := Op.eq_of_ends hends
    exact ⟨hsame, hafter.same, hfaces⟩
  · intro q a a' data hshows hshows' hin hin'
    obtain ⟨hafter, hends⟩ := q.twin_op (L := L) _ _ w w' halike
      ⟨⟨data, hshows, hshows'⟩, hin, hin'⟩
    exact ⟨(Op.eq_of_ends hends).1, hafter.same⟩
  · intro d position h
    exact ⟨fun t a => t.op_moveTo d position h a, fun q => q.op_moveTo d position h⟩
  · intro s name position hcursor
    constructor
    · intro t input output
      exact Act.cursor?_of_beyond (Act.beyond_into input output _ s (.refl s)) hcursor
    · intro q input
      exact Act.cursor?_of_beyond (Act.beyond_onObject input _ s (.refl s)) hcursor

def refusing : Script :=
  { replies := [("LZ4_decompress_safe", [{ result := some (-1), bytes := [0x20] }])] }

/-- Where that byte comes to lie on a block, the complaint about the block is another, although the
objects of the two calls show the same. -/
theorem requests_unlike_overlapping :
    let L := scripted fun _ => refusing
    let m : Memory := .holding [0x30, 97, 98, 99] [.ofBytes [0x30]]
    let w : World Scripted := { memory := m, libraries := .start fun _ => refusing }
    let block : Argument := .view ⟨"bytearray", 0, false, true, .byte, none⟩
    let front : Argument := .range ⟨⟨.managed 0, 0⟩, 1, "bytearray", false⟩
    let t : Transfer := .decompress .lz4Decompressor
    block.Shows w.memory [0x30, 97, 98, 99] ∧ Argument.second.Takes w.memory [0x30] ∧
      front.Takes w.memory [0x30] ∧
      ∃ e e', ((t.op L block .second).run w).1 = .error e ∧
        ((t.op L block front).run w).1 = .error e' ∧ e.kind = .bufferTooSmall ∧
        e'.kind = .malformedInput := by
  intro L m w block front t
  have hblock : block.Shows w.memory [0x30, 97, 98, 99] := Argument.shows_view rfl (by decide)
  have hsecond : Argument.second.Takes w.memory [0x30] :=
    Argument.takes_view rfl (by decide) rfl
  have hfront : front.Takes w.memory [0x30] :=
    ⟨_, rfl, @Range.holds_of_target m _ 0 0 rfl (by decide) (by decide)⟩
  refine ⟨hblock, hsecond, hfront, .blockRoom 1 3, .malformedBlock (-1), ?_, ?_, rfl, rfl⟩
  · decide +kernel
  · decide +kernel

/-- A view of two items of two bytes and a part of a direct buffer show the same block, and a byte
array and another direct buffer take it alike. -/
theorem requests_alike_cast :
    let m : Memory :=
      .holding [0x30, 7, 8, 9] [.fresh 3, .ofBytes [5, 0x30, 7, 8, 9, 6], .fresh 3]
    let w : World Contexts := { memory := m, libraries := {} }
    let short : Item := { width := 2, reading := .signed }
    let cast : Argument := .view ⟨"memoryview", 0, false, true, short, some [1, 2]⟩
    let part : Argument := .range ⟨⟨.near 2 0, 1⟩, 4, "DirectBuffer", false⟩
    let buffer : Argument := .direct ⟨3, 3, 2, by decide⟩
    let t : Transfer := .lz4Decompress false
    ((t.op (system (.ok {})) part buffer).run w).1 = .ok 3 ∧
      ∃ new, Argument.second.Takes ((t.op (system (.ok {})) cast .second).run w).2.memory new ∧
        buffer.Takes ((t.op (system (.ok {})) part buffer).run w).2.memory new := by
  intro m w short cast part buffer t
  have hcast : cast.Shows w.memory [0x30, 7, 8, 9] := Argument.shows_view rfl (by decide)
  have hwhole : (Argument.direct ⟨2, 6, 0, by decide⟩).Shows w.memory [5, 0x30, 7, 8, 9, 6] :=
    Argument.shows_direct (by decide) (by decide)
  have hpart : part.Shows w.memory [0x30, 7, 8, 9] :=
    ⟨_, rfl, @Argument.Shows.part _ _ _ hwhole 1 (some 4) _ rfl⟩
  have harray : Argument.second.Takes w.memory [0, 0, 0] :=
    Argument.takes_view rfl (by decide) rfl
  have hbuffer : buffer.Takes w.memory [0, 0, 0] := Argument.takes_direct (by decide) (by decide)
  have hapart : cast.Apart .second w.memory :=
    Argument.apart_of_ne rfl rfl rfl rfl (by decide) w.memory
  have hapart' : part.Apart buffer w.memory :=
    Argument.apart_of_ne rfl rfl rfl rfl (by decide) w.memory
  obtain ⟨hsame, -, hnew⟩ := (requests_alike (system (.ok {})) rfl rfl rfl rfl).1 t cast part .second
    buffer _ _ hcast hpart harray hbuffer hapart hapart'
  have hrun : ((t.op (system (.ok {})) cast .second).run w).1 = .ok 3 := by decide +kernel
  exact ⟨hsame.trans hrun, hnew⟩

end Codec

end NativeCodec
