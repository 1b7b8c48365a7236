import NativeCodec.Codec.Request
import NativeCodec.Proofs.Transfer.Coding

set_option autoImplicit false
set_option relaxedAutoImplicit false

namespace NativeCodec.Native

/-- What a native function finds in a range of some memory. -/
def sourceOf (m : Memory) (r : Range) : Source := ⟨r.length, m.read? r.start r.length⟩

namespace Op

variable {σ α β : Type} {L : Libraries σ} {m : Memory} {cells : Nat} {src dst : Range}
  {form form' : Source → Call → Prop}

/-- At most one coding call is made, of a form that depends on what one range holds and at the
places of two, and memory changes inside the second at most. -/
def Relays (m : Memory) (cells : Nat) (src dst : Range) (form : Source → Call → Prop)
    (x : Op σ α) : Prop :=
  Confines (Stands m cells) (Memory.SameOutside dst)
    (fun call site => form (sourceOf m src) call ∧ site = ⟨some src.start, some dst.start⟩) x

theorem Relays.mono {x : Op σ α} (hx : Relays m cells src dst form x)
    (h : ∀ s c, form s c → form' s c) : Relays m cells src dst form' x :=
  Confines.mono hx (fun _ _ => id) fun c _ => And.imp_left (h _ c)

private theorem Relays.mono' {whole : Range} {x : Op σ α} (hx : Relays m cells src dst form x)
    (ht : ∀ m m', Memory.SameOutside dst m m' → Memory.SameOutside whole m m')
    (h : ∀ s c, form s c → form' s c) :
    Confines (Stands m cells) (Memory.SameOutside whole)
      (fun call site => form' (sourceOf m src) call ∧ site = ⟨some src.start, some dst.start⟩) x :=
  Confines.mono hx ht fun c _ => And.imp_left (h _ c)

theorem Relays.weaken {more : Nat} {x : Op σ α} (hx : Relays m cells src dst form x)
    (h : cells ≤ more) : Relays m more src dst form x :=
  fun w hw => hx w ⟨hw.memory_eq, Nat.le_trans h hw.cells_le⟩

private theorem Relays.of_quiet {x : Op σ α} (hx : Quiet x) : Relays m cells src dst form x :=
  Confines.of_quiet hx (Memory.SameOutside.refl dst)

private theorem Relays.after {x : Op σ β} {f : β → Op σ α} (hx : Quiet x)
    (hf : ∀ b, Relays m cells src dst form (f b)) : Relays m cells src dst form (x >>= f) :=
  Confines.after hx hf (Memory.SameOutside.refl dst)

private theorem Relays.given {P : β → Prop} {x : Op σ β} {f : β → Op σ α} (hx : Quiet x)
    (hp : Gives P x)
    (hf : ∀ b, P b → Relays m cells src dst form (f b)) :
    Relays m cells src dst form (x >>= f) :=
  Confines.given hx hp hf (Memory.SameOutside.refl dst)

private theorem Relays.ite {c : Prop} [Decidable c] {x y : Op σ α}
    (hx : Relays m cells src dst form x)
    (hy : Relays m cells src dst form y) : Relays m cells src dst form (if c then x else y) := by
  split
  · exact hx
  · exact hy

private theorem relays_call {c : Call} {f : c.Reply → Op σ α} (hc : c.codes = true)
    (ha : form (sourceOf m src) c) (hf : ∀ reply, Tidy dst (f reply)) :
    Relays m cells src dst form (call L c ⟨some src.start, some dst.start⟩ >>= f) :=
  Confines.then_tidy (confines_call hc ⟨ha, rfl⟩ (Memory.SameOutside.refl dst)) hf

private theorem Relays.source {f : Source → Op σ α}
    (hf : Relays m cells src dst form (f (sourceOf m src))) :
    Relays m cells src dst form (Op.source src >>= f) :=
  Confines.source hf (Memory.SameOutside.refl dst)

private theorem tidy_store_bind {capacity : Nat} {written : Bytes} {f : Unit → Op σ α}
    (h : capacity ≤ dst.length) (hf : Quiet (f ())) : Tidy dst (store dst capacity written >>= f) :=
  Tidy.bind (tidy_store h written) fun _ => hf.tidy dst

private theorem Relays.cell {index n : Nat} {f : Nat → Op σ α} (h : index < cells)
    (hf : Relays m cells src dst form (f n)) :
    Relays m cells src dst form (setCell index n >>= fun _ => Op.cell index >>= f) := by
  refine Confines.bind (R := fun _ w => Stands m cells w ∧ w.cells.getD index 0 = n)
    (quiet_setCell index n) ?_ ?_ (Memory.SameOutside.refl dst)
  · intro w hw _ hset
    refine ⟨(quiet_setCell index n).stands w hw, ?_⟩
    unfold setCell at hset ⊢
    rw [run_of] at hset ⊢
    split at hset
    · exact absurd hset (by simp)
    · next hn =>
      rw [if_neg hn, List.getD_eq_getElem?_getD, List.getElem?_set_self]
      · rfl
      · exact Nat.lt_of_lt_of_le h hw.cells_le
  · intro _
    refine Confines.bind (R := fun k w => Stands m cells w ∧ k = n) (quiet_cell index) ?_ ?_
      (Memory.SameOutside.refl dst)
    · rintro w ⟨hw, hn⟩ k hk
      exact ⟨hw, (Except.ok.inj hk).symm.trans hn⟩
    · rintro k w ⟨hw, rfl⟩
      exact hf w hw

end Op

end NativeCodec.Native

namespace NativeCodec.Codec

open Native

variable {σ : Type} {L : Libraries σ} {m : Memory} {cells : Nat}

namespace Lz4

theorem quiet_create (acceleration : Int) : Op.Quiet (create L acceleration) := by
  refine Op.Quiet.ite (Op.Quiet.throw_bind _ _) ?_
  exact Op.Quiet.bind (Op.quiet_bind .lz4) fun _ => Op.Quiet.pure _

private theorem gives_create (acceleration : Int) :
    Op.Gives (fun c => c.acceleration = acceleration) (create L acceleration) := by
  refine Op.Gives.ite (Op.Gives.throw_bind _ _ _) ?_
  exact Op.Gives.after fun _ => Op.Gives.pure rfl

theorem quiet_bound (length : Int) : Op.Quiet (bound L length) := by
  refine Op.Quiet.bind (Op.Quiet.ofExcept _) fun _ => ?_
  refine Op.Quiet.bind (Op.quiet_bind .lz4) fun _ => ?_
  exact Op.Quiet.call {} rfl

/-- The call that compresses: the capacity is a number that the library takes. -/
def Compressor.form (c : Compressor) (room : Nat) (source : Source) (call : Call) : Prop :=
  call = .lz4Compress c.stateWords source (min room intMax) c.acceleration

def decodingForm (room : Nat) (source : Source) (call : Call) : Prop :=
  call = .lz4Decompress source (min room intMax)

theorem relays_compressRange (c : Compressor) (src dst : Range) :
    Op.Relays m cells src dst (c.form dst.length) (compressRange L c src dst) := by
  refine Op.Relays.after (Op.Quiet.ofExcept _) fun _ => ?_
  refine Op.Relays.source (Op.relays_call rfl rfl fun reply => ?_)
  refine Op.tidy_store_bind (Nat.min_le_left _ _) (Op.Quiet.ite (Op.Quiet.pure _) ?_)
  refine Op.Quiet.bind (quiet_bound _) fun most => ?_
  exact Op.Quiet.ite (Op.Quiet.throw_bind _ _) (Op.Quiet.throw _)

theorem relays_decompressRange (src dst : Range) :
    Op.Relays m cells src dst (decodingForm dst.length) (decompressRange L src dst) := by
  refine Op.Relays.ite (Op.Relays.of_quiet (Op.Quiet.throw_bind _ _)) ?_
  refine Op.Relays.source (Op.relays_call rfl rfl fun reply => ?_)
  refine Op.tidy_store_bind (Nat.min_le_left _ _) (Op.Quiet.ite (Op.Quiet.pure _) ?_)
  refine Op.Quiet.bind (Op.quiet_bytes _) fun block => ?_
  exact Op.Quiet.bind (Op.quiet_note _ _) fun _ => Op.Quiet.throw _

def behindSize (sized : Bool) (r : Range) : Range :=
  if sized then { r with start := r.start.advance sizeWidth, length := r.length - sizeWidth } else r

def storedIn (m : Memory) (src : Range) : Nat :=
  Bytes.toNat ((m.read? src.start sizeWidth).getD [])

/-- The part of a destination that a block is decompressed into: as much as the stored size says,
if there is one. -/
def roomFor (m : Memory) (sized : Bool) (src dst : Range) : Range :=
  if sized then { dst with length := storedIn m src } else dst

/-- The bytes of a destination that a stored size lets its block have. -/
def granted (m : Memory) (src dst : Range) : Range :=
  { dst with length := min (storedIn m src) dst.length }

theorem storedIn_lt (m : Memory) (src : Range) : storedIn m src < 0x100000000 := by
  have hlength : ((m.read? src.start sizeWidth).getD []).length ≤ sizeWidth := by
    unfold Memory.read?
    rw [if_neg (by decide)]
    cases src.start.target? with
    | none => exact Nat.zero_le _
    | some target =>
      change ((m.get target.1).read target.2 sizeWidth).length ≤ sizeWidth
      rw [Storage.length_read]
      exact Nat.min_le_left _ _
  exact Nat.lt_of_lt_of_le (Bytes.toNat_lt _) (Nat.pow_le_pow_right (by decide) hlength)

private theorem front_of_slice {r front : Range} {size : Nat}
    (h : r.slice? 0 (some size) = .ok front) :
    front = { r with length := size } ∧ size ≤ r.length := by
  obtain ⟨o, l, ho, hl, hle, rfl⟩ := Range.slice?_eq_ok_iff.mp h
  have hstart : o = 0 := (Int.ofNat.inj ho).symm
  have hlength : l = size := (Int.ofNat.inj hl).symm
  subst hstart hlength
  exact ⟨rfl, Nat.le_trans (Nat.le_add_left _ _) hle⟩

private theorem behindSize_of_slice {r body : Range} (h : r.slice? sizeWidth none = .ok body) :
    body = behindSize true r ∧ sizeWidth + body.length ≤ r.length := by
  obtain ⟨o, l, ho, hl, hle, rfl⟩ := Range.slice?_eq_ok_iff.mp h
  have hwidth : o = sizeWidth := (Int.ofNat.inj ho).symm
  subst hwidth
  have hlength : l = r.length - sizeWidth := by
    rw [Option.getD_none] at hl
    omega
  subst hlength
  exact ⟨rfl, hle⟩

theorem confines_compressBlockRange (acceleration : Option Int) (sized : Bool) (src dst : Range) :
    Op.Confines (Op.Stands m cells) (Memory.SameOutside dst)
      (fun call site =>
        (∃ words, Compressor.form ⟨acceleration.getD usualAcceleration, words⟩
          (behindSize sized dst).length (sourceOf m src) call) ∧
        site = ⟨some src.start, some (behindSize sized dst).start⟩)
      (compressBlockRange L src dst acceleration sized) := by
  have hrefl := Memory.SameOutside.refl dst
  refine Op.Confines.given (quiet_create _) (gives_create _) (fun c hc => ?_) hrefl
  have hform : ∀ room source call, c.form room source call → ∃ words,
      Compressor.form ⟨acceleration.getD usualAcceleration, words⟩ room source call := by
    rintro room source call hcall
    exact ⟨c.stateWords, by rw [← hc]; exact hcall⟩
  cases sized with
  | false => exact (relays_compressRange c src dst).mono (hform _)
  | true =>
    refine Op.Confines.after (Op.Quiet.ofExcept _) (fun room => ?_) hrefl
    change Op.Confines _ _ _ (if room < sizeWidth then _ else _)
    split
    · exact Op.Confines.of_quiet (Op.Quiet.throw_bind _ _) hrefl
    refine Op.Confines.given (R := fun body => dst.slice? sizeWidth none = .ok body)
      (Op.Quiet.ofExcept _) (fun _ _ h => h) (fun body hslice => ?_) hrefl
    obtain ⟨hbody, hfits⟩ := behindSize_of_slice hslice
    rw [← hbody]
    refine Op.Confines.then_tidy ?_ fun n => ?_
    · refine (relays_compressRange c src body).mono' (fun _ _ h => h.part ?_ hfits) (hform _)
      rw [hbody]
      rfl
    · refine Op.tidy_ofExcept_bind fun header hheader => ?_
      refine Op.Tidy.bind (Op.tidy_write ?_) fun _ => (Op.Quiet.pure _).tidy dst
      unfold sizeHeader at hheader
      split at hheader
      · rw [← Except.ok.inj hheader, Bytes.length_ofNat]
        omega
      · exact absurd hheader (by simp)

private theorem quiet_storedSize (src : Range) : Op.Quiet (storedSize src : Op σ Nat) := by
  refine Op.Quiet.bind (Op.Quiet.ofExcept _) fun length => ?_
  refine Op.Quiet.ite (Op.Quiet.throw_bind _ _) ?_
  refine Op.Quiet.bind (Op.Quiet.ofExcept _) fun header => ?_
  refine Op.Quiet.bind (Op.quiet_bytes _) fun bytes => ?_
  exact Op.Quiet.ite (Op.Quiet.throw_bind _ _) (Op.Quiet.pure _)

section StoredSize

variable {w : World σ} {src : Range}

theorem run_storedSize_short (hwidth : src.length < sizeWidth) :
    (storedSize src).run w = (.error .sizeMissing, w) := by
  have hcount := Range.count?_of_le (Nat.le_of_lt hwidth) (by decide)
  unfold storedSize
  rw [Op.run_ofExcept_bind hcount, if_pos hwidth, Op.run_bind_error (Op.run_throw _ _)]

/-- The size in front of a block is read, unless no block of that length stands for so much. -/
theorem run_storedSize_wide (hcount : src.length < countLimit) (hwidth : sizeWidth ≤ src.length) :
    (storedSize src).run w =
      (if maxExpansion * (src.length - sizeWidth) + maxExpansion < storedIn w.memory src then
          .error (.sizeUnlikely (storedIn w.memory src) src.length)
        else .ok (storedIn w.memory src), w) := by
  have hlength : src.count? = .ok src.length := if_pos hcount
  have hheader : src.slice? 0 (some sizeWidth) = .ok { src with length := sizeWidth } :=
    Range.slice?_eq_ok_iff.mpr ⟨0, sizeWidth, rfl, rfl, by omega, rfl⟩
  have hbytes := Op.run_bytes w { src with length := sizeWidth }
  change _ = (Except.ok ((w.memory.read? src.start sizeWidth).getD []), w) at hbytes
  unfold storedSize
  rw [Op.run_ofExcept_bind hlength, if_neg (Nat.not_lt.mpr hwidth), Op.run_ofExcept_bind hheader,
    Op.run_bind_ok hbytes, Op.run_ite]
  change (if _ < storedIn w.memory src then _ else _) = _
  split
  · rw [Op.run_bind_error (Op.run_throw _ w)]
    rfl
  · rfl

theorem eq_storedIn {size : Nat} (hw : w.memory = m)
    (h : ((storedSize src : Op σ Nat).run w).1 = .ok size) : size = storedIn m src := by
  by_cases hcount : src.length < countLimit
  · rcases Nat.lt_or_ge src.length sizeWidth with hshort | hwidth
    · rw [run_storedSize_short hshort] at h
      exact absurd h (by simp)
    · rw [run_storedSize_wide hcount hwidth] at h
      dsimp only at h
      split at h
      · exact absurd h (by simp)
      · rw [← Except.ok.inj h, hw]
  · have hlength : (Op.ofExcept src.count?).run w = (.error .tooLarge, w) := by
      rw [Op.run_ofExcept, Range.count?, if_neg hcount]
    unfold storedSize at h
    rw [Op.run_bind_error hlength] at h
    exact absurd h (by simp)

end StoredSize

theorem confines_decompressSized (src dst : Range) :
    Op.Confines (Op.Stands m cells) (Memory.SameOutside (granted m src dst))
      (fun call site =>
        decodingForm (storedIn m src) (sourceOf m (behindSize true src)) call ∧
        site = ⟨some (behindSize true src).start, some dst.start⟩)
      (decompressSized L src dst) := by
  have hrefl := Memory.SameOutside.refl (granted m src dst)
  refine Op.Confines.known (R := fun size => size = storedIn m src) (quiet_storedSize src)
    (fun w size hm h => eq_storedIn hm h) (fun size hsize => ?_) hrefl
  refine Op.Confines.after (Op.Quiet.ofExcept _) (fun room => ?_) hrefl
  change Op.Confines _ _ _ (if room < size then _ else _)
  split
  · exact Op.Confines.of_quiet (Op.Quiet.throw_bind _ _) hrefl
  refine Op.Confines.after (quiet_create _) (fun _ => ?_) hrefl
  refine Op.Confines.given (R := fun body => src.slice? sizeWidth none = .ok body)
    (Op.Quiet.ofExcept _) (fun _ _ h => h) (fun body hbody => ?_) hrefl
  refine Op.Confines.given (R := fun part => dst.slice? 0 (some size) = .ok part)
    (Op.Quiet.ofExcept _) (fun _ _ h => h) (fun part hpart => ?_) hrefl
  obtain ⟨rfl, hle⟩ := front_of_slice hpart
  subst hsize
  rw [← (behindSize_of_slice hbody).1]
  refine Op.Confines.then_tidy ?_ fun n => ?_
  · refine Op.Confines.tryCatch ?_ fun _ => Op.Quiet.throw _
    have hpart : { dst with length := storedIn m src } = granted m src dst := by
      unfold granted
      rw [Nat.min_eq_left hle]
    rw [← hpart]
    exact relays_decompressRange body _
  · exact (Op.Quiet.ite (Op.Quiet.throw_bind _ _) (Op.Quiet.pure _)).tidy _

theorem confines_decompressBlockRange (sized : Bool) (src dst : Range) :
    Op.Confines (Op.Stands m cells) (Memory.SameOutside dst)
      (fun call site =>
        decodingForm (roomFor m sized src dst).length (sourceOf m (behindSize sized src)) call ∧
        site = ⟨some (behindSize sized src).start, some (roomFor m sized src dst).start⟩)
      (decompressBlockRange L src dst sized) := by
  cases sized with
  | false =>
    exact Op.Relays.after (quiet_create _) fun _ => relays_decompressRange src dst
  | true =>
    have hgranted : 0 + (granted m src dst).length ≤ dst.length := by
      change 0 + min (storedIn m src) dst.length ≤ dst.length
      omega
    exact (confines_decompressSized src dst).mono (fun _ _ h => h.part rfl hgranted) fun _ _ => id

end Lz4

namespace Snappy

theorem quiet_create : Op.Quiet (create L) := by
  refine Op.Quiet.bind (Op.quiet_bind .snappy) fun _ => ?_
  exact Op.Quiet.bind Op.quiet_newCell fun _ => Op.Quiet.pure _

private theorem quiet_bound (length : Int) : Op.Quiet (bound L length) :=
  Op.Quiet.bind (Op.quiet_bind .snappy) fun _ => Op.Quiet.call {} rfl

private theorem Coder.quiet_leave (c : Coder) (reply : Counted) :
    Op.Quiet (c.leave reply : Op σ Unit) := by
  unfold leave
  split
  · exact Op.Quiet.pure ()
  · exact Op.quiet_setCell _ _

/-- The call that compresses: the length cell holds the capacity. -/
def encodingForm (room : Nat) (source : Source) (call : Call) : Prop :=
  call = .snappyCompress source room room

def decodingForm (room : Nat) (source : Source) (call : Call) : Prop :=
  call = .snappyDecompress source room room

variable (c : Coder) (src dst : Range)

theorem relays_compressRange :
    Op.Relays m (c.cell + 1) src dst (encodingForm dst.length) (compressRange L c src dst) := by
  refine Op.Relays.source (Op.Relays.cell (Nat.lt_succ_self _) ?_)
  refine Op.relays_call rfl rfl fun reply => ?_
  refine Op.tidy_store_bind (Nat.le_refl _) (Op.Quiet.bind (c.quiet_leave reply) fun _ => ?_)
  refine Op.Quiet.ite ?_ (Op.Quiet.ite (Op.Quiet.throw_bind _ _) (Op.quiet_cell _))
  exact Op.Quiet.bind (quiet_bound _) fun _ => Op.Quiet.throw_bind _ _

theorem relays_decompressRange :
    Op.Relays m (c.cell + 1) src dst (decodingForm dst.length) (decompressRange L c src dst) := by
  refine Op.Relays.source (Op.Relays.cell (Nat.lt_succ_self _) ?_)
  refine Op.relays_call rfl rfl fun reply => ?_
  refine Op.tidy_store_bind (Nat.le_refl _) (Op.Quiet.bind (c.quiet_leave reply) fun _ => ?_)
  refine Op.Quiet.ite (Op.Quiet.throw_bind _ _) (Op.Quiet.ite (Op.Quiet.throw_bind _ _) ?_)
  exact Op.Quiet.ite (Op.Quiet.throw_bind _ _) (Op.quiet_cell _)

theorem stands_create : Op.Spec (Op.Stands m cells) (create L) fun o w =>
    ∀ c, o = .ok c → Op.Stands m (c.cell + 1) w := by
  intro w hw
  have hbind := (Op.quiet_bind (L := L) .snappy).stands w hw
  unfold create
  rw [Op.run_bind]
  rcases hr : (Op.bind L .snappy).run w with ⟨e | constants, w'⟩
  · intro c hc
    exact absurd hc (by simp)
  · rw [hr] at hbind
    rintro c ⟨⟩
    refine ⟨hbind.memory_eq, ?_⟩
    change w'.cells.length + 1 ≤ (w'.cells ++ [0]).length
    rw [List.length_append]
    exact Nat.le_refl _

end Snappy

namespace Zstd

private theorem quiet_fail {α : Type} (operation : String) (word : Nat) (decoding : Bool) :
    Op.Quiet (fail L operation word decoding : Op σ α) :=
  Op.Quiet.bind (Op.quiet_note _ _) fun _ => Op.Quiet.throw _

private theorem quiet_sized (operation : String) (word : Nat) (decoding : Bool) :
    Op.Quiet (sized L operation word decoding) :=
  Op.Quiet.ite (Op.Quiet.bind (quiet_fail _ _ _) fun _ => Op.Quiet.pure _) (Op.Quiet.pure _)

theorem quiet_acquire (d : Direction) : Op.Quiet (acquire L d) :=
  Op.Quiet.bind (Op.Quiet.call {} rfl) fun _ => Op.Quiet.ofExcept _

theorem quiet_free (d : Direction) (handle : Nat) : Op.Quiet (free L d handle) :=
  Op.Quiet.call {} rfl

private theorem quiet_release (d : Direction) (c : Context) : Op.Quiet (release L d c) := by
  unfold release
  split
  · exact Op.Quiet.pure _
  · exact Op.Quiet.bind (quiet_free d _) fun _ => Op.Quiet.pure _

private theorem quiet_releaseOwn (d : Direction) (c : Option Context) :
    Op.Quiet (releaseOwn L d c) := by
  cases c with
  | none => exact Op.Quiet.pure _
  | some c => exact Op.Quiet.map _ (quiet_release d c)

private theorem quiet_ownContext (d : Direction) (own : Bool) : Op.Quiet (ownContext L d own) :=
  Op.Quiet.ite (Op.Quiet.bind (quiet_acquire d) fun _ => Op.Quiet.pure _) (Op.Quiet.pure _)

theorem Compressor.quiet_create (level : Option Int) (own : Bool) :
    Op.Quiet (Compressor.create L level own) := by
  refine Op.Quiet.bind (Op.quiet_bind .zstd) fun constants => ?_
  refine Op.Quiet.ite (Op.Quiet.throw_bind _ _) ?_
  exact Op.Quiet.bind (quiet_ownContext _ _) fun _ => Op.Quiet.pure _

theorem Compressor.gives_create (level : Option Int) (own : Bool) :
    Op.Gives (fun c => c.level = level.getD usualLevel) (Compressor.create L level own) := by
  refine Op.Gives.after fun constants => ?_
  refine Op.Gives.ite (Op.Gives.throw_bind _ _ _) ?_
  exact Op.Gives.after fun _ => Op.Gives.pure rfl

theorem Compressor.quiet_close (c : Compressor) : Op.Quiet (c.close L) :=
  Op.Quiet.bind (quiet_releaseOwn _ _) fun _ => Op.Quiet.pure _

theorem Decompressor.quiet_create (own : Bool) : Op.Quiet (Decompressor.create L own) := by
  refine Op.Quiet.bind (Op.quiet_bind .zstd) fun constants => ?_
  exact Op.Quiet.bind (quiet_ownContext _ _) fun _ => Op.Quiet.pure _

theorem Decompressor.quiet_close (d : Decompressor) : Op.Quiet (d.close L) :=
  Op.Quiet.bind (quiet_releaseOwn _ _) fun _ => Op.Quiet.pure _

def encodingForm (context : Nat) (level : Int) (room : Nat) (source : Source) (call : Call) :
    Prop :=
  call = .zstdCompress context room source level

def decodingForm (context room : Nat) (source : Source) (call : Call) : Prop :=
  call = .zstdDecompress context room source

variable (context : Nat) (src dst : Range)

theorem relays_compressRange (level : Int) :
    Op.Relays m cells src dst (encodingForm context level dst.length)
      (compressRange L context src dst level) := by
  refine Op.Relays.source (Op.relays_call rfl rfl fun reply => ?_)
  exact Op.tidy_store_bind (Nat.le_refl _) (quiet_sized _ _ _)

theorem relays_decompressRange :
    Op.Relays m cells src dst (decodingForm context dst.length)
      (decompressRange L context src dst) := by
  refine Op.Relays.source (Op.relays_call rfl rfl fun reply => ?_)
  exact Op.tidy_store_bind (Nat.le_refl _) (quiet_sized _ _ _)

theorem relays_within {α : Type} {src dst : Range} {form : Source → Call → Prop} {d : Direction}
    {own : Option Context} {body : Nat → Op σ α}
    (hb : ∀ handle, (∀ c, own = some c → handle = c.handle) →
      Op.Relays m cells src dst form (body handle)) :
    Op.Relays m cells src dst form (within L d own body) := by
  cases own with
  | none =>
    refine Op.Relays.after (quiet_acquire d) fun c => ?_
    exact Op.Confines.ensuring (hb c.handle (by simp)) (quiet_free d _)
  | some c =>
    refine Op.Relays.given (P := fun handle => handle = c.handle) (Op.Quiet.ofExcept _) ?_ ?_
    · intro w handle h
      have huse : c.use = .ok handle := h
      unfold Context.use at huse
      split at huse
      · exact absurd huse (by simp)
      · exact (Except.ok.inj huse).symm
    · rintro handle rfl
      exact hb c.handle fun c' hc => congrArg Context.handle (Option.some.inj hc)

end Zstd

end NativeCodec.Codec
