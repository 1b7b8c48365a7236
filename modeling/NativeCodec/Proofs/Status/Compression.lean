import NativeCodec.Codec.Request
import NativeCodec.Proofs.Memory.Kinds
import NativeCodec.Proofs.Status.Codecs

set_option autoImplicit false
set_option relaxedAutoImplicit false

namespace NativeCodec

def Faultless {α : Type} (o : Except Error α) : Prop := ∀ e, o = .error e → e.kind ≠ .malformedInput

namespace Faultless

variable {α β : Type}

private theorem ok (a : α) : Faultless (.ok a : Except Error α) := nofun

private theorem error {e : Error} (h : e.kind ≠ .malformedInput) :
    Faultless (.error e : Except Error α) := by
  intro d hd
  rw [← Except.error.inj hd]
  exact h

private theorem bind {o : Except Error α} {f : α → Except Error β} (ho : Faultless o)
    (hf : ∀ a, Faultless (f a)) : Faultless (o.bind f) := by
  cases o with
  | error e => exact error (ho e rfl)
  | ok a => exact hf a

private theorem map {o : Except Error α} (ho : Faultless o) (f : α → β) : Faultless (o.map f) := by
  cases o with
  | error e => exact error (ho e rfl)
  | ok a => exact ok _

private theorem ite {c : Prop} [Decidable c] {o o' : Except Error α} (ho : Faultless o)
    (ho' : Faultless o') : Faultless (if c then o else o') := by
  split
  · exact ho
  · exact ho'

end Faultless

section Memory

private theorem faultless_checkBounds (offset : Int) (length : Option Int) (size : Nat) :
    Faultless (checkBounds offset length size) :=
  .ite (.error nofun) (.ite (.error nofun) (.ok _))

private theorem Range.faultless_slice? (r : Range) (offset : Int) (length : Option Int) :
    Faultless (r.slice? offset length) :=
  Faultless.map (faultless_checkBounds _ _ _) _

private theorem Range.faultless_count? (r : Range) :
    Faultless r.count? := .ite (.ok _) (.error nofun)

private theorem Range.faultless_writable? (r : Range) : Faultless r.writable? :=
  .ite (.error nofun) (.ok _)

private theorem Argument.faultless_source? (m : Memory) (a : Argument) :
    Faultless (a.source? m) := by
  intro e he
  rw [(range?_of_source_error he).1]
  decide

private theorem Argument.faultless_destination? (m : Memory) (a : Argument) :
    Faultless (a.destination? m) :=
  (a.faultless_source? m).bind Range.faultless_writable?

private theorem Memory.faultless_checkSize (m : Memory) (size : Int) :
    Faultless (m.checkSize size) :=
  .ite (.error nofun) (.ite (.error nofun) (.ite (.error nofun) (.ok _)))

private theorem Memory.faultless_allocate (m : Memory) (size : Int) : Faultless (m.allocate size) :=
  Faultless.map (m.faultless_checkSize size) _

end Memory

section Context

private theorem Context.faultless_create (kind : String) (handle : Option Nat) :
    Faultless (Context.create kind handle) := by
  cases handle with
  | none => exact .error nofun
  | some handle => exact .ok _

private theorem Context.faultless_use (c : Context) : Faultless c.use := .ite (.error nofun) (.ok _)

end Context

theorem Error.OfBinding.kind_ne {e : Error} (he : e.OfBinding) {k : Kind}
    (hpackage : k.isA .package = true) (hload : k ≠ .libraryLoad)
    (hsymbol : k ≠ .symbolResolution) :
    e.kind ≠ k := by
  rintro rfl
  rcases he hpackage with h | h
  · exact hload h
  · exact hsymbol h

namespace Native

variable {σ α β : Type}

/-- What binding a library settled on is a success or an error of binding. -/
def World.Accounted (w : World σ) : Prop :=
  ∀ a e, (w.bindings a).settled = some (.error e) → e.OfBinding

namespace Op

/-- An operation that does not find fault with its input, whatever becomes of it. -/
def Lenient (x : Op σ α) : Prop :=
  Spec World.Accounted x fun o w => w.Accounted ∧ Faultless o

variable {x : Op σ α} {L : Libraries σ}

private theorem Lenient.of_bindings (hb : ∀ w, (x.run w).2.bindings = w.bindings)
    (ho : ∀ w, Faultless (x.run w).1) : Lenient x := by
  intro w hw
  refine ⟨?_, ho w⟩
  unfold World.Accounted
  rw [hb w]
  exact hw

private theorem Lenient.bind {f : α → Op σ β} (hx : Lenient x) (hf : ∀ a, Lenient (f a)) :
    Lenient (x >>= f) := by
  refine Spec.bind hx (fun a => Spec.mono (hf a) (fun _ h => h.1) fun _ _ h => h) ?_
  rintro e w ⟨hw, hfault⟩
  exact ⟨hw, .error (hfault e rfl)⟩

private theorem Lenient.ofExcept {o : Except Error α} (h : Faultless o) :
    Lenient (Op.ofExcept o : Op σ α) :=
  Lenient.of_bindings (fun _ => rfl) fun _ => h

private theorem Lenient.pure (a : α) : Lenient (Pure.pure a : Op σ α) := Lenient.ofExcept (.ok a)

private theorem Lenient.throw {e : Error} (h : e.kind ≠ .malformedInput) :
    Lenient (MonadExcept.throw e : Op σ α) := Lenient.ofExcept (.error h)

private theorem Lenient.throw_bind {e : Error} (h : e.kind ≠ .malformedInput) (f : β → Op σ α) :
    Lenient ((MonadExcept.throw e : Op σ β) >>= f) := by
  intro w hw
  rw [run_bind_error (run_throw e w)]
  exact ⟨hw, .error h⟩

private theorem Lenient.ite {c : Prop} [Decidable c] {y : Op σ α} (hx : Lenient x)
    (hy : Lenient y) :
    Lenient (if c then x else y) := Spec.ite hx hy

private theorem Lenient.map (g : α → β) (hx : Lenient x) : Lenient (g <$> x) := by
  intro w hw
  rw [run_map]
  exact ⟨(hx w hw).1, (hx w hw).2.map g⟩

private theorem Lenient.discard (hx : Lenient x) : Lenient (discard x) := by
  intro w hw
  rw [run_discard]
  exact ⟨(hx w hw).1, (hx w hw).2.map _⟩

private theorem Lenient.ensuring {closing : Op σ Unit} (hx : Lenient x) (hc : Lenient closing) :
    Lenient (ensuring x closing) := by
  intro w hw
  obtain ⟨hw', hfault⟩ := hx w hw
  obtain ⟨hw'', hclosing⟩ := hc _ hw'
  exact ⟨hw'', hclosing.bind fun _ => hfault⟩

section Primitive

private theorem lenient_input (a : Argument) : Lenient (input a : Op σ Range) :=
  Lenient.of_bindings (fun _ => rfl) fun w => a.faultless_source? w.memory

private theorem lenient_output (a : Argument) : Lenient (output a : Op σ Range) :=
  Lenient.of_bindings (fun _ => rfl) fun w => a.faultless_destination? w.memory

private theorem Lenient.ranges {f : Range → Range → Op σ α} (hf : ∀ src dst, Lenient (f src dst))
    (a b : Argument) : Lenient (input a >>= fun src => output b >>= f src) :=
  Lenient.bind (lenient_input a) fun src => Lenient.bind (lenient_output b) (hf src)

private theorem lenient_source (r : Range) : Lenient (source r : Op σ Source) :=
  Lenient.of_bindings (fun _ => rfl) fun _ => .ok _

private theorem lenient_store (r : Range) (capacity : Nat) (written : Bytes) :
    Lenient (store r capacity written : Op σ Unit) :=
  Lenient.of_bindings (fun _ => rfl) fun _ => .ok _

private theorem lenient_write (p : Pointer) (data : Bytes) : Lenient (write p data : Op σ Unit) :=
  Lenient.of_bindings (fun _ => rfl) fun _ => .ok _

private theorem lenient_firstBytes (r : Range) (count : Nat) :
    Lenient (firstBytes r count : Op σ Bytes) :=
  Lenient.of_bindings (fun _ => rfl) fun _ => .ok _

private theorem lenient_note (gravity : Gravity) (text : String) :
    Lenient (note gravity text : Op σ Unit) :=
  Lenient.of_bindings (fun _ => rfl) fun _ => .ok _

private theorem lenient_newCell : Lenient (newCell : Op σ Nat) :=
  Lenient.of_bindings (fun _ => rfl) fun _ => .ok _

private theorem lenient_cell (index : Nat) : Lenient (cell index : Op σ Nat) :=
  Lenient.of_bindings (fun _ => rfl) fun _ => .ok _

private theorem lenient_setCell (index n : Nat) : Lenient (setCell index n : Op σ Unit) := by
  intro w hw
  unfold setCell
  rw [run_of]
  split
  · exact ⟨hw, .error nofun⟩
  · exact ⟨hw, .ok _⟩

private theorem lenient_scratch (size : Int) : Lenient (scratch size : Op σ Range) := by
  refine Lenient.bind (fun w hw => ?_) fun _ => Lenient.pure _
  have hfault := w.memory.faultless_allocate size
  unfold allocate
  rw [run_of]
  rcases hr : w.memory.allocate size with e | ⟨place, m⟩
  · rw [hr] at hfault
    exact ⟨hw, .error (hfault e rfl)⟩
  · exact ⟨hw, .ok _⟩

end Primitive

section Library

variable (hL : L.Reliable)
include hL

private theorem lenient_call (c : Call) (site : Site) : Lenient (Op.call L c site) := by
  intro w hw
  rcases hr : L.answer c w.libraries with ⟨e | reply, s⟩
  · rw [run_call_error hr]
    refine ⟨hw, .error fun h => ?_⟩
    have hgeneral := hL.refused c e _ s hr
    rw [h] at hgeneral
    exact absurd hgeneral (by decide)
  · rw [run_call_ok hr]
    exact ⟨hw, .ok _⟩

private theorem lenient_bind (a : Algorithm) : Lenient (Op.bind L a) := by
  intro w hw
  refine ⟨fun b e hb => ?_, ?_⟩
  · rcases settled_of_bind hb with hold | ⟨rfl, hnew⟩
    · exact hw b e hold
    · exact hL.unbound b e w.libraries hnew
  · cases hs : (w.bindings a).settled with
    | some outcome =>
      rw [run_bind_settled hs]
      cases outcome with
      | ok k => exact .ok k
      | error e => exact .error ((hw a e hs).kind_ne rfl nofun nofun)
    | none =>
      rw [run_bind_first hs]
      exact fun e he => (hL.unbound a e w.libraries he).kind_ne rfl nofun nofun

end Library

end Op

end Native

namespace Codec

open Native

/-- Whether a transfer compresses. -/
def Transfer.compresses : Transfer → Bool
  | .compress _ | .lz4Compress .. | .snappyCompress | .zstdCompress _ => true
  | _ => false

/-- Whether a query compresses, or asks for what compression needs. -/
def Query.compresses : Query → Bool
  | .lz4Bound _ | .snappyBound | .zstdBound => true
  | .lz4Compress .. | .snappyCompress | .zstdCompress _ => true
  | _ => false

variable {σ α : Type} {L : Libraries σ} (hL : L.Reliable)

namespace Lz4

private theorem faultless_checkInput (length : Int) : Faultless (checkInput length) :=
  .ite (.error nofun) (.ok _)

private theorem faultless_sizeHeader (size : Nat) : Faultless (sizeHeader size) :=
  .ite (.ok _) (.error nofun)

include hL

private theorem lenient_create (acceleration : Int) : Op.Lenient (create L acceleration) :=
  Op.Lenient.ite (Op.Lenient.throw_bind (by nofun) _)
    (Op.Lenient.bind (Op.lenient_bind hL _) fun _ => Op.Lenient.pure _)

private theorem lenient_bound (length : Int) : Op.Lenient (bound L length) := by
  refine Op.Lenient.bind (Op.Lenient.ofExcept (faultless_checkInput length)) fun _ => ?_
  exact Op.Lenient.bind (Op.lenient_bind hL _) fun _ => Op.lenient_call hL _ _

private theorem lenient_compressRange (c : Compressor) (src dst : Range) :
    Op.Lenient (compressRange L c src dst) := by
  unfold compressRange
  refine Op.Lenient.bind (Op.Lenient.ofExcept (faultless_checkInput _)) fun _ => ?_
  refine Op.Lenient.bind (Op.lenient_source _) fun source => ?_
  refine Op.Lenient.bind (Op.lenient_call hL _ _) fun reply => ?_
  refine Op.Lenient.bind (Op.lenient_store _ _ _) fun _ => Op.Lenient.ite (Op.Lenient.pure _) ?_
  refine Op.Lenient.bind (lenient_bound hL _) fun _ => ?_
  exact Op.Lenient.ite (Op.Lenient.throw_bind (by nofun) _) (Op.Lenient.throw (by nofun))

private theorem lenient_blockBound (input : Argument) (sized : Bool) :
    Op.Lenient (blockBound L input sized) := by
  refine Op.Lenient.bind (Op.lenient_input _) fun src => ?_
  refine Op.Lenient.bind (Op.Lenient.ofExcept src.faultless_count?) fun n => ?_
  exact Op.Lenient.bind (lenient_bound hL _) fun _ => Op.Lenient.pure _

private theorem lenient_compressBlockRange (src dst : Range) (acceleration : Option Int)
    (sized : Bool) :
    Op.Lenient (compressBlockRange L src dst acceleration sized) := by
  unfold compressBlockRange
  refine Op.Lenient.bind (lenient_create hL _) fun c => ?_
  refine Op.Lenient.ite (lenient_compressRange hL _ _ _) ?_
  refine Op.Lenient.bind (Op.Lenient.ofExcept dst.faultless_count?) fun room => ?_
  refine Op.Lenient.ite (Op.Lenient.throw_bind (by nofun) _) ?_
  refine Op.Lenient.bind (Op.Lenient.ofExcept (dst.faultless_slice? _ _)) fun body => ?_
  refine Op.Lenient.bind (lenient_compressRange hL _ _ _) fun n => ?_
  refine Op.Lenient.bind (Op.Lenient.ofExcept (faultless_sizeHeader _)) fun header => ?_
  exact Op.Lenient.bind (Op.lenient_write _ _) fun _ => Op.Lenient.pure _

private theorem lenient_compressBlock (input : Argument) (acceleration : Option Int)
    (sized : Bool) :
    Op.Lenient (compressBlock L input acceleration sized) := by
  refine Op.Lenient.bind (lenient_blockBound hL _ _) fun most => ?_
  refine Op.Lenient.bind (Op.lenient_scratch _) fun dst => ?_
  refine Op.Lenient.bind (Op.lenient_input _) fun src => ?_
  refine Op.Lenient.bind (lenient_compressBlockRange hL _ _ _ _) fun n => ?_
  exact Op.lenient_firstBytes _ _

end Lz4

namespace Snappy

private theorem Coder.lenient_leave (c : Coder) (reply : Counted) :
    Op.Lenient (c.leave reply : Op σ Unit) := by
  unfold leave
  split
  · exact Op.Lenient.pure _
  · exact Op.lenient_setCell _ _

include hL

private theorem lenient_create : Op.Lenient (create L) :=
  Op.Lenient.bind (Op.lenient_bind hL _) fun _ =>
    Op.Lenient.bind Op.lenient_newCell fun _ => Op.Lenient.pure _

private theorem lenient_bound (length : Int) : Op.Lenient (bound L length) :=
  Op.Lenient.bind (Op.lenient_bind hL _) fun _ => Op.lenient_call hL _ _

private theorem lenient_compressRange (c : Coder) (src dst : Range) :
    Op.Lenient (compressRange L c src dst) := by
  unfold compressRange
  refine Op.Lenient.bind (Op.lenient_source _) fun source => ?_
  refine Op.Lenient.bind (Op.lenient_setCell _ _) fun _ => ?_
  refine Op.Lenient.bind (Op.lenient_cell _) fun capacity => ?_
  refine Op.Lenient.bind (Op.lenient_call hL _ _) fun reply => ?_
  refine Op.Lenient.bind (Op.lenient_store _ _ _) fun _ => ?_
  refine Op.Lenient.bind (c.lenient_leave _) fun _ => Op.Lenient.ite ?_ ?_
  · exact Op.Lenient.bind (lenient_bound hL _) fun _ => Op.Lenient.throw_bind (by nofun) _
  · exact Op.Lenient.ite (Op.Lenient.throw_bind (by nofun) _) (Op.lenient_cell _)

private theorem lenient_compress (c : Coder) (input output : Argument) :
    Op.Lenient (compress L c input output) :=
  Op.Lenient.ranges (lenient_compressRange hL c) _ _

private theorem lenient_rawBound (input : Argument) : Op.Lenient (rawBound L input) := by
  refine Op.Lenient.bind (Op.lenient_input _) fun src => ?_
  exact Op.Lenient.bind (Op.Lenient.ofExcept src.faultless_count?) fun n => lenient_bound hL _

private theorem lenient_compressRaw (input : Argument) : Op.Lenient (compressRaw L input) := by
  refine Op.Lenient.bind (Op.lenient_input _) fun src => ?_
  refine Op.Lenient.bind (Op.Lenient.ofExcept src.faultless_count?) fun n => ?_
  refine Op.Lenient.bind (lenient_bound hL _) fun most => ?_
  refine Op.Lenient.bind (Op.lenient_scratch _) fun dst => ?_
  refine Op.Lenient.bind (lenient_create hL) fun c => ?_
  exact Op.Lenient.bind (lenient_compressRange hL _ _ _) fun n => Op.lenient_firstBytes _ _

end Snappy

namespace Zstd

private theorem kind_failure_ne (operation : String) (code : Nat) (name : String) :
    (failure operation code name false).kind ≠ .malformedInput := by
  intro h
  have hclassed := classed_failure operation false code fun _ => name
  exact absurd (hclassed.input.mp h).1 (by simp)

private theorem lenient_sized (operation : String) (word : Nat) :
    Op.Lenient (sized L operation word false) := by
  refine Op.Lenient.ite (Op.Lenient.bind ?_ fun _ => Op.Lenient.pure _) (Op.Lenient.pure _)
  exact Op.Lenient.bind (Op.lenient_note _ _) fun _ => Op.Lenient.throw (kind_failure_ne _ _ _)

include hL

private theorem lenient_bound (length : Int) : Op.Lenient (bound L length) :=
  Op.Lenient.bind (Op.lenient_call hL _ _) fun word => lenient_sized _ word

private theorem lenient_acquire (d : Direction) : Op.Lenient (acquire L d) :=
  Op.Lenient.bind (Op.lenient_call hL _ _) fun handle =>
    Op.Lenient.ofExcept (Context.faultless_create _ handle)

private theorem lenient_free (d : Direction) (handle : Nat) : Op.Lenient (free L d handle) :=
  Op.lenient_call hL _ _

private theorem lenient_within (d : Direction) (own : Option Context) {body : Nat → Op σ α}
    (hbody : ∀ handle, Op.Lenient (body handle)) : Op.Lenient (within L d own body) := by
  cases own with
  | none =>
    refine Op.Lenient.bind (lenient_acquire hL d) fun c => ?_
    exact Op.Lenient.ensuring (hbody c.handle) (lenient_free hL _ _)
  | some c => exact Op.Lenient.bind (Op.Lenient.ofExcept c.faultless_use) hbody

private theorem lenient_compressRange (context : Nat) (src dst : Range) (level : Int) :
    Op.Lenient (compressRange L context src dst level) := by
  refine Op.Lenient.bind (Op.lenient_source _) fun source => ?_
  refine Op.Lenient.bind (Op.lenient_call hL _ _) fun reply => ?_
  exact Op.Lenient.bind (Op.lenient_store _ _ _) fun _ => lenient_sized _ _

private theorem Compressor.lenient_compress (c : Compressor) (input output : Argument) :
    Op.Lenient (c.compress L input output) :=
  Op.Lenient.ranges (fun src dst => lenient_within hL _ _ fun handle =>
    lenient_compressRange hL handle src dst c.level) _ _

private theorem Compressor.lenient_create (level : Option Int) (own : Bool) :
    Op.Lenient (Compressor.create L level own) := by
  unfold Compressor.create ownContext
  refine Op.Lenient.bind (Op.lenient_bind hL _) fun constants => ?_
  refine Op.Lenient.ite (Op.Lenient.throw_bind (by nofun) _) ?_
  refine Op.Lenient.bind (Op.Lenient.ite ?_ (Op.Lenient.pure _)) fun _ => Op.Lenient.pure _
  exact Op.Lenient.bind (lenient_acquire hL _) fun _ => Op.Lenient.pure _

private theorem lenient_release (d : Direction) (c : Context) : Op.Lenient (release L d c) := by
  unfold release
  split
  · exact Op.Lenient.pure _
  · exact Op.Lenient.bind (lenient_free hL _ _) fun _ => Op.Lenient.pure _

private theorem Compressor.lenient_close (c : Compressor) : Op.Lenient (c.close L) := by
  refine Op.Lenient.bind ?_ fun _ => Op.Lenient.pure _
  obtain ⟨level, _ | own⟩ := c
  · exact Op.Lenient.pure _
  · exact Op.Lenient.map _ (lenient_release hL _ own)

private theorem lenient_withCompressor (level : Option Int) {body : Compressor → Op σ α}
    (hbody : ∀ c, Op.Lenient (body c)) : Op.Lenient (withCompressor L level body) := by
  refine Op.Lenient.bind (Compressor.lenient_create hL level true) fun c => ?_
  exact Op.Lenient.ensuring (hbody c) (c.lenient_close hL).discard

private theorem lenient_boundOf (input : Argument) : Op.Lenient (boundOf L input) := by
  refine Op.Lenient.bind (Op.lenient_bind hL _) fun _ => ?_
  refine Op.Lenient.bind (Op.lenient_input _) fun src => ?_
  exact Op.Lenient.bind (Op.Lenient.ofExcept src.faultless_count?) fun n => lenient_bound hL _

private theorem lenient_compress (input : Argument) (level : Option Int) :
    Op.Lenient (compress L input level) := by
  refine Op.Lenient.bind (Op.lenient_input _) fun src => ?_
  refine lenient_withCompressor hL level fun c => ?_
  refine Op.Lenient.bind (Op.Lenient.ofExcept src.faultless_count?) fun n => ?_
  refine Op.Lenient.bind (lenient_bound hL _) fun most => ?_
  refine Op.Lenient.bind (Op.lenient_scratch _) fun dst => ?_
  exact Op.Lenient.bind (c.lenient_compress hL _ _) fun n => Op.lenient_firstBytes _ _

end Zstd

include hL

private theorem Facade.lenient_compress (f : Facade) (input output : Argument) :
    Op.Lenient (f.compress L input output) := by
  cases f with
  | lz4Compressor c => exact Op.Lenient.ranges (Lz4.lenient_compressRange hL c) _ _
  | snappyCompressor c => exact Op.Lenient.map _ (Snappy.lenient_compress hL c _ _)
  | zstdCompressor c => exact Op.Lenient.map _ (c.lenient_compress hL _ _)
  | _ => exact Op.Lenient.throw (by nofun)

theorem Transfer.lenient {t : Transfer} (ht : t.compresses = true) (input output : Argument) :
    Op.Lenient (t.op L input output) := by
  cases t with
  | compress f => exact Facade.lenient_compress hL f input output
  | lz4Compress acceleration sized =>
    exact Op.Lenient.ranges (fun src dst =>
      Lz4.lenient_compressBlockRange hL src dst acceleration sized) _ _
  | snappyCompress =>
    exact Op.Lenient.bind (Snappy.lenient_create hL) fun c =>
      Op.Lenient.map _ (Snappy.lenient_compress hL c _ _)
  | zstdCompress level =>
    exact Op.Lenient.map _ (Zstd.lenient_withCompressor hL level fun c =>
      c.lenient_compress hL input output)
  | _ => exact absurd ht (by simp [compresses])

theorem Query.lenient {q : Query} (hq : q.compresses = true) (input : Argument) :
    Op.Lenient (q.op L input) := by
  cases q with
  | lz4Bound sized => exact Op.Lenient.map _ (Lz4.lenient_blockBound hL input sized)
  | snappyBound => exact Op.Lenient.map _ (Snappy.lenient_rawBound hL input)
  | zstdBound => exact Op.Lenient.map _ (Zstd.lenient_boundOf hL input)
  | lz4Compress acceleration sized =>
    exact Op.Lenient.map _ (Lz4.lenient_compressBlock hL input acceleration sized)
  | snappyCompress => exact Op.Lenient.map _ (Snappy.lenient_compressRaw hL input)
  | zstdCompress level => exact Op.Lenient.map _ (Zstd.lenient_compress hL input level)
  | _ => exact absurd hq (by simp [compresses])

end Codec

end NativeCodec
