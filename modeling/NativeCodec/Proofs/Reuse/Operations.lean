import NativeCodec.Codec.Facade
import NativeCodec.Proofs.Reuse.Abreast

set_option autoImplicit false
set_option relaxedAutoImplicit false

namespace NativeCodec.Codec

open Native

variable {σ : Type} {R : Runs σ} {X : Links σ} {k k' : Constants}

namespace Lz4

section Bound

variable {τ : Type} {content : σ → Nat → Option τ} (hL : R.library.Impartial R.sound content)
  (hb : (R.here.bindings .lz4).settled = some (.ok k))
  (hb' : (R.there.bindings .lz4).settled = some (.ok k'))

include hL hb hb'

theorem even_bound (length : Int) :
    Op.Even R X (bound R.library length) (bound R.library length) := by
  refine Op.Even.outcome fun _ => Op.Even.bound hb hb' ?_
  exact (Op.even_call hL (c := .lz4Bound length) {} rfl trivial).known

theorem even_compressRange (c : Compressor) (src dst : Range) :
    Op.Even R X (compressRange R.library c src dst) (compressRange R.library c src dst) := by
  refine Op.Even.known (Op.Even.outcome fun _ => Op.Even.source src fun source => ?_)
  refine Op.Even.call hL rfl trivial unknown_ofCells fun reply => ?_
  refine Op.Even.store unknown_ofCells dst (Op.Even.ite (Op.Even.pure _) ?_)
  refine Op.Even.bind (even_bound hL hb hb' _) fun most => ?_
  exact Op.Even.ite (Op.Even.throw_bind _ _ _) (Op.Even.throw _)

omit hb hb' in
theorem even_decompressRange (src dst : Range) :
    Op.Even R X (decompressRange R.library src dst) (decompressRange R.library src dst) := by
  refine Op.Even.known (Op.Even.ite (Op.Even.throw_bind _ _ _) ?_)
  refine Op.Even.source src fun source => ?_
  refine Op.Even.call hL rfl trivial unknown_ofCells fun reply => ?_
  refine Op.Even.store unknown_ofCells dst (Op.Even.ite (Op.Even.pure _) ?_)
  refine Op.Even.bytes src fun block => ?_
  exact Op.Even.bind (Op.even_note _ _) fun _ => Op.Even.throw _

end Bound

end Lz4

namespace Snappy

variable {τ : Type} {content : σ → Nat → Option τ} (hL : R.library.Impartial R.sound content)

include hL

theorem even_validateRange (src : Range) :
    Op.Even R X (validateRange R.library src) (validateRange R.library src) := by
  refine Op.Even.known (Op.Even.source src fun source => ?_)
  exact Op.Even.call hL rfl trivial unknown_ofCells fun status => Op.Even.pure _

theorem even_bound (hb : (R.here.bindings .snappy).settled = some (.ok k))
    (hb' : (R.there.bindings .snappy).settled = some (.ok k')) (length : Int) :
    Op.Even R X (bound R.library length) (bound R.library length) :=
  Op.Even.bound hb hb' (Op.even_call hL (c := .snappyBound length) {} rfl trivial).known

variable {c c' : Coder} (hc : c.cell < R.here.cells.length) (hc' : c'.cell < R.there.cells.length)

include hc hc'

omit hL in
private theorem Coder.even_leave {α : Type} {reply : Counted} {n : Nat} {f g : Unit → Op σ α}
    (hf : ∀ m, Op.Even R (bothHold c.cell c'.cell m) (f ()) (g ())) :
    Op.Even R (bothHold c.cell c'.cell n) (c.leave reply >>= f) (c'.leave reply >>= g) := by
  unfold leave
  cases reply.cell with
  | none => exact hf n
  | some m => exact Op.Even.setCell hc hc' (hf m)

theorem even_lengthOfRange (src : Range) :
    Op.Even R X (lengthOfRange R.library c src) (lengthOfRange R.library c' src) := by
  refine Op.Even.source src fun source => ?_
  refine Op.Even.setCell hc hc' (Op.Even.cell ?_)
  refine Op.Even.call hL rfl rfl (bothHold_ofCells _ _ _) fun reply => ?_
  refine Coder.even_leave hc hc' fun m => ?_
  refine Op.Even.ite (Op.Even.throw_bind _ _ _) ?_
  exact Op.Even.ite (Op.Even.throw_bind _ _ _) Op.even_cell

theorem even_decompressRange (src dst : Range) :
    Op.Even R X (decompressRange R.library c src dst) (decompressRange R.library c' src dst) := by
  refine Op.Even.source src fun source => ?_
  refine Op.Even.setCell hc hc' (Op.Even.cell ?_)
  refine Op.Even.call hL rfl rfl (bothHold_ofCells _ _ _) fun reply => ?_
  refine Op.Even.store (bothHold_ofCells _ _ _) dst (Coder.even_leave hc hc' fun m => ?_)
  refine Op.Even.ite (Op.Even.throw_bind _ _ _) (Op.Even.ite (Op.Even.throw_bind _ _ _) ?_)
  exact Op.Even.ite (Op.Even.throw_bind _ _ _) Op.even_cell

theorem even_compressRange (hb : (R.here.bindings .snappy).settled = some (.ok k))
    (hb' : (R.there.bindings .snappy).settled = some (.ok k')) (src dst : Range) :
    Op.Even R X (compressRange R.library c src dst) (compressRange R.library c' src dst) := by
  refine Op.Even.source src fun source => ?_
  refine Op.Even.setCell hc hc' (Op.Even.cell ?_)
  refine Op.Even.call hL rfl rfl (bothHold_ofCells _ _ _) fun reply => ?_
  refine Op.Even.store (bothHold_ofCells _ _ _) dst (Coder.even_leave hc hc' fun m => ?_)
  refine Op.Even.ite ?_ (Op.Even.ite (Op.Even.throw_bind _ _ _) Op.even_cell)
  exact Op.Even.bind (even_bound hL hb hb' _) fun _ => Op.Even.throw_bind _ _ _

end Snappy

namespace Zstd

variable {τ : Type} {content : σ → Nat → Option τ} (hL : R.library.Impartial R.sound content)

private theorem even_fail {α : Type} (operation : String) (word : Nat) (decoding : Bool) :
    Op.Even R X (fail R.library operation word decoding : Op σ α)
      (fail R.library operation word decoding) :=
  Op.Even.bind (Op.even_note _ _) fun _ => Op.Even.throw _

private theorem even_sized (operation : String) (word : Nat) (decoding : Bool) :
    Op.Even R X (sized R.library operation word decoding)
      (sized R.library operation word decoding) :=
  Op.Even.ite (Op.Even.bind (even_fail _ _ _) fun _ => Op.Even.pure _) (Op.Even.pure _)

include hL

theorem even_bound (length : Int) :
    Op.Even R X (bound R.library length) (bound R.library length) :=
  Op.Even.bind (Op.even_call hL (c := .zstdBound length) {} rfl trivial).known fun _ =>
    even_sized _ _ _

theorem even_compressRange (context context' : Nat) (src dst : Range) (level : Int) :
    Op.Even R X (compressRange R.library context src dst level)
      (compressRange R.library context' src dst level) := by
  refine Op.Even.known (Op.Even.source src fun source => ?_)
  refine Op.Even.compress hL context context' fun reply => ?_
  exact Op.Even.store unknown_ofCells dst (even_sized _ _ _)

theorem even_decompressRange (context context' : Nat) (src dst : Range) :
    Op.Even R X (decompressRange R.library context src dst)
      (decompressRange R.library context' src dst) := by
  refine Op.Even.known (Op.Even.source src fun source => ?_)
  refine Op.Even.decompress hL context context' fun reply => ?_
  exact Op.Even.store unknown_ofCells dst (even_sized _ _ _)

private theorem even_probeFrom (source : Source) (start : Pointer) (patience position total : Nat) :
    Op.Even R unknown (probeFrom R.library source start patience position total)
      (probeFrom R.library source start patience position total) := by
  induction patience generalizing position total with
  | zero => exact Op.Even.throw _
  | succ patience ih =>
    refine Op.Even.call hL rfl trivial unknown_ofCells fun (content : Nat) => ?_
    refine Op.Even.ite (Op.Even.pure _) (Op.Even.ite (Op.Even.throw_bind _ _ _) ?_)
    refine Op.Even.call hL rfl trivial unknown_ofCells fun word => ?_
    refine Op.Even.bind (even_sized _ _ _) fun extent => ?_
    exact Op.Even.ite (Op.Even.pure _) (ih _ _)

theorem even_lengthOfRange (src : Range) :
    Op.Even R X (lengthOfRange R.library src) (lengthOfRange R.library src) :=
  Op.Even.known (Op.Even.source src fun source => even_probeFrom hL source _ _ _ _)

private theorem even_free (d : Direction) (handle handle' : Nat) :
    Op.Even R X (free R.library d handle) (free R.library d handle') := by
  intro w w' hw _
  have hsound := hL.sound_answer (.freeContext d handle) _ rfl hw.steady.libraries
  have hsound' := hL.sound_answer (.freeContext d handle') _ rfl hw.steady'.libraries
  obtain ⟨s, hs⟩ := hL.free d handle w.libraries
  obtain ⟨s', hs'⟩ := hL.free d handle' w'.libraries
  rw [hs] at hsound
  rw [hs'] at hsound'
  have hrun : (free R.library d handle).run w = _ := Op.run_call_ok hs
  have hrun' : (free R.library d handle').run w' = _ := Op.run_call_ok hs'
  rw [hrun, hrun']
  exact ⟨rfl, (hw.refused hsound hsound').event rfl trivial⟩

omit hL in
theorem run_acquire_eq (L : Libraries σ) (d : Direction) (w : World σ) :
    (acquire L d).run w =
      match L.answer (.createContext d) w.libraries with
      | (.error e, s) => (.error e, { w with libraries := s })
      | (.ok reply, s) => (Context.create d.contextName reply,
          { w with libraries := s, events := .called (.createContext d) {} reply :: w.events }) := by
  unfold acquire
  rcases hr : L.answer (.createContext d) w.libraries with ⟨e | reply, s⟩
  · rw [Op.run_bind_error (Op.run_call_error hr)]
  · rw [Op.run_bind_ok (Op.run_call_ok hr)]
    rfl

/-- Something is done in a new context of either run, and the two hold the same at first. -/
theorem even_withContext {α : Type} {x y : Nat → Op σ α} (d : Direction)
    (hx : ∀ handle handle', Op.Even R (bothKeep content handle handle') (x handle) (y handle')) :
    Op.Even R X (withContext R.library d x) (withContext R.library d y) := by
  intro w w' hw _
  have hsound := hL.sound_answer (.createContext d) _ rfl hw.steady.libraries
  have hsound' := hL.sound_answer (.createContext d) _ rfl hw.steady'.libraries
  have hcreate := hL.create d _ _ hw.steady.libraries hw.steady'.libraries
  have hrun := run_acquire_eq R.library d w
  have hrun' := run_acquire_eq R.library d w'
  rcases hr : R.library.answer (.createContext d) w.libraries with ⟨o, s⟩
  rcases hr' : R.library.answer (.createContext d) w'.libraries with ⟨o', s'⟩
  rw [hr] at hsound hcreate hrun
  rw [hr'] at hsound' hcreate hrun'
  unfold withContext
  cases hcreate with
  | refused e =>
    rw [Op.run_bind_error hrun, Op.run_bind_error hrun']
    exact ⟨rfl, hw.refused hsound hsound'⟩
  | missing =>
    rw [Op.run_bind_error hrun, Op.run_bind_error hrun']
    exact ⟨rfl, (hw.refused hsound hsound').event rfl trivial⟩
  | @created _ _ handle handle' h =>
    rw [Op.run_bind_ok hrun, Op.run_bind_ok hrun']
    exact Op.Even.ensuring (hx handle handle') (even_free hL d handle handle') _ _
      ((hw.refused hsound hsound').event rfl trivial) h

private theorem even_drainFrom (context context' room : Nat) (source : Source) (site : Site)
    (patience consumed : Nat) :
    Op.Even R (bothKeep content context context')
      (drainFrom R.library context room source site patience consumed)
      (drainFrom R.library context' room source site patience consumed) := by
  induction patience generalizing consumed with
  | zero => exact Op.Even.throw _
  | succ patience ih =>
    intro w w' hw hlink
    have hstream := hL.stream context context' room 0 source consumed _ _ hw.steady.libraries
      hw.steady'.libraries hlink
    rcases hr : R.library.answer (.zstdStream context room 0 source consumed) w.libraries with
      ⟨o, s⟩
    rcases hr' : R.library.answer (.zstdStream context' room 0 source consumed) w'.libraries with
      ⟨o', s'⟩
    rw [hr, hr'] at hstream
    obtain ⟨hsame, hsound, hsound', hcontent⟩ := hstream
    cases hsame
    unfold drainFrom
    cases o with
    | error e =>
      rw [Op.run_bind_error (α := Advanced) (Op.run_call_error hr),
        Op.run_bind_error (α := Advanced) (Op.run_call_error hr')]
      exact ⟨rfl, hw.refused hsound hsound'⟩
    | ok reply =>
      rw [Op.run_bind_ok (α := Advanced) (Op.run_call_ok hr),
        Op.run_bind_ok (α := Advanced) (Op.run_call_ok hr')]
      refine Op.Even.ite (X := bothKeep content context context') ?_ ?_ _ _
        ((hw.refused hsound hsound').event rfl trivial) hcontent
      · exact Op.Even.ite (Op.Even.bind (even_fail _ _ _) fun _ => Op.Even.pure _)
          (Op.Even.pure _)
      · exact Op.Even.ite (Op.Even.pure _) (Op.Even.ite (Op.Even.pure _) (ih _))

theorem even_validateRange (src : Range) :
    Op.Even R X (validateRange R.library src) (validateRange R.library src) := by
  refine Op.Even.known (Op.Even.ite (Op.Even.pure _) ?_)
  refine Op.Even.call hL rfl trivial unknown_ofCells fun room => ?_
  refine Op.Even.look (fun m => m.checkSize (show Nat from room)) (fun _ => rfl) fun _ => ?_
  refine even_withContext hL .decompression fun context context' => ?_
  refine Op.Even.source src fun source => ?_
  exact Op.Even.ite (Op.Even.throw_bind _ _ _) (even_drainFrom hL _ _ _ _ _ _ _)

end Zstd

end NativeCodec.Codec
