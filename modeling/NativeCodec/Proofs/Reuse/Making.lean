import NativeCodec.Proofs.Once
import NativeCodec.Proofs.Reuse.Codecs

set_option autoImplicit false
set_option relaxedAutoImplicit false

namespace NativeCodec

namespace Native

variable {σ τ α β : Type}

/-- A world after another: it stands as it should, and nothing that was there is gone. -/
structure Onward (L : Libraries σ) (sound : σ → Prop) (w v : World σ) : Prop where
  steady : Steady L sound v
  since : Since w v

inductive Lands (Q : α → α → Prop) : Except Error α → Except Error α → Prop
  | ok {a b : α} (h : Q a b) : Lands Q (.ok a) (.ok b)
  | error (e e' : Error) : Lands Q (.error e) (.error e')

private theorem Lands.mono {Q Q' : α → α → Prop} {o o' : Except Error α} (h : Lands Q o o')
    (hq : ∀ a b, Q a b → Q' a b) : Lands Q' o o' := by
  cases h with
  | ok h => exact .ok (hq _ _ h)
  | error e e' => exact .error e e'

def bothBound (a : Algorithm) : Links σ := fun w w' =>
  (∃ k, (w.bindings a).settled = some (.ok k)) ∧ ∃ k, (w'.bindings a).settled = some (.ok k)

/-- What is known of two worlds stays so as they go on. -/
def Links.Lasting (X : Links σ) : Prop :=
  ∀ w w' v v', Since w v → Since w' v' → X w w' → X v v'

private theorem bothBound_lasting (a : Algorithm) : (bothBound a : Links σ).Lasting := by
  rintro w w' v v' hv hv' ⟨⟨k, hk⟩, k', hk'⟩
  exact ⟨⟨k, hv.settled _ _ hk⟩, k', hv'.settled _ _ hk'⟩

namespace Op

/-- From worlds that stand as they should, two operations both come to values, which are related, or
both to errors. -/
def Paired (L : Libraries σ) (sound : σ → Prop) (X : Links σ) (x y : Op σ α)
    (Q : α → α → Links σ) : Prop :=
  ∀ w w', Steady L sound w → Steady L sound w' → X w w' →
    Onward L sound w (x.run w).2 ∧ Onward L sound w' (y.run w').2 ∧
      Lands (fun a b => Q a b (x.run w).2 (y.run w').2) (x.run w).1 (y.run w').1

section Rules

variable {L : Libraries σ} {sound : σ → Prop} {X : Links σ} {x y : Op σ α} {Q : α → α → Links σ}

private theorem Onward.refl {w : World σ} (h : Steady L sound w) :
    Onward L sound w w := ⟨h, Since.refl w⟩

private theorem Paired.bind {S : α → α → Links σ} {Q : β → β → Links σ} {f g : α → Op σ β}
    (hx : Paired L sound X x y S) (hf : ∀ a b, Paired L sound (S a b) (f a) (g b) Q) :
    Paired L sound X (x >>= f) (y >>= g) Q := by
  intro w w' hw hw' hX
  obtain ⟨hv, hv', hlands⟩ := hx w w' hw hw' hX
  rw [run_bind, run_bind]
  rcases hr : x.run w with ⟨o, v⟩
  rcases hr' : y.run w' with ⟨o', v'⟩
  rw [hr] at hv hlands
  rw [hr'] at hv' hlands
  cases hlands with
  | error e e' => exact ⟨hv, hv', .error e e'⟩
  | ok h =>
    obtain ⟨hz, hz', hend⟩ := hf _ _ v v' hv.steady hv'.steady h
    exact ⟨⟨hz.steady, hv.since.trans hz.since⟩, ⟨hz'.steady, hv'.since.trans hz'.since⟩, hend⟩

private theorem Paired.mono {S : α → α → Links σ} (hx : Paired L sound X x y S)
    (h : ∀ a b w w', S a b w w' → Q a b w w') : Paired L sound X x y Q := by
  intro w w' hw hw' hX
  obtain ⟨hv, hv', hlands⟩ := hx w w' hw hw' hX
  exact ⟨hv, hv', hlands.mono fun a b => h a b _ _⟩

private theorem Paired.pure {a b : α} (h : ∀ w w', X w w' → Q a b w w') :
    Paired L sound X (Pure.pure a) (Pure.pure b) Q :=
  fun _ _ hw hw' hX => ⟨Onward.refl hw, Onward.refl hw', .ok (h _ _ hX)⟩

private theorem Paired.map {Q : β → β → Links σ} (g : α → β)
    (hx : Paired L sound X x y fun a b => Q (g a) (g b)) :
    Paired L sound X (g <$> x) (g <$> y) Q :=
  Paired.bind hx fun _ _ => Paired.pure fun _ _ => id

private theorem Paired.throw_bind (e : Error) (f g : β → Op σ α) :
    Paired L sound X ((MonadExcept.throw e : Op σ β) >>= f) (MonadExcept.throw e >>= g) Q := by
  intro w w' hw hw' _
  rw [run_bind_error (run_throw e w), run_bind_error (run_throw e w')]
  exact ⟨Onward.refl hw, Onward.refl hw', .error e e⟩

private theorem Paired.ite {c : Prop} [Decidable c] {x' y' : Op σ α} (hx : Paired L sound X x y Q)
    (hy : Paired L sound X x' y' Q) :
    Paired L sound X (if c then x else x') (if c then y else y') Q := by
  split
  · exact hx
  · exact hy

private theorem Paired.outcome {o : Except Error β} {f g : β → Op σ α}
    (hf : ∀ b, Paired L sound X (f b) (g b) Q) :
    Paired L sound X (Op.ofExcept o >>= f) (Op.ofExcept o >>= g) Q := by
  cases o with
  | error e => exact Paired.throw_bind e f g
  | ok b => exact hf b

private theorem Paired.newCell (hX : X.Lasting) :
    Paired L sound X newCell newCell fun i i' w w' =>
      X w w' ∧ i < w.cells.length ∧ i' < w'.cells.length := by
  have hgrow {cells : List Nat} : cells.length < (cells ++ [0]).length := by simp
  have hafter {w : World σ} (hw : Steady L sound w) :
      Onward L sound w { w with cells := w.cells ++ [0] } :=
    ⟨⟨hw.libraries, hw.genuine⟩, ⟨fun _ _ => id, Nat.le_of_lt hgrow⟩⟩
  intro w w' hw hw' hlink
  exact ⟨hafter hw, hafter hw',
    .ok ⟨hX w w' _ _ (hafter hw).since (hafter hw').since hlink, hgrow, hgrow⟩⟩

variable {content : σ → Nat → Option τ} (hL : L.Impartial sound content)

include hL

private theorem onward_bind (a : Algorithm) {w : World σ} (hw : Steady L sound w) :
    Onward L sound w ((Op.bind L a).run w).2 := by
  have hstate : sound ((Op.bind L a).run w).2.libraries ∧
      ((Op.bind L a).run w).2.cells = w.cells := by
    cases hs : (w.bindings a).settled with
    | some outcome =>
      rw [run_bind_settled hs]
      exact ⟨hw.libraries, rfl⟩
    | none =>
      rw [run_bind_first hs]
      exact ⟨hL.sound_bind a _ hw.libraries, rfl⟩
  refine ⟨⟨hstate.1, ?_⟩, ⟨fun b outcome h => Codec.settled_bind h a, ?_⟩⟩
  · intro b outcome h s hsound
    rcases settled_of_bind h with hold | ⟨rfl, hnew⟩
    · exact hw.genuine b outcome hold s hsound
    · exact (hL.bind b w.libraries s hw.libraries hsound).trans hnew
  · exact Nat.le_of_eq (by rw [hstate.2])

omit hL in
private theorem lands_bind (a : Algorithm) {w : World σ} (hw : Steady L sound w) :
    Lands (fun k k' => k' = k ∧ (((Op.bind L a).run w).2.bindings a).settled = some (.ok k))
      (L.bind a w.libraries).1.outcome ((Op.bind L a).run w).1 := by
  cases hs : (w.bindings a).settled with
  | some outcome =>
    have hgenuine := hw.genuine a outcome hs w.libraries hw.libraries
    rw [run_bind_settled hs, hgenuine]
    cases outcome with
    | error e => exact .error _ _
    | ok k => exact .ok ⟨rfl, hs⟩
  | none =>
    rw [run_bind_first hs]
    cases ho : (L.bind a w.libraries).1.outcome with
    | error e => exact .error _ _
    | ok k =>
      refine .ok ⟨rfl, ?_⟩
      dsimp only
      rw [if_pos rfl]
      unfold Once.keep
      rw [hs]
      rfl

private theorem Paired.library (a : Algorithm) {f g : Constants → Op σ α}
    (hf : ∀ k, Paired L sound (bothBound a) (f k) (g k) Q) :
    Paired L sound X (Op.bind L a >>= f) (Op.bind L a >>= g) Q := by
  refine Paired.bind (S := fun k k' w w' => k' = k ∧ bothBound a w w') ?_ ?_
  · intro w w' hw hw' _
    have hv := onward_bind hL a hw
    have hv' := onward_bind hL a hw'
    have hlands := lands_bind a hw
    have hlands' := lands_bind a hw'
    rw [hL.bind a w.libraries w'.libraries hw.libraries hw'.libraries] at hlands'
    refine ⟨hv, hv', ?_⟩
    generalize (L.bind a w.libraries).1.outcome = o at hlands hlands'
    generalize ((Op.bind L a).run w).1 = r at hlands ⊢
    generalize ((Op.bind L a).run w').1 = r' at hlands' ⊢
    cases hlands with
    | error e e' =>
      cases hlands' with
      | error e e'' => exact .error e' e''
    | ok h =>
      cases hlands' with
      | ok h' => exact .ok ⟨h'.1.trans h.1.symm, ⟨_, h.2⟩, _, h'.2⟩
  · rintro k k' w w' hw hw' ⟨rfl, hbound⟩
    exact hf k' w w' hw hw' hbound

end Rules

end Op

end Native

namespace Codec

open Native

variable {σ τ : Type} {L : Libraries σ} {sound : σ → Prop} {content : σ → Nat → Option τ}
  (hL : L.Impartial sound content) {X : Links σ}

include hL

private theorem Lz4.paired_create (acceleration : Int) :
    Op.Paired L sound X (create L acceleration) (create L acceleration) fun c c' w w' =>
      bothBound .lz4 w w' ∧ c' = c := by
  refine Op.Paired.ite (Op.Paired.throw_bind _ _ _) ?_
  exact Op.Paired.library hL .lz4 fun k => Op.Paired.pure fun w w' hb => ⟨hb, rfl⟩

private theorem Snappy.paired_create :
    Op.Paired L sound X (create L) (create L) fun c c' w w' =>
      bothBound .snappy w w' ∧ c.cell < w.cells.length ∧ c'.cell < w'.cells.length := by
  refine Op.Paired.library hL .snappy fun k => ?_
  refine Op.Paired.bind (Op.Paired.newCell (bothBound_lasting .snappy)) fun i i' => ?_
  exact Op.Paired.pure fun w w' h => h

namespace Zstd

private theorem paired_acquire (hX : X.Lasting) (d : Direction) :
    Op.Paired L sound X (acquire L d) (acquire L d) fun c c' w w' =>
      X w w' ∧ c'.blank = c.blank := by
  intro w w' hw hw' hlink
  have hsound := hL.sound_answer (.createContext d) _ rfl hw.libraries
  have hsound' := hL.sound_answer (.createContext d) _ rfl hw'.libraries
  have hcreate := hL.create d _ _ hw.libraries hw'.libraries
  have hafter {v : World σ} (hv : Steady L sound v) {s : σ} (hs : sound s) (events : List Event) :
      Onward L sound v { v with libraries := s, events } :=
    ⟨⟨hs, hv.genuine⟩, ⟨fun _ _ => id, Nat.le_refl _⟩⟩
  rw [run_acquire_eq, run_acquire_eq]
  generalize L.answer (.createContext d) w.libraries = r at hsound hcreate ⊢
  generalize L.answer (.createContext d) w'.libraries = r' at hsound' hcreate ⊢
  cases hcreate with
  | refused e => exact ⟨hafter hw hsound _, hafter hw' hsound' _, .error e e⟩
  | missing => exact ⟨hafter hw hsound _, hafter hw' hsound' _, .error _ _⟩
  | created =>
    refine ⟨hafter hw hsound _, hafter hw' hsound' _, .ok ⟨?_, rfl⟩⟩
    exact hX w w' _ _ (hafter hw hsound _).since (hafter hw' hsound' _).since hlink

private theorem paired_ownContext (hX : X.Lasting) (d : Direction) (own : Bool) :
    Op.Paired L sound X (ownContext L d own) (ownContext L d own) fun own own' w w' =>
      X w w' ∧ own'.map Context.blank = own.map Context.blank := by
  refine Op.Paired.ite ?_ (Op.Paired.pure fun _ _ h => ⟨h, rfl⟩)
  refine Op.Paired.bind (paired_acquire hL hX d) fun c c' => ?_
  exact Op.Paired.pure fun _ _ h => ⟨h.1, congrArg some h.2⟩

private theorem Compressor.paired_create (level : Option Int) (own : Bool) :
    Op.Paired L sound X (create L level own) (create L level own) fun c c' w w' =>
      bothBound .zstd w w' ∧ c'.level = c.level ∧
        c'.context.map Context.blank = c.context.map Context.blank := by
  refine Op.Paired.library hL .zstd fun k => Op.Paired.ite (Op.Paired.throw_bind _ _ _) ?_
  refine Op.Paired.bind (paired_ownContext hL (bothBound_lasting .zstd) _ own) fun own own' => ?_
  exact Op.Paired.pure fun w w' h => ⟨h.1, rfl, h.2⟩

private theorem Decompressor.paired_create (own : Bool) :
    Op.Paired L sound X (create L own) (create L own) fun d d' w w' =>
      bothBound .zstd w w' ∧ d'.context.map Context.blank = d.context.map Context.blank := by
  refine Op.Paired.library hL .zstd fun k => ?_
  refine Op.Paired.bind (paired_ownContext hL (bothBound_lasting .zstd) _ own) fun own own' => ?_
  exact Op.Paired.pure fun w w' h => h

end Zstd

namespace Facade

def bothReady (f f' : Facade) : Links σ := fun w w' =>
  f'.blank = f.blank ∧ f.Ready w ∧ f'.Ready w'

omit hL in
private theorem bothReady_of_bound {f f' : Facade} {a : Algorithm} {w w' : World σ}
    (hb : bothBound a w w') (hblank : f'.blank = f.blank) (ha : f.algorithm = a)
    (hc : f.cell? = none) (ha' : f'.algorithm = a) (hc' : f'.cell? = none) :
    bothReady f f' w w' :=
  ⟨hblank, ⟨ha ▸ hb.1, fun c h => absurd (hc.symm.trans h) (by simp)⟩,
    ⟨ha' ▸ hb.2, fun c h => absurd (hc'.symm.trans h) (by simp)⟩⟩

theorem paired_create (a : Algorithm) (role : Role) (given : List (String × OptionValue)) :
    Op.Paired L sound X (create L a role given) (create L a role given) bothReady := by
  refine Op.Paired.ite (Op.Paired.throw_bind _ _ _) ?_
  cases a with
  | lz4 =>
    cases role with
    | compressor =>
      refine Op.Paired.outcome fun acceleration => Op.Paired.map _ ?_
      refine (Lz4.paired_create hL acceleration).mono ?_
      rintro c c' w w' ⟨hb, rfl⟩
      exact bothReady_of_bound hb rfl rfl rfl rfl rfl
    | decompressor =>
      refine Op.Paired.bind (Lz4.paired_create hL _) fun c c' => ?_
      exact Op.Paired.pure fun w w' h => bothReady_of_bound h.1 rfl rfl rfl rfl rfl
  | snappy =>
    have hready {f f' : Facade} {c c' : Snappy.Coder} {w w' : World σ}
        (h : bothBound .snappy w w' ∧ c.cell < w.cells.length ∧ c'.cell < w'.cells.length)
        (hblank : f'.blank = f.blank) (ha : f.algorithm = .snappy) (hc : f.cell? = some c.cell)
        (ha' : f'.algorithm = .snappy) (hc' : f'.cell? = some c'.cell) : bothReady f f' w w' :=
      ⟨hblank, ⟨ha ▸ h.1.1, fun i hi => Option.some.inj (hc.symm.trans hi) ▸ h.2.1⟩,
        ⟨ha' ▸ h.1.2, fun i hi => Option.some.inj (hc'.symm.trans hi) ▸ h.2.2⟩⟩
    have hcreate := Snappy.paired_create hL (X := X)
    cases role with
    | compressor =>
      exact Op.Paired.map _ (hcreate.mono fun _ _ _ _ h => hready h rfl rfl rfl rfl rfl)
    | decompressor =>
      exact Op.Paired.map _ (hcreate.mono fun _ _ _ _ h => hready h rfl rfl rfl rfl rfl)
  | zstd =>
    cases role with
    | compressor =>
      refine Op.Paired.library hL .zstd fun k => Op.Paired.outcome fun level => ?_
      refine Op.Paired.map _ ((Zstd.Compressor.paired_create hL level _).mono ?_)
      rintro ⟨level, own⟩ ⟨level', own'⟩ w w' ⟨hb, rfl, hown⟩
      exact bothReady_of_bound hb (congrArg (fun own => zstdCompressor ⟨_, own⟩) hown) rfl rfl rfl
        rfl
    | decompressor =>
      refine Op.Paired.map _ ((Zstd.Decompressor.paired_create hL _).mono ?_)
      rintro ⟨own⟩ ⟨own'⟩ w w' ⟨hb, hown⟩
      exact bothReady_of_bound hb (congrArg (fun own => zstdDecompressor ⟨own⟩) hown) rfl rfl rfl
        rfl

end Facade

private theorem Zstd.run_release_steady (d : Direction) (c : Context) {w : World σ}
    (hw : Steady L sound w) :
    ∃ v, (release L d c).run w = (.ok c.release.2, v) ∧ Onward L sound w v := by
  unfold release Context.release
  cases c.released with
  | true => exact ⟨w, rfl, hw, Since.refl w⟩
  | false =>
    have hs := hL.sound_answer (.freeContext d c.handle) _ rfl hw.libraries
    obtain ⟨s, hfreed⟩ := hL.free d c.handle w.libraries
    rw [hfreed] at hs
    have hrun : (free L d c.handle).run w = _ := Op.run_call_ok hfreed
    refine ⟨_, Op.run_bind_ok hrun _, ⟨hs, hw.genuine⟩, fun _ _ => id, Nat.le_refl _⟩

private theorem Zstd.run_releaseOwn_steady (d : Direction) (own : Option Context) {w : World σ}
    (hw : Steady L sound w) :
    ∃ v, (releaseOwn L d own).run w = (.ok (own.map fun c => c.release.2), v) ∧
      Onward L sound w v := by
  cases own with
  | none => exact ⟨w, rfl, hw, Since.refl w⟩
  | some c =>
    obtain ⟨v, hrun, hv⟩ := run_release_steady hL d c hw
    refine ⟨v, ?_, hv⟩
    unfold releaseOwn
    rw [Op.run_map, hrun]
    rfl

namespace Facade

def shut : Facade → Facade
  | zstdCompressor c => zstdCompressor { c with context := c.context.map fun own => own.release.2 }
  | zstdDecompressor d =>
    zstdDecompressor { d with context := d.context.map fun own => own.release.2 }
  | f => f

theorem run_close_steady (f : Facade) {w : World σ} (hw : Steady L sound w) :
    ∃ v, (f.close L).run w = (.ok f.shut, v) ∧ Onward L sound w v := by
  cases f with
  | zstdCompressor c =>
    obtain ⟨v, hrun, hv⟩ := Zstd.run_releaseOwn_steady hL .compression c.context hw
    refine ⟨v, ?_, hv⟩
    unfold close Zstd.Compressor.close
    rw [Op.run_map, Op.run_bind_ok hrun]
    rfl
  | zstdDecompressor d =>
    obtain ⟨v, hrun, hv⟩ := Zstd.run_releaseOwn_steady hL .decompression d.context hw
    refine ⟨v, ?_, hv⟩
    unfold close Zstd.Decompressor.close
    rw [Op.run_map, Op.run_bind_ok hrun]
    rfl
  | _ => exact ⟨w, rfl, hw, Since.refl w⟩

omit hL

private theorem release_blank (own : Option Context) :
    (own.map fun c => c.release.2).map Context.blank =
      (own.map Context.blank).map fun c => c.release.2 := by
  cases own with
  | none => rfl
  | some c =>
    unfold Context.release Context.blank
    cases hr : c.released <;> simp [hr]

theorem blank_shut (f : Facade) : f.shut.blank = f.blank.shut := by
  cases f with
  | zstdCompressor c => exact congrArg (fun own => zstdCompressor ⟨_, own⟩) (release_blank _)
  | zstdDecompressor d => exact congrArg (fun own => zstdDecompressor ⟨own⟩) (release_blank _)
  | _ => rfl

theorem shut_of_open {f : Facade} (h : f.shut.closed = false) : f.shut = f := by
  have hclosed (own : Option Context)
      (h : Zstd.isClosed (own.map fun c => c.release.2) = false) : own = none := by
    cases own with
    | none => rfl
    | some c =>
      unfold Context.release at h
      cases hr : c.released <;> simp [Zstd.isClosed, hr] at h
  cases f with
  | zstdCompressor c =>
    obtain ⟨level, own⟩ := c
    rw [hclosed own h]
    rfl
  | zstdDecompressor d =>
    obtain ⟨own⟩ := d
    rw [hclosed own h]
    rfl
  | _ => rfl

private theorem algorithm_shut (f : Facade) : f.shut.algorithm = f.algorithm := by
  cases f <;> rfl

private theorem cell?_shut (f : Facade) : f.shut.cell? = f.cell? := by
  cases f <;> rfl

theorem Ready.shut {f : Facade} {w : World σ} (h : f.Ready w) : f.shut.Ready w where
  bound := by
    rw [algorithm_shut]
    exact h.bound
  cell := by
    rw [cell?_shut]
    exact h.cell

end Facade

end Codec

end NativeCodec
