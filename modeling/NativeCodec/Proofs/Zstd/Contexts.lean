import NativeCodec.Proofs.Native.System
import NativeCodec.Proofs.Transfer.Ranges

set_option autoImplicit false
set_option relaxedAutoImplicit false

namespace NativeCodec.Codec.Zstd

open Native NativeCodec.Zstd

variable {σ α : Type} {L : Libraries σ} {w : World σ} {d : Direction} {constants : Constants}

/-- Binding the zstd library succeeds and gives these constants. -/
def Binds (L : Libraries σ) (w : World σ) (constants : Constants) : Prop :=
  ((Op.bind L .zstd).run w).1 = .ok constants

/-- The library answers whenever it is asked for a context, perhaps with none, and takes every
context back. -/
structure Serves (L : Libraries σ) (d : Direction) : Prop where
  answers : ∀ s, ∃ (handle : Option Nat) (s' : σ), L.answer (.createContext d) s = (.ok handle, s')
  frees : ∀ handle s, ∃ s' : σ, L.answer (.freeContext d handle) s = (.ok (), s')

/-- The library has a context whenever one is asked for, and takes every context back. -/
structure Lends (L : Libraries σ) (d : Direction) : Prop where
  creates : ∀ s, ∃ (handle : Nat) (s' : σ), L.answer (.createContext d) s = (.ok (some handle), s')
  frees : ∀ handle s, ∃ s' : σ, L.answer (.freeContext d handle) s = (.ok (), s')

theorem Lends.serves (hL : Lends L d) : Serves L d where
  answers s := (hL.creates s).imp' some fun _ h => h
  frees := hL.frees

theorem binds_system (snappy : Except Error Constants) {w : World Contexts} (hw : Regular w) :
    Binds (system snappy) w systemConstants :=
  @Op.run_bind_system snappy .zstd w (by decide) hw

theorem Lends.system (snappy : Except Error Constants) (d : Direction) :
    Lends (system snappy) d where
  creates _ := ⟨_, _, rfl⟩
  frees handle s := ⟨s.free handle, rfl⟩

def owner (d : Direction) (handle : Nat) : Context := { kind := d.contextName, handle }

theorem run_bind_zstd (h : Binds L w constants) :
    ∃ w', (Op.bind L .zstd).run w = (.ok constants, w') ∧ w'.memory = w.memory :=
  ⟨_, Prod.ext h rfl, (Op.quiet_bind .zstd w).memory_eq⟩

private theorem run_acquire (hL : Lends L d) (w : World σ) :
    ∃ handle w', L.answer (.createContext d) w.libraries = (.ok (some handle), w'.libraries) ∧
      (acquire L d).run w = (.ok (owner d handle), w') ∧ w'.memory = w.memory := by
  obtain ⟨handle, s, hs⟩ := hL.creates w.libraries
  refine ⟨handle, { w with
    libraries := s, events := .called (.createContext d) {} (some handle) :: w.events }, hs, ?_, rfl⟩
  unfold acquire
  rw [Op.run_bind_ok (Op.run_call_ok hs)]
  rfl

theorem run_withContext (hL : Lends L d) (body : Nat → Op σ α) (w : World σ) :
    ∃ handle w₁, L.answer (.createContext d) w.libraries = (.ok (some handle), w₁.libraries) ∧
      w₁.memory = w.memory ∧
      ((withContext L d body).run w).1 = ((body handle).run w₁).1 ∧
      ((withContext L d body).run w).2.memory = ((body handle).run w₁).2.memory := by
  obtain ⟨handle, w₁, hanswer, hacquire, hmem⟩ := run_acquire hL w
  refine ⟨handle, w₁, hanswer, hmem, ?_⟩
  obtain ⟨s, hs⟩ := hL.frees handle ((body handle).run w₁).2.libraries
  have hfree : ((free L d handle).run ((body handle).run w₁).2).1 = .ok () :=
    congrArg Prod.fst (Op.run_call_ok hs)
  unfold withContext
  rw [Op.run_bind_ok hacquire, Op.run_ensuring]
  refine ⟨?_, (quiet_free d handle _).memory_eq⟩
  change Except.bind ((free L d handle).run ((body handle).run w₁).2).1 _ = _
  rw [hfree]
  rfl

section Own

private theorem run_ownContext {handle : Nat} {w' : World σ}
    (h : (acquire L d).run w = (.ok (owner d handle), w')) :
    (ownContext L d true).run w = (.ok (some (owner d handle)), w') := by
  unfold ownContext
  rw [if_pos rfl, Op.run_bind_ok h]
  rfl

private theorem run_releaseOwn (hL : Serves L d) (handle : Nat) (w : World σ) :
    ∃ w', (releaseOwn L d (some (owner d handle))).run w =
      (.ok (some (owner d handle).release.2), w') := by
  obtain ⟨s, hs⟩ := hL.frees handle w.libraries
  have hfree : (free L d handle).run w = (.ok (), { w with
      libraries := s, events := .called (.freeContext d handle) {} () :: w.events }) :=
    Op.run_call_ok hs
  refine ⟨_, Prod.ext ?_ rfl⟩
  change ((some <$> (free L d handle >>= fun _ => pure (owner d handle).release.2)).run w).1 = _
  rw [Op.run_map, Op.run_bind_ok hfree]
  rfl

private theorem run_withDecompressor_of_acquire (hL : Serves L .decompression) {w₀ w₁ : World σ}
    {handle : Nat} (hbind : (Op.bind L .zstd).run w = (.ok constants, w₀))
    (hacquire : (acquire L .decompression).run w₀ = (.ok (owner .decompression handle), w₁))
    (body : Decompressor → Op σ α) :
    ((withDecompressor L body).run w).1 =
      ((body ⟨some (owner .decompression handle)⟩).run w₁).1 := by
  have hcreate : (Decompressor.create L true).run w =
      (.ok ⟨some (owner .decompression handle)⟩, w₁) := by
    unfold Decompressor.create
    rw [Op.run_bind_ok hbind, Op.run_bind_ok (run_ownContext hacquire)]
    rfl
  obtain ⟨w', hrelease⟩ := run_releaseOwn hL handle
    ((body ⟨some (owner .decompression handle)⟩).run w₁).2
  unfold withDecompressor Decompressor.close
  rw [Op.run_bind_ok hcreate, Op.run_ensuring, Op.run_discard, Op.run_bind_ok hrelease]
  rfl

theorem run_withDecompressor (hL : Lends L .decompression) (hw : Binds L w constants)
    (body : Decompressor → Op σ α) :
    ∃ handle w₁, w₁.memory = w.memory ∧
      ((withDecompressor L body).run w).1 =
        ((body ⟨some (owner .decompression handle)⟩).run w₁).1 := by
  obtain ⟨w₀, hbind, hmem₀⟩ := run_bind_zstd hw
  obtain ⟨handle, w₁, -, hacquire, hmem⟩ := run_acquire hL w₀
  exact ⟨handle, w₁, hmem.trans hmem₀,
    run_withDecompressor_of_acquire hL.serves hbind hacquire body⟩

theorem run_withDecompressor_or (hL : Serves L .decompression) (hw : Binds L w constants)
    (body : Decompressor → Op σ α) :
    (∃ e, ((withDecompressor L body).run w).1 = .error e ∧ e.kind = .nativeCall) ∨
    ∃ handle w₁, w₁.memory = w.memory ∧
      ((withDecompressor L body).run w).1 =
        ((body ⟨some (owner .decompression handle)⟩).run w₁).1 := by
  obtain ⟨w₀, hbind, hmem₀⟩ := run_bind_zstd hw
  obtain ⟨handle, s, hs⟩ := hL.answers w₀.libraries
  obtain ⟨w₁, hcall, hmem₁, -⟩ := Op.exists_run_call {} hs
  cases handle with
  | none =>
    have hacquire : (acquire L .decompression).run w₀ =
        (.error (.contextMissing Direction.decompression.contextName), w₁) := by
      unfold acquire
      rw [Op.run_bind_ok hcall]
      rfl
    have hcreate : (Decompressor.create L true).run w =
        (.error (.contextMissing Direction.decompression.contextName), w₁) := by
      unfold Decompressor.create ownContext
      rw [Op.run_bind_ok hbind, if_pos rfl]
      exact Op.run_bind_error (Op.run_bind_error hacquire _) _
    refine .inl ⟨.contextMissing Direction.decompression.contextName, ?_, rfl⟩
    unfold withDecompressor
    rw [Op.run_bind_error hcreate]
  | some handle =>
    have hacquire : (acquire L .decompression).run w₀ =
        (.ok (owner .decompression handle), w₁) := by
      unfold acquire
      rw [Op.run_bind_ok hcall]
      rfl
    exact .inr ⟨handle, w₁, hmem₁.trans hmem₀,
      run_withDecompressor_of_acquire hL hbind hacquire body⟩

theorem run_withCompressor (hL : Lends L .compression) (hw : Binds L w constants)
    {level : Option Int} (hmin : constants.minLevel ≤ level.getD usualLevel)
    (hmax : level.getD usualLevel ≤ constants.maxLevel) (body : Compressor → Op σ α) :
    ∃ handle w₁, w₁.memory = w.memory ∧
      ((withCompressor L level body).run w).1 =
        ((body ⟨level.getD usualLevel, some (owner .compression handle)⟩).run w₁).1 := by
  obtain ⟨w₀, hbind, hmem₀⟩ := run_bind_zstd hw
  obtain ⟨handle, w₁, -, hacquire, hmem⟩ := run_acquire hL w₀
  have hcreate : (Compressor.create L level true).run w =
      (.ok ⟨level.getD usualLevel, some (owner .compression handle)⟩, w₁) := by
    unfold Compressor.create
    rw [Op.run_bind_ok hbind]
    dsimp only
    rw [if_neg (by omega), Op.run_bind_ok (run_ownContext hacquire)]
    rfl
  obtain ⟨w', hrelease⟩ := run_releaseOwn hL.serves handle
    ((body ⟨level.getD usualLevel, some (owner .compression handle)⟩).run w₁).2
  refine ⟨handle, w₁, hmem.trans hmem₀, ?_⟩
  unfold withCompressor Compressor.close
  rw [Op.run_bind_ok hcreate, Op.run_ensuring, Op.run_discard, Op.run_bind_ok hrelease]
  rfl

end Own

private theorem gives_create : Op.Gives
    (fun d => ∃ handle, d = (⟨some (owner .decompression handle)⟩ : Decompressor))
    (Decompressor.create L true) := by
  refine Op.Gives.after fun _ => Op.Gives.bind
    (R := fun own => ∃ handle, own = some (owner .decompression handle)) ?_ ?_
  · unfold ownContext acquire
    rw [if_pos rfl]
    refine Op.Gives.bind (R := fun c => ∃ handle, c = owner .decompression handle) ?_ ?_
    · refine Op.Gives.after fun handle w c hc => ?_
      cases handle with
      | none => exact absurd hc (by simp [Context.create])
      | some handle => exact ⟨handle, (Except.ok.inj hc).symm⟩
    · rintro c ⟨handle, rfl⟩
      exact Op.Gives.pure ⟨handle, rfl⟩
  · rintro own ⟨handle, rfl⟩
    exact Op.Gives.pure ⟨handle, rfl⟩

/-- What is done well with a decompressor of its own is done well in a context of it, and memory is
left as that leaves it. -/
theorem exists_of_withDecompressor {body : Decompressor → Op σ α} {a : α}
    (h : ((withDecompressor L body).run w).1 = .ok a) :
    ∃ handle w₁, w₁.memory = w.memory ∧
      ((body ⟨some (owner .decompression handle)⟩).run w₁).1 = .ok a ∧
      ((withDecompressor L body).run w).2.memory =
        ((body ⟨some (owner .decompression handle)⟩).run w₁).2.memory := by
  unfold withDecompressor at h ⊢
  rcases hcreate : (Decompressor.create L true).run w with ⟨e | d, w₁⟩
  · rw [Op.run_bind_error hcreate] at h
    exact absurd h (by simp)
  · obtain ⟨handle, rfl⟩ := gives_create w d (congrArg Prod.fst hcreate)
    rw [Op.run_bind_ok hcreate, Op.run_ensuring] at h ⊢
    refine ⟨handle, w₁, ((Decompressor.quiet_create true).still hcreate).memory_eq, ?_,
      ((Decompressor.quiet_close _).discard _).memory_eq⟩
    dsimp only at h
    cases hclose : ((discard (Decompressor.close L ⟨some (owner .decompression handle)⟩)).run
        ((body ⟨some (owner .decompression handle)⟩).run w₁).2).1 with
    | error e =>
      rw [hclose] at h
      exact absurd h (by simp [Except.bind])
    | ok u =>
      rw [hclose] at h
      exact h

end NativeCodec.Codec.Zstd
