import NativeCodec.Proofs.Memory.Window
import NativeCodec.Proofs.Transfer.Likeness

set_option autoImplicit false
set_option relaxedAutoImplicit false

namespace NativeCodec

open Native

def Range.Shares (r r' : Range) : Views := fun m m' => ∃ bytes, r.Holds m bytes ∧ r'.Holds m' bytes

/-- Two objects show the same bytes as sources, each in its memory. -/
def Argument.Shares (a a' : Argument) : Views :=
  fun m m' => ∃ bytes, a.Shows m bytes ∧ a'.Shows m' bytes

/-- Two objects are destinations that hold the same bytes, each in its memory. -/
def Argument.Faces (a a' : Argument) : Views :=
  fun m m' => ∃ bytes, a.Takes m bytes ∧ a'.Takes m' bytes

/-- Two objects are given sources, and these hold the same bytes. -/
structure Argument.Seen (a a' : Argument) (r r' : Range) (m m' : Memory) : Prop where
  here : a.source? m = .ok r
  there : a'.source? m' = .ok r'
  shares : r.Shares r' m m'

/-- Two objects are given destinations, and these hold the same bytes. -/
structure Argument.Held (a a' : Argument) (r r' : Range) (m m' : Memory) : Prop where
  here : a.destination? m = .ok r
  there : a'.destination? m' = .ok r'
  shares : r.Shares r' m m'

section Sharing

variable {r r' : Range} {a a' : Argument} {m m' : Memory}

theorem Range.Shares.length_eq (h : r.Shares r' m m') : r'.length = r.length := by
  obtain ⟨bytes, hr, hr'⟩ := h
  rw [hr.length_eq, hr'.length_eq]

theorem Range.Shares.count_eq (h : r.Shares r' m m') : r'.count? = r.count? := by
  rw [Range.count?, h.length_eq, Range.count?]

private theorem Range.Holds.part_of {bytes : Bytes} (h : r.Holds m bytes) {offset length : Nat}
    (hl : offset + length ≤ r.length) :
    (r.part offset length).Holds m ((bytes.drop offset).take length) := by
  obtain ⟨s, hs, hholds⟩ := h.part offset length (show (some (length : Int)).getD _ = _ from rfl)
    (h.length_eq ▸ hl)
  obtain ⟨o, l, ho, hlength, -, rfl⟩ := Range.slice?_eq_ok_iff.mp hs
  obtain rfl : offset = o := Int.ofNat.inj ho
  obtain rfl : length = l := Int.ofNat.inj hlength
  exact hholds

theorem Range.Apart.part {s : Range} (h : r.Apart s) {offset length offset' length' : Nat}
    (hr : offset + length ≤ r.length) (hs : offset' + length' ≤ s.length) :
    (r.part offset length).Apart (s.part offset' length') :=
  h.mono (fun _ _ hc => hc.of_part rfl hr) fun _ _ hc => hc.of_part rfl hs

theorem Range.Shares.part (h : r.Shares r' m m') {offset length : Nat}
    (hl : offset + length ≤ r.length) :
    (r.part offset length).Shares (r'.part offset length) m m' := by
  have hlength := h.length_eq
  obtain ⟨bytes, hr, hr'⟩ := h
  exact ⟨_, hr.part_of hl, hr'.part_of (hlength.symm ▸ hl)⟩

theorem Range.Shares.add (h : r.Shares r' m m') (s : Storage) :
    r.Shares r' (m.add s).2 (m'.add s).2 := by
  obtain ⟨bytes, hr, hr'⟩ := h
  exact ⟨bytes, hr.add s, hr'.add s⟩

private theorem Range.Shares.source_eq (h : r.Shares r' m m') :
    (⟨r'.length, m'.read? r'.start r'.length⟩ : Source) = ⟨r.length, m.read? r.start r.length⟩ := by
  have hlength := h.length_eq
  obtain ⟨bytes, hr, hr'⟩ := h
  rw [hr.read_eq, hr'.read_eq, hlength]

private theorem Range.Shares.first_eq (h : r.Shares r' m m') (count : Nat) :
    m'.read? r'.start (min count r'.length) = m.read? r.start (min count r.length) := by
  have hfirst := (h.part (show 0 + min count r.length ≤ r.length by omega)).source_eq
  rw [h.length_eq]
  exact congrArg Source.bytes hfirst

theorem Argument.Held.faces (h : a.Held a' r r' m m') : a.Faces a' m m' := by
  obtain ⟨bytes, hr, hr'⟩ := h.shares
  exact ⟨bytes, ⟨r, h.here, hr⟩, ⟨r', h.there, hr'⟩⟩

end Sharing

namespace Native.Op

/-- Ranges of one length at whose starts the same data can be stored. -/
structure Absorbs (F : Views) (dst dst' : Range) : Prop where
  length_eq : dst'.length = dst.length
  write : ∀ m m' data, data.length ≤ dst.length → F m m' →
    F (m.write dst.start data) (m'.write dst'.start data)

/-- Data can be stored at the same place in two destinations. -/
theorem absorbs_part (a a' : Argument) {r r' : Range} {offset length : Nat}
    (hl : offset + length ≤ r.length) :
    Absorbs (a.Held a' r r') (r.part offset length) (r'.part offset length) where
  length_eq := rfl
  write m m' data hd h := by
    obtain ⟨hhere, hthere, bytes, hr, hr'⟩ := h
    have hfit : offset + data.length ≤ bytes.length := by
      have := hr.length_eq
      change data.length ≤ length at hd
      omega
    refine ⟨?_, ?_, _, hr.write_at hfit, hr'.write_at hfit⟩
    · rw [Argument.destination?_write, hhere]
    · rw [Argument.destination?_write, hthere]

theorem absorbs_whole (a a' : Argument) {r r' : Range} (hl : r'.length = r.length) :
    Absorbs (a.Held a' r r') r r' where
  length_eq := hl
  write := (absorbs_part a a' (show 0 + r.length ≤ r.length by omega)).write

variable {σ α β : Type} {L : Libraries σ} {M F : Views} {E : Error → Error → Views} {r r' : Range}
  {Q : α → β → Views}

/-- What sources share that lie beside the destinations is kept too. -/
theorem Absorbs.beside {src src' dst dst' : Range} (h : Absorbs F dst dst')
    (ha : src.Apart dst) (ha' : src'.Apart dst') :
    Absorbs (fun m m' => src.Shares src' m m' ∧ F m m') dst dst' where
  length_eq := h.length_eq
  write m m' data hd hw := by
    obtain ⟨⟨bytes, hholds, hholds'⟩, hF⟩ := hw
    have hd' : data.length ≤ dst'.length := by
      rw [h.length_eq]
      exact hd
    have hkept := hholds.of_apart (Memory.sameOutside_write dst m hd) ha
    have hkept' := hholds'.of_apart (Memory.sameOutside_write dst' m' hd') ha'
    exact ⟨⟨bytes, hkept, hkept'⟩, h.write m m' data hd hF⟩

theorem Twin.input {a a' : Argument} {f : Range → Op σ α} {g : Range → Op σ β}
    (h : ∀ m m', M m m' → a.Shares a' m m')
    (hf : ∀ r r', Twin (fun m m' => a.Seen a' r r' m m' ∧ M m m') (f r) (g r') Q E) :
    Twin M (input a >>= f) (input a' >>= g) Q E := by
  refine Twin.bind (R := fun r r' m m' => a.Seen a' r r' m m' ∧ M m m') ?_ hf
  intro past past' w w' halike hw
  obtain ⟨bytes, ⟨r, hr, hholds⟩, ⟨r', hr', hholds'⟩⟩ := h _ _ hw
  rw [run_input, run_input, hr, hr']
  exact ⟨halike, .ok ⟨⟨hr, hr', bytes, hholds, hholds'⟩, hw⟩⟩

theorem Twin.output {a a' : Argument} {f : Range → Op σ α} {g : Range → Op σ β}
    (h : ∀ m m', M m m' → a.Faces a' m m')
    (hf : ∀ r r', Twin (fun m m' => a.Held a' r r' m m' ∧ M m m') (f r) (g r') Q E) :
    Twin M (output a >>= f) (output a' >>= g) Q E := by
  refine Twin.bind (R := fun r r' m m' => a.Held a' r r' m m' ∧ M m m') ?_ hf
  intro past past' w w' halike hw
  obtain ⟨bytes, ⟨r, hr, hholds⟩, ⟨r', hr', hholds'⟩⟩ := h _ _ hw
  rw [run_output, run_output, hr, hr']
  exact ⟨halike, .ok ⟨⟨hr, hr', bytes, hholds, hholds'⟩, hw⟩⟩

theorem Twin.source {f : Source → Op σ α} {g : Source → Op σ β}
    (h : ∀ m m', M m m' → r.Shares r' m m') (hf : ∀ s, Twin M (f s) (g s) Q E) :
    Twin M (source r >>= f) (source r' >>= g) Q E := by
  intro past past' w w' halike hw
  rw [run_bind_ok (run_source w r), run_bind_ok (run_source w' r'), (h _ _ hw).source_eq]
  exact hf _ past past' w w' halike hw

theorem Twin.bytes {f : Bytes → Op σ α} {g : Bytes → Op σ β}
    (h : ∀ m m', M m m' → r.Shares r' m m') (hf : ∀ s, Twin M (f s) (g s) Q E) :
    Twin M (bytes r >>= f) (bytes r' >>= g) Q E := by
  intro past past' w w' halike hw
  have hsame := congrArg Source.content (h _ _ hw).source_eq
  rw [run_bind_ok (run_bytes w r), run_bind_ok (run_bytes w' r'),
    show (w'.memory.read? r'.start r'.length).getD [] = (w.memory.read? r.start r.length).getD []
      from hsame]
  exact hf _ past past' w w' halike hw

theorem Twin.call {c : Call} {site site' : Site} {f : c.Reply → Op σ α} {g : c.Reply → Op σ β}
    (hf : ∀ reply, Twin M (f reply) (g reply) Q E) (he : Admits M E) :
    Twin M (call L c site >>= f) (call L c site' >>= g) Q E := by
  refine Twin.bind_same ((twin_call c site site' M).mono (fun _ _ => id) (fun _ _ _ _ => id) ?_) hf
  rintro e e' m m' ⟨rfl, hw⟩
  exact he e' m m' hw

theorem Twin.write {data : Bytes} {f : Unit → Op σ α} {g : Unit → Op σ β} (hF : Absorbs F r r')
    (hd : data.length ≤ r.length) (h : ∀ m m', M m m' → F m m') (hf : Twin F (f ()) (g ()) Q E) :
    Twin M (write r.start data >>= f) (write r'.start data >>= g) Q E := by
  intro past past' w w' halike hw
  refine hf past past' { w with memory := w.memory.write r.start data }
    { w' with memory := w'.memory.write r'.start data } ?_ (hF.write _ _ _ hd (h _ _ hw))
  exact ⟨halike.libraries_eq, halike.bindings_eq, halike.cells_eq, halike.same, by
    rw [Memory.limit_write, Memory.limit_write, halike.limit_eq]⟩

theorem Twin.store {capacity : Nat} {written : Bytes} {f : Unit → Op σ α} {g : Unit → Op σ β}
    (hF : Absorbs F r r') (hc : capacity ≤ r.length) (h : ∀ m m', M m m' → F m m')
    (hf : Twin F (f ()) (g ()) Q E) :
    Twin M (store r capacity written >>= f) (store r' capacity written >>= g) Q E :=
  Twin.write hF (Nat.le_trans (List.length_take_le _ _) hc) h hf

theorem Twin.outcome {γ : Type} {o : Except Error γ} {f : γ → Op σ α} {g : γ → Op σ β}
    (he : Admits M E) (hf : ∀ c, o = .ok c → Twin M (f c) (g c) Q E) :
    Twin M (ofExcept o >>= f) (ofExcept o >>= g) Q E := by
  cases o with
  | error e => exact Twin.throw_bind he
  | ok c => exact hf c rfl

/-- Slices at the same place of ranges of one length: both exist, or neither does. -/
theorem Twin.slice {offset : Int} {length : Option Int} {f : Range → Op σ α} {g : Range → Op σ β}
    (hl : r'.length = r.length) (he : Admits M E)
    (hf : ∀ o k : Nat, offset = o → o + k ≤ r.length →
      Twin M (f (r.part o k)) (g (r'.part o k)) Q E) :
    Twin M (ofExcept (r.slice? offset length) >>= f) (ofExcept (r'.slice? offset length) >>= g)
      Q E := by
  unfold Range.slice?
  rw [hl]
  cases hb : checkBounds offset length r.length with
  | error e =>
    intro past past' w w' halike hw
    exact ⟨halike, .error (he _ _ _ hw)⟩
  | ok bounds =>
    obtain ⟨ho, -, hfits⟩ := checkBounds_eq_ok_iff.mp hb
    exact hf bounds.1 bounds.2 ho hfits

/-- New storages of zeros as destinations. What is said of memory may then be said of them too, as
that no source lies there. -/
theorem Twin.scratch {size : Int} {f : Range → Op σ α} {g : Range → Op σ β}
    {N : Range → Range → Views} (he : Admits M E)
    (ha : ∀ m m' n, M m m' → N (scratchRange m n) (scratchRange m' n) (m.add (.fresh n)).2
      (m'.add (.fresh n)).2)
    (hf : ∀ r r', Twin (fun m m' => (Argument.range r).Held (.range r') r r' m m' ∧ N r r' m m')
      (f r) (g r') Q E) :
    Twin M (scratch size >>= f) (scratch size >>= g) Q E := by
  intro past past' w w' halike hw
  have hsame := Memory.checkSize_congr halike.limit_eq size
  cases hs : w.memory.checkSize size with
  | error e =>
    rw [run_bind_error (run_scratch_error hs),
      run_bind_error (run_scratch_error (hsame.trans hs))]
    exact ⟨halike, .error (he _ _ _ hw)⟩
  | ok n =>
    obtain ⟨rfl, hn⟩ := Memory.eq_of_checkSize hs
    obtain ⟨-, hn'⟩ := Memory.eq_of_checkSize (hsame.trans hs)
    have hcount : n < countLimit := Memory.lt_countLimit_of_lt_room hn
    rw [run_bind_ok (run_scratch hn), run_bind_ok (run_scratch hn')]
    refine hf _ _ past past' _ _ ?_ ⟨⟨rfl, rfl, Bytes.zeros n, ?_, ?_⟩, ha _ _ _ hw⟩
    · exact ⟨halike.libraries_eq, halike.bindings_eq, halike.cells_eq, halike.same,
        halike.limit_eq⟩
    · exact scratchRange_holds _ hcount
    · exact scratchRange_holds _ hcount

theorem twin_firstBytes {count : Nat} (h : ∀ m m', M m m' → r.Shares r' m m') :
    Twin M (firstBytes r count : Op σ Bytes) (firstBytes r' count) (Same M) E := by
  intro past past' w w' halike hw
  rw [run_firstBytes, run_firstBytes]
  exact ⟨halike, .ok ⟨by rw [(h _ _ hw).first_eq], hw⟩⟩

end Native.Op

end NativeCodec
