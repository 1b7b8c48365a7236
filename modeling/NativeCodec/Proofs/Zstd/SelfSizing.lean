import NativeCodec.Proofs.Zstd.Headers
import NativeCodec.Proofs.Zstd.Unpacking

/-!
Decompression into a destination of the size that the frames record.

Without a length the destination is as large as the probe says. What comes back has the recorded
length, and apart from malformed inputs and failures of the library an error says that some size is
not recorded, or that the recorded size cannot be had or was too small
(`decompress_selfSized_outcome`).
-/

set_option autoImplicit false
set_option relaxedAutoImplicit false

namespace NativeCodec.Codec.Zstd

open Native NativeCodec.Zstd

private theorem kind_failure_of_ofHeader {f : Fault} (h : f.ofHeader = true)
    (operation name : String) : (failure operation f.code name true).kind = .malformedInput := by
  cases f with
  | wrongChecksum | literalsHeader | dictionaryCorrupted => exact absurd h (by decide)
  | dictionaryMismatch | destinationTooSmall => exact absurd h (by decide)
  | _ => rfl

private theorem kind_failure (operation : String) (code : Nat) (name : String) :
    (failure operation code name true).kind = .malformedInput ∨
      (failure operation code name true).kind = .nativeCall ∨
      (failure operation code name true).kind = .bufferTooSmall := by
  unfold failure
  split
  · exact Or.inr (Or.inr rfl)
  · split
    · exact Or.inl rfl
    · exact Or.inr (Or.inl rfl)

section Probe

variable {name : Nat → String} {data : Bytes}

theorem kind_of_probe {e : Error} (h : probe name data = .error e) : e.kind = .malformedInput := by
  fun_induction probe name data with
  | case1 data hu => exact absurd h (by simp)
  | case2 data hu hv => exact Except.error.inj h ▸ rfl
  | case3 data hu hv f hf =>
    exact Except.error.inj h ▸ kind_failure_of_ofHeader (ofHeader_of_afterFrame hf) _ _
  | case4 data hu hv rest hr hend => exact absurd h (by simp)
  | case5 data hu hv rest hr hend ih =>
    cases hp : probe name rest with
    | error e' =>
      rw [hp] at h
      exact ih (hp.trans (congrArg Except.error (Except.error.inj h)))
    | ok found => exact absurd h (by simp [hp, Except.map])

private theorem unknownSize_of_probe (h : probe name data = .ok none) :
    ∃ ahead ∈ frameStarts data, recordedSize ahead = unknownSize := by
  fun_induction probe name data with
  | case1 data hu =>
    have hne : data ≠ [] := by
      rintro rfl
      exact absurd hu (by decide)
    exact ⟨data, mem_frameStarts hne, hu⟩
  | case2 data hu hv => exact absurd h (by simp)
  | case3 data hu hv f hf => exact absurd h (by simp)
  | case4 data hu hv rest hr hend => exact absurd h (by simp)
  | case5 data hu hv rest hr hend ih =>
    cases hp : probe name rest with
    | error e' => exact absurd h (by simp [hp, Except.map])
    | ok found =>
      cases found with
      | some n => exact absurd h (by simp [hp, Except.map])
      | none =>
        obtain ⟨ahead, hmem, hahead⟩ := ih hp
        rw [frameStarts_of_afterFrame hr]
        exact ⟨ahead, List.mem_cons_of_mem data hmem, hahead⟩

end Probe

variable {σ : Type} {L : Libraries σ} {reader : Reader} {data : Bytes} {w : World σ}
  {input : Argument} {constants : Constants}

/-- Wherever the data are shown, this is given as their decompressed length. -/
def Records (L : Libraries σ) (data : Bytes) (found : Option Nat) : Prop :=
  ∀ (w : World σ) (constants : Constants) (input : Argument), Binds L w constants →
    input.Shows w.memory data → ((lengthOf L input).run w).1 = .ok found

theorem records_of_probe (hL : Probing L data) {found : Option Nat}
    (hp : probe L.errorName data = .ok found) : Records L data found :=
  fun _ _ _ hw hi => (run_lengthOf hL hw hi).trans hp

private theorem probe_of_consists {contents : List Bytes} (hc : Consists reader data contents)
    (hs : contents.flatten.length < invalidSize) {name : Nat → String} {n : Nat}
    (hp : probe name data = .ok (some n)) : n = contents.flatten.length := by
  have hne : data ≠ [] := by
    rintro rfl
    rw [probe_nil] at hp
    exact absurd hp (by simp)
  obtain ⟨hwhole, htotal⟩ := hc.recorded hs
  rw [probe_of_whole hwhole hne] at hp
  exact htotal n (Except.ok.inj hp)

private theorem refused_of_probe (hL : Unpacks L reader data) {name : Nat → String} {n : Nat}
    (hp : probe name data = .ok (some n))
    (hlack : ∀ contents, Consists reader data contents → n < contents.flatten.length) :
    Refused L data := by
  intro w d input output m hi hm
  obtain ⟨contents, -, -, hc, rfl, hword, -⟩ := consists_of_decompress hL hi hm
  have hsmall : contents.flatten.length < invalidSize := by
    unfold isError errorWords at hword
    rw [decide_eq_false_iff_not] at hword
    unfold invalidSize
    unfold wordLimit at *
    omega
  have hsum := probe_of_consists hc hsmall hp
  exact absurd (hlack contents hc) (Nat.not_lt.mpr (Nat.le_of_eq hsum.symm))

/-- How decompression without a length can end, given the size from which on there is no memory. -/
inductive SelfSized (L : Libraries σ) (reader : Reader) (data : Bytes) (m : Memory) :
    Except Error Bytes → Prop
  | unprobed {e : Error} (complaint : probe L.errorName data = .error e) :
      SelfSized L reader data m (.error e)
  | unknown (nothing : probe L.errorName data = .ok none) :
      SelfSized L reader data m (.error .contentSizeUnknown)
  | unavailable {n : Nat} {e : Error} (size : probe L.errorName data = .ok (some n))
      (refusal : m.checkSize n = .error e) : SelfSized L reader data m (.error e)
  | whole {n : Nat} {contents : List Bytes} (size : probe L.errorName data = .ok (some n))
      (frames : Consists reader data contents) (fits : contents.flatten.length ≤ n)
      (room : n < m.room) : SelfSized L reader data m (.ok contents.flatten)
  | failed {n code : Nat} {name : String} (size : probe L.errorName data = .ok (some n))
      (lack : ∀ contents, Consists reader data contents → n < contents.flatten.length)
      (room : n < m.room) :
      SelfSized L reader data m (.error (failure "decompression" code name true))

section Run

private def decompressScratch (L : Libraries σ) (src : Range) (d : Decompressor) (n : Int) :
    Op σ Bytes := do
  let dst ← Op.scratch n
  let m ← d.decompress L (.range src) (.range dst)
  Op.firstBytes dst m

private def decompressProbed (L : Libraries σ) (src : Range) (d : Decompressor) : Op σ Bytes := do
  let length : Int ←
    match ← lengthOfRange L src with
    | some n => pure (n : Int)
    | none => throw .contentSizeUnknown
  decompressScratch L src d length

private theorem run_decompressScratch (hL : Unpacks L reader data) {n : Nat} {src : Range}
    (hn : n < w.memory.room) (handle : Nat) (hs : src.Holds w.memory data) :
    (∃ contents, Consists reader data contents ∧ contents.flatten.length ≤ n ∧
      ((decompressScratch L src ⟨some (owner .decompression handle)⟩ n).run w).1 =
        .ok contents.flatten) ∨
    (∃ code name, ((decompressScratch L src ⟨some (owner .decompression handle)⟩ n).run w).1 =
        .error (failure "decompression" code name true) ∧
      ∀ contents, Consists reader data contents → n < contents.flatten.length) := by
  have hcount : n < countLimit := Nat.lt_of_lt_of_le hn (Nat.min_le_right _ _)
  have hadded : src.Holds (w.memory.add (.fresh n)).2 data := hs.add _
  obtain ⟨reply, s, hanswer⟩ := hL.answers handle n w.libraries hadded.length_eq hadded.content
    hcount
  have hreply := hL.unpacked hadded.content hanswer
  obtain ⟨w', hdone, hmem⟩ := @run_decompressRange _ L
    { w with memory := (w.memory.add (.fresh n)).2 } src (Op.scratchRange w.memory n) _ _ _ hanswer
  have hrange := (@run_decompress_ranges _ L src (Op.scratchRange w.memory n) handle rfl
    { w with memory := (w.memory.add (.fresh n)).2 }).trans hdone
  unfold decompressScratch
  rw [Op.run_bind_ok (Op.run_scratch hn)]
  cases hword : isError reply.result with
  | true =>
    obtain ⟨w'', hfault, -⟩ := run_sized_error (L := L) hword "decompression" true w'
    refine .inr ⟨_, _, by rw [Op.run_bind_error (hrange.trans hfault)], fun contents hc => ?_⟩
    refine Nat.not_le.mp fun hfit => ?_
    obtain ⟨spill, rfl, -⟩ := hreply.of_fits hc hfit
    have hshort := isError_of_lt (Nat.lt_of_le_of_lt hfit hcount)
    exact absurd (hshort.symm.trans hword) (by simp)
  | false =>
    obtain ⟨contents, spill, hc, rfl, hfit⟩ := hreply.of_not_error hword
    have hshort : contents.flatten.length ≤ n :=
      Nat.le_trans (Nat.le_add_right _ spill.length) (List.length_append ▸ hfit)
    have hwritten := List.take_of_length_le hfit
    refine .inl ⟨contents, hc, hshort, ?_⟩
    rw [Op.run_bind_ok (hrange.trans (run_sized hword _ _ _)),
      Op.run_firstBytes_scratch_append hcount hfit (hmem.trans (congrArg _ hwritten))]

variable (hL : Unpacks L reader data) (hprobe : Probing L data)

include hL hprobe

private theorem selfSized_decompressProbed {src : Range} (handle : Nat)
    (hs : src.Holds w.memory data) : SelfSized L reader data w.memory
      ((decompressProbed L src ⟨some (owner .decompression handle)⟩).run w).1 := by
  obtain ⟨w₁, hlength, hmem₁⟩ := run_lengthOfRange hprobe hs
  unfold decompressProbed
  cases hp : probe L.errorName data with
  | error e =>
    rw [Op.run_bind_error (hlength.trans (congrArg (·, w₁) hp))]
    exact .unprobed hp
  | ok found =>
    rw [Op.run_bind_ok (hlength.trans (congrArg (·, w₁) hp))]
    cases found with
    | none => exact .unknown hp
    | some n =>
      dsimp only
      rw [Op.run_bind_ok (Op.run_pure _ _)]
      cases hc : w₁.memory.checkSize n with
      | error e =>
        unfold decompressScratch
        rw [Op.run_bind_error (Op.run_scratch_error hc)]
        exact .unavailable hp (hmem₁ ▸ hc)
      | ok size =>
        obtain ⟨rfl, hroom⟩ := Memory.checkSize_eq_ok hc
        rcases run_decompressScratch hL hroom handle (hmem₁ ▸ hs) with
          ⟨contents, hframes, hfit, hdone⟩ | ⟨code, name, hfault, hlack⟩
        · exact hdone ▸ .whole hp hframes hfit (hmem₁ ▸ hroom)
        · exact hfault ▸ .failed hp hlack (hmem₁ ▸ hroom)

omit hL hprobe in
private theorem run_decompress_eq {src : Range} (hinput : (Op.input input).run w = (.ok src, w)) :
    (decompress L input none).run w = (withDecompressor L (decompressProbed L src)).run w := by
  unfold decompress
  rw [Op.run_bind_ok hinput]
  rfl

theorem selfSized_decompress (hlends : Lends L .decompression) (hw : Binds L w constants)
    (hi : input.Shows w.memory data) :
    SelfSized L reader data w.memory ((decompress L input none).run w).1 := by
  obtain ⟨src, hinput, hs⟩ := Op.run_input_of_shows hi
  obtain ⟨handle, w₁, hmem₁, hdone⟩ := run_withDecompressor hlends hw (decompressProbed L src)
  rw [run_decompress_eq hinput, hdone, ← hmem₁]
  exact selfSized_decompressProbed hL hprobe handle (hmem₁ ▸ hs)

private theorem selfSized_decompress_or (hserves : Serves L .decompression)
    (hw : Binds L w constants)
    (hi : input.Shows w.memory data) :
    (∃ e, ((decompress L input none).run w).1 = .error e ∧ e.kind = .nativeCall) ∨
      SelfSized L reader data w.memory ((decompress L input none).run w).1 := by
  obtain ⟨src, hinput, hs⟩ := Op.run_input_of_shows hi
  rw [run_decompress_eq hinput]
  rcases run_withDecompressor_or hserves hw (decompressProbed L src) with
    hnone | ⟨handle, w₁, hmem₁, hdone⟩
  · exact .inl hnone
  · rw [hdone, ← hmem₁]
    exact .inr (selfSized_decompressProbed hL hprobe handle (hmem₁ ▸ hs))

omit hL in
theorem run_decompress_of_probe_error (hlends : Lends L .decompression) (hw : Binds L w constants)
    (hi : input.Shows w.memory data) {e : Error} (hp : probe L.errorName data = .error e) :
    ((decompress L input none).run w).1 = .error e := by
  obtain ⟨src, hinput, hs⟩ := Op.run_input_of_shows hi
  obtain ⟨handle, w₁, hmem₁, hdone⟩ := run_withDecompressor hlends hw (decompressProbed L src)
  obtain ⟨w₂, hlength, -⟩ := run_lengthOfRange hprobe (hmem₁ ▸ hs)
  rw [run_decompress_eq hinput, hdone]
  unfold decompressProbed
  rw [Op.run_bind_error (hlength.trans (congrArg (·, w₂) hp))]

end Run

end NativeCodec.Codec.Zstd
