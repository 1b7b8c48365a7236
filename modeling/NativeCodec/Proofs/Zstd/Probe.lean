import NativeCodec.Proofs.Memory.Content
import NativeCodec.Proofs.Zstd.Contexts
import NativeCodec.Proofs.Zstd.Frames

set_option autoImplicit false
set_option relaxedAutoImplicit false

namespace NativeCodec.Native

theorem Source.content_drop (s : Source) (position : Nat) :
    (s.drop position).content = s.content.drop position := by
  unfold Source.drop Source.content
  cases s.bytes with
  | none => rw [Option.map_none, Option.getD_none, List.drop_nil]
  | some bytes => rfl

end NativeCodec.Native

namespace NativeCodec.Codec.Zstd

open Native NativeCodec.Zstd

section Probe

/-- What the probe comes to for the frames ahead: what they record together, nothing from the first
that says its size is unknown, or what is wrong with the first that is not whole. `name` is what
the library says about a code. -/
def probe (name : Nat → String) (ahead : Bytes) : Except Error (Option Nat) :=
  if recordedSize ahead = unknownSize then .ok none
  else if recordedSize ahead = invalidSize then .error .malformedHeader
  else
    match _h : afterFrame ahead with
    | .error f => .error (failure "decompressed length calculation" f.code (name f.code) true)
    | .ok rest =>
      if rest.isEmpty then .ok (some (recordedSize ahead))
      else (probe name rest).map (Option.map (recordedSize ahead + ·))
  termination_by ahead.length
  decreasing_by exact afterFrame_length_lt ‹_›

theorem probe_nil (name : Nat → String) : probe name [] = .error .malformedHeader := by
  rw [probe, if_neg (by decide), if_pos (by decide)]

variable {name : Nat → String} {ahead rest : Bytes} (hu : recordedSize ahead ≠ unknownSize)
  (hv : recordedSize ahead ≠ invalidSize)

include hu hv

theorem probe_of_error {f : Fault} (h : afterFrame ahead = .error f) : probe name ahead =
    .error (failure "decompressed length calculation" f.code (name f.code) true) := by
  rw [probe, if_neg hu, if_neg hv]
  split
  · next hf => rw [Except.error.inj (hf.symm.trans h)]
  · next hf => exact absurd (hf.symm.trans h) (by simp)

theorem probe_of_afterFrame (h : afterFrame ahead = .ok rest) : probe name ahead =
    if rest.isEmpty then .ok (some (recordedSize ahead))
    else (probe name rest).map (Option.map (recordedSize ahead + ·)) := by
  rw [probe, if_neg hu, if_neg hv]
  split
  · next hf => exact absurd (hf.symm.trans h) (by simp)
  · next hf => rw [Except.ok.inj (hf.symm.trans h)]

omit hu hv in
theorem probe_of_whole (h : Whole ahead) (hne : ahead ≠ []) :
    probe name ahead = .ok (recordedTotal (frameStarts ahead)) := by
  induction h with
  | nil => exact absurd rfl hne
  | @cons ahead rest hafter hvalid hwhole ih =>
    rw [frameStarts_of_afterFrame hafter, recordedTotal]
    by_cases hu : recordedSize ahead = unknownSize
    · rw [probe, if_pos hu, if_pos hu]
    · rw [probe_of_afterFrame hu hvalid hafter, if_neg hu]
      by_cases hend : rest = []
      · subst hend
        rw [frameStarts_nil]
        rfl
      · rw [if_neg (by simpa using hend), ih hend]
        rfl

end Probe

variable {σ : Type} {L : Libraries σ} {w : World σ}

theorem run_sized {word : Nat} (h : isError word = false) (operation : String) (decoding : Bool)
    (w : World σ) : (sized L operation word decoding).run w = (.ok word, w) := by
  unfold sized
  rw [if_neg (by simp [h])]
  rfl

theorem run_sized_error {word : Nat} (h : isError word = true) (operation : String)
    (decoding : Bool) (w : World σ) :
    ∃ w', (sized L operation word decoding).run w =
        (.error (failure operation (errorCode word) (L.errorName (errorCode word)) decoding), w') ∧
      w'.memory = w.memory := by
  unfold sized fail
  rw [if_pos h]
  exact ⟨_, rfl, rfl⟩

theorem isError_of_lt {size : Nat} (h : size < countLimit) : isError size = false := by
  unfold isError
  rw [decide_eq_false_iff_not]
  unfold countLimit at h
  unfold wordLimit errorWords
  omega

theorem fitsSize_of_lt {size : Nat} (h : size < countLimit) : fitsSize (size : Int) = true := by
  unfold countLimit at h
  unfold fitsSize wordLimit
  rw [Bool.and_eq_true, decide_eq_true_eq, decide_eq_true_eq]
  omega

/-- What the library says wherever it is asked about a part of some bytes: what the frame that
starts there records, and how long it is. -/
structure Probing (L : Libraries σ) (bytes : Bytes) : Prop where
  patient : 0 < L.patience
  content : ∀ {source : Source}, source.length = source.content.length →
    source.content <:+: bytes → ∀ s, ∃ s' : σ,
      L.answer (.zstdContentSize source) s = (.ok (recordedSize source.content), s')
  extent : ∀ {source : Source}, source.length = source.content.length →
    source.content <:+: bytes → ∀ s, ∃ s' : σ,
      L.answer (.zstdFrameSize source) s = (.ok (resultWord (frameExtent source.content)), s')

theorem Probing.of_infix {bytes part : Bytes} (hL : Probing L bytes) (hp : part <:+: bytes) :
    Probing L part where
  patient := hL.patient
  content hlength hpart := hL.content hlength (hpart.trans hp)
  extent hlength hpart := hL.extent hlength (hpart.trans hp)

theorem Probing.system (snappy : Except Error Constants) {bytes : Bytes}
    (hb : bytes.length < countLimit) : Probing (system snappy) bytes where
  patient := by
    unfold Native.system manyCalls
    exact Nat.succ_pos _
  content {source} hlength hpart s := by
    have hfits : (Call.zstdContentSize source).fits = true :=
      fitsSize_of_lt (by have := hpart.length_le; omega)
    exact ⟨s, answer_system_of_fits hfits s⟩
  extent {source} hlength hpart s := by
    have hfits : (Call.zstdFrameSize source).fits = true :=
      fitsSize_of_lt (by have := hpart.length_le; omega)
    exact ⟨s, answer_system_of_fits hfits s⟩

section Run

private theorem resultWord_of_error {ahead : Bytes} {f : Fault} (h : afterFrame ahead = .error f) :
    resultWord (frameExtent ahead) = f.word := by
  rw [frameExtent, h]
  rfl

private theorem resultWord_of_afterFrame {ahead rest : Bytes} (h : afterFrame ahead = .ok rest) :
    resultWord (frameExtent ahead) = ahead.length - rest.length := by
  rw [frameExtent, h]
  rfl

/-- What is said of a source at a position is asked for in two calls, which leave the memory. -/
private theorem Probing.run_at {source : Source} (hL : Probing L source.content)
    (hlen : source.length = source.content.length) {position : Nat} {ahead : Bytes}
    (hahead : source.content.drop position = ahead) (site : Site) (w : World σ) :
    ∃ w₁ w₂, (Op.call L (.zstdContentSize (source.drop position)) site).run w =
        (.ok (recordedSize ahead), w₁) ∧ w₁.memory = w.memory ∧
      (Op.call L (.zstdFrameSize (source.drop position)) site).run w₁ =
        (.ok (resultWord (frameExtent ahead)), w₂) ∧ w₂.memory = w.memory := by
  have hcontent : (source.drop position).content = ahead :=
    (source.content_drop position).trans hahead
  have hinfix : (source.drop position).content <:+: source.content := by
    rw [source.content_drop]
    exact (List.drop_suffix _ _).isInfix
  have hlength : (source.drop position).length = (source.drop position).content.length := by
    rw [hcontent, ← hahead, List.length_drop, ← hlen]
    rfl
  obtain ⟨s₁, hsize⟩ := hL.content hlength hinfix w.libraries
  obtain ⟨w₁, hsized, hmem₁, -⟩ := Op.exists_run_call site hsize
  obtain ⟨s₂, hextent⟩ := hL.extent hlength hinfix w₁.libraries
  obtain ⟨w₂, hextended, hmem₂, -⟩ := Op.exists_run_call site hextent
  rw [hcontent] at hsized hextended
  exact ⟨w₁, w₂, hsized, hmem₁, hextended, hmem₂.trans hmem₁⟩

private theorem run_probeFrom {source : Source} (hL : Probing L source.content) (start : Pointer)
    (patience position total : Nat) {ahead : Bytes} (hlen : source.length = source.content.length)
    (hfit : source.length < countLimit) (hahead : source.content.drop position = ahead)
    (hp : ahead.length < patience) (w : World σ) :
    ∃ w', (probeFrom L source start patience position total).run w =
        ((probe L.errorName ahead).map (Option.map (total + ·)), w') ∧
      w'.memory = w.memory := by
  induction patience generalizing position total ahead w with
  | zero => exact absurd hp (Nat.not_lt_zero _)
  | succ patience ih =>
    obtain ⟨w₁, w₂, hsized, hmem₁, hextended, hmem₂⟩ :=
      hL.run_at hlen hahead ⟨some (start.advance position), none⟩ w
    rw [probeFrom, Op.run_bind_ok (α := Nat) hsized]
    by_cases hu : recordedSize ahead = unknownSize
    · rw [if_pos hu, probe, if_pos hu]
      exact ⟨w₁, rfl, hmem₁⟩
    by_cases hv : recordedSize ahead = invalidSize
    · rw [if_neg hu, if_pos hv, probe, if_neg hu, if_pos hv, Op.run_bind_error (Op.run_throw _ _)]
      exact ⟨w₁, rfl, hmem₁⟩
    rw [if_neg hu, if_neg hv]
    dsimp only
    rw [Op.run_bind_ok hextended]
    cases hafter : afterFrame ahead with
    | error f =>
      rw [resultWord_of_error hafter, probe_of_error hu hv hafter]
      obtain ⟨w', hfault, hmem⟩ := run_sized_error (L := L) f.isError_word
        "decompressed length calculation" true w₂
      rw [Op.run_bind_error hfault, f.errorCode_word]
      exact ⟨w', rfl, hmem.trans hmem₂⟩
    | ok rest =>
      have hlt := afterFrame_length_lt hafter
      have hdrop : ahead.length = source.length - position := by
        rw [← hahead, List.length_drop, hlen]
      have hrest : source.content.drop (position + (ahead.length - rest.length)) = rest := by
        rw [← List.drop_drop, hahead]
        exact (List.suffix_iff_eq_drop.mp (afterFrame_suffix hafter)).symm
      rw [resultWord_of_afterFrame hafter, probe_of_afterFrame hu hv hafter,
        Op.run_bind_ok (run_sized (isError_of_lt (by omega)) _ _ _)]
      by_cases hend : rest = []
      · subst hend
        rw [if_pos (by rw [List.length_nil]; omega)]
        exact ⟨w₂, rfl, hmem₂⟩
      · have hpos := List.length_pos_iff.mpr hend
        rw [if_neg (by omega), if_neg (by simpa using hend)]
        obtain ⟨w', hrun, hmem⟩ := ih (position + (ahead.length - rest.length))
          (total + recordedSize ahead) hrest (by omega) w₂
        refine ⟨w', ?_, hmem.trans hmem₂⟩
        have hadd : (fun n => total + recordedSize ahead + n) =
            (total + ·) ∘ (recordedSize ahead + ·) := by
          funext n
          exact Nat.add_assoc _ _ _
        rw [hrun, hadd]
        cases probe L.errorName rest with
        | error e => rfl
        | ok found => exact Prod.ext (congrArg Except.ok (Option.map_map ..).symm) rfl

variable {bytes : Bytes} (hL : Probing L bytes)

include hL

theorem run_lengthOfRange {src : Range} (hs : src.Holds w.memory bytes) :
    ∃ w', (lengthOfRange L src).run w = (probe L.errorName bytes, w') ∧ w'.memory = w.memory := by
  have hcontent : (sourceOf w.memory src).content = bytes := hs.content
  have hsource : Probing L (sourceOf w.memory src).content := hcontent.symm ▸ hL
  obtain ⟨w', hrun, hmem⟩ := run_probeFrom hsource src.start (src.length + L.patience) 0 0
    (by rw [hcontent]; exact hs.length_eq) hs.length_lt (by rw [hcontent, List.drop_zero])
    (by rw [hs.length_eq]; exact Nat.lt_add_of_pos_right hL.patient) w
  refine ⟨w', ?_, hmem⟩
  unfold lengthOfRange
  rw [Op.run_bind_ok (Op.run_source w src)]
  refine hrun.trans (congrArg (·, w') ?_)
  have hzero : (0 + · : Nat → Nat) = id := funext Nat.zero_add
  rw [hzero, Option.map_id]
  cases probe L.errorName bytes with
  | error e => rfl
  | ok found => rfl

theorem run_lengthOf {input : Argument} {constants : Constants} (hw : Binds L w constants)
    (hi : input.Shows w.memory bytes) :
    ((lengthOf L input).run w).1 = probe L.errorName bytes := by
  obtain ⟨w₁, hbind, hmem₁⟩ := run_bind_zstd hw
  obtain ⟨src, hinput, hs⟩ := Op.run_input_of_shows (hmem₁ ▸ hi)
  obtain ⟨w', hrun, -⟩ := run_lengthOfRange hL hs
  unfold lengthOf decompressedLength
  rw [Op.run_bind_ok hbind, Op.run_bind_ok hinput, hrun]

end Run

end NativeCodec.Codec.Zstd
