import NativeCodec.Proofs.Memory.Destination
import NativeCodec.Proofs.Zstd.Decoding
import NativeCodec.Proofs.Zstd.Probe

/-!
Decompression by a library that decodes frames as they are meant.

`Unpacks` is what is asked of the library's decoder at some bytes, whatever its entropy coding
(`Reader`). What decompresses has the length that the probe gives, unless a frame does not say its
own (`lengthOf_of_decompressInto`).
-/

set_option autoImplicit false
set_option relaxedAutoImplicit false

namespace NativeCodec.Codec.Zstd

open Native NativeCodec.Zstd

/-- The replies that a decoder can give: all contents, and perhaps more bytes after them where there
is room; a lack of room; or any error for bytes that are not frames. -/
inductive Unpacked (reader : Reader) (data : Bytes) (capacity : Nat) : Written Nat → Prop
  | whole {contents : List Bytes} {spill : Bytes} (frames : Consists reader data contents)
      (fits : (contents.flatten ++ spill).length ≤ capacity) :
      Unpacked reader data capacity ⟨contents.flatten.length, contents.flatten ++ spill⟩
  | short {contents : List Bytes} {bytes : Bytes} (frames : Consists reader data contents)
      (lack : capacity < contents.flatten.length) :
      Unpacked reader data capacity ⟨Fault.destinationTooSmall.word, bytes⟩
  | wrong {reply : Written Nat} (none : ∀ contents, ¬Consists reader data contents)
      (error : isError reply.result = true) : Unpacked reader data capacity reply

/-- The library decodes these bytes, in any context and at any capacity, as the frames that they
are. -/
structure Unpacks {σ : Type} (L : Libraries σ) (reader : Reader) (data : Bytes) : Prop where
  answers : ∀ (context capacity : Nat) {source : Source} (s : σ), source.length = data.length →
    source.content = data → capacity < countLimit → ∃ (reply : Written Nat) (s' : σ),
      L.answer (.zstdDecompress context capacity source) s = (.ok reply, s')
  unpacked : ∀ {context capacity : Nat} {source : Source} {s s' : σ} {reply : Written Nat},
    source.content = data →
      L.answer (.zstdDecompress context capacity source) s = (.ok reply, s') →
      Unpacked reader data capacity reply

variable {σ : Type} {L : Libraries σ} {reader : Reader} {data : Bytes} {w : World σ}
  {d : Decompressor} {input output : Argument}

private theorem unpacked_runZstdDecompress (data : Bytes) (capacity : Nat) :
    Unpacked entropyReader data capacity (runZstdDecompress data capacity) := by
  unfold runZstdDecompress
  by_cases hframes : ∃ contents, Consists entropyReader data contents
  · obtain ⟨contents, hframes⟩ := hframes
    have hdecode := decode_of_consists hframes capacity
    by_cases hfit : contents.flatten.length ≤ capacity
    · rw [hdecode, if_pos hfit]
      have hwhole := @Unpacked.whole _ _ capacity _ [] hframes (by rwa [List.append_nil])
      rwa [List.append_nil] at hwhole
    · rw [hdecode, if_neg hfit]
      exact .short hframes (Nat.not_le.mp hfit)
  · cases hd : decode capacity data with
    | error f => exact .wrong (not_exists.mp hframes) f.isError_word
    | ok out => exact absurd (consists_of_decode hd) hframes

theorem Unpacks.system (snappy : Except Error Constants) {data : Bytes}
    (hb : data.length < countLimit) : Unpacks (system snappy) entropyReader data where
  answers context capacity source s hlength hcontent hcapacity := by
    have hfits : (Call.zstdDecompress context capacity source).fits = true := by
      simp only [Call.fits, fitsSize_of_lt hcapacity, fitsSize_of_lt (hlength ▸ hb), Bool.and_self]
    exact ⟨_, s, answer_system_of_fits hfits s⟩
  unpacked {context capacity source s s' reply} hcontent h := by
    cases hfits : (Call.zstdDecompress context capacity source).fits with
    | false => exact absurd ((answer_system_of_not_fits hfits s).symm.trans h) (by simp)
    | true =>
      obtain ⟨hreply, -⟩ := Prod.mk.inj ((answer_system_of_fits hfits s).symm.trans h)
      rw [← Except.ok.inj hreply, ← hcontent]
      exact unpacked_runZstdDecompress source.content capacity

theorem Unpacked.of_fits {capacity : Nat} {reply : Written Nat} {contents : List Bytes}
    (h : Unpacked reader data capacity reply) (hc : Consists reader data contents)
    (hfit : contents.flatten.length ≤ capacity) :
    ∃ spill, reply = ⟨contents.flatten.length, contents.flatten ++ spill⟩ ∧
      (contents.flatten ++ spill).length ≤ capacity := by
  cases h with
  | @whole found spill frames fits =>
    obtain rfl := frames.unique hc
    exact ⟨spill, rfl, fits⟩
  | short frames lack =>
    obtain rfl := frames.unique hc
    exact absurd hfit (Nat.not_le.mpr lack)
  | wrong none error => exact absurd hc (none _)

private theorem Unpacked.of_lack {capacity : Nat} {reply : Written Nat} {contents : List Bytes}
    (h : Unpacked reader data capacity reply) (hc : Consists reader data contents)
    (hlack : capacity < contents.flatten.length) :
    reply.result = Fault.destinationTooSmall.word := by
  cases h with
  | whole frames fits =>
    obtain rfl := frames.unique hc
    rw [List.length_append] at fits
    omega
  | short frames lack => rfl
  | wrong none error => exact absurd hc (none _)

theorem Unpacked.of_not_error {capacity : Nat} {reply : Written Nat}
    (h : Unpacked reader data capacity reply) (he : isError reply.result = false) :
    ∃ contents spill, Consists reader data contents ∧
      reply = ⟨contents.flatten.length, contents.flatten ++ spill⟩ ∧
      (contents.flatten ++ spill).length ≤ capacity := by
  cases h with
  | @whole contents spill frames fits => exact ⟨contents, spill, frames, rfl, fits⟩
  | short frames lack => exact absurd he (by simp [Fault.isError_word])
  | wrong none error => exact absurd he (by simp [error])

theorem run_decompressRange {src dst : Range} {handle : Nat} {reply : Written Nat} {s : σ}
    (h : L.answer (.zstdDecompress handle dst.length
      ⟨src.length, w.memory.read? src.start src.length⟩) w.libraries = (.ok reply, s)) :
    ∃ w', (decompressRange L handle src dst).run w =
        (sized L "decompression" reply.result true).run w' ∧
      w'.memory = w.memory.write dst.start (reply.bytes.take dst.length) := by
  unfold decompressRange
  rw [Op.run_bind_ok (Op.run_source w src), Op.run_bind_ok (Op.run_call_ok h),
    Op.run_bind_ok (Op.run_store _ _ _ _)]
  exact ⟨_, rfl, rfl⟩

private theorem decompressRange_eq_ok {src dst : Range} {handle m : Nat}
    (h : ((decompressRange L handle src dst).run w).1 = .ok m) :
    ∃ (reply : Written Nat) (s : σ), L.answer (.zstdDecompress handle dst.length
        ⟨src.length, w.memory.read? src.start src.length⟩) w.libraries = (.ok reply, s) ∧
      isError reply.result = false ∧ reply.result = m ∧
      ((decompressRange L handle src dst).run w).2.memory =
        w.memory.write dst.start (reply.bytes.take dst.length) := by
  rcases ha : L.answer (.zstdDecompress handle dst.length
      ⟨src.length, w.memory.read? src.start src.length⟩) w.libraries with ⟨e | reply, s⟩
  · unfold decompressRange at h
    rw [Op.run_bind_ok (Op.run_source w src), Op.run_bind_error (Op.run_call_error ha)] at h
    exact absurd h (by simp)
  · obtain ⟨w', hrun, hmem⟩ := run_decompressRange ha
    rw [hrun] at h ⊢
    cases he : isError reply.result with
    | true =>
      obtain ⟨w'', hfault, -⟩ := run_sized_error (L := L) he "decompression" true w'
      rw [hfault] at h
      exact absurd h (by simp)
    | false =>
      rw [run_sized he] at h ⊢
      exact ⟨reply, s, rfl, he, Except.ok.inj h, hmem⟩

theorem run_decompress_ranges {src dst : Range} (handle : Nat) (hd : dst.readOnly = false)
    (w : World σ) :
    (Decompressor.decompress L ⟨some (owner .decompression handle)⟩ (.range src)
      (.range dst)).run w = (decompressRange L handle src dst).run w := by
  have hinput : (Op.input (.range src)).run w = (.ok src, w) := rfl
  have houtput : (Op.output (.range dst)).run w = (.ok dst, w) := by
    change (Range.writable? dst, w) = _
    rw [Range.writable?, if_neg (by simp [hd])]
  unfold Decompressor.decompress
  rw [Op.run_bind_ok hinput, Op.run_bind_ok houtput]
  rfl

section Within

private theorem within_open {α : Type} {d : Direction} {c : Context} (hc : c.released = false)
    (body : Nat → Op σ α) : within L d (some c) body = body c.handle := by
  have huse : c.use = .ok c.handle := by
    rw [Context.use, if_neg (by simp [hc])]
  unfold within
  dsimp only
  rw [huse]
  rfl

private theorem exists_of_within {α : Type} {d : Direction} {context : Option Context}
    {body : Nat → Op σ α} {a : α} (h : ((within L d context body).run w).1 = .ok a) :
    ∃ handle w₁, w₁.memory = w.memory ∧ ((body handle).run w₁).1 = .ok a ∧
      ((within L d context body).run w).2.memory = ((body handle).run w₁).2.memory := by
  cases context with
  | some c =>
    cases hc : c.released with
    | true =>
      have huse : (Op.ofExcept c.use : Op σ Nat).run w = (.error (.contextReleased c.kind), w) := by
        rw [Op.run_ofExcept, Context.use, if_pos hc]
      unfold within at h
      rw [Op.run_bind_error huse] at h
      exact absurd h (by simp)
    | false =>
      rw [within_open hc] at h ⊢
      exact ⟨c.handle, w, rfl, h, rfl⟩
  | none =>
    unfold within withContext at h ⊢
    rcases hacquire : (acquire L d).run w with ⟨e | c, w₁⟩
    · rw [Op.run_bind_error hacquire] at h
      exact absurd h (by simp)
    · rw [Op.run_bind_ok hacquire, Op.run_ensuring] at h ⊢
      refine ⟨c.handle, w₁, ((quiet_acquire d).still hacquire).memory_eq, ?_,
        (quiet_free d c.handle _).memory_eq⟩
      dsimp only at h
      cases hfree : ((free L d c.handle).run ((body c.handle).run w₁).2).1 with
      | error e =>
        rw [hfree] at h
        exact absurd h (by simp [Except.bind])
      | ok u =>
        rw [hfree] at h
        exact h

private theorem run_within {α : Type} {d : Direction} (hL : Lends L d) {context : Option Context}
    (hc : isClosed context = false) (body : Nat → Op σ α) (w : World σ) :
    ∃ handle w₁, w₁.memory = w.memory ∧
      ((within L d context body).run w).1 = ((body handle).run w₁).1 ∧
      ((within L d context body).run w).2.memory = ((body handle).run w₁).2.memory := by
  cases context with
  | none =>
    obtain ⟨handle, w₁, -, hmem, hrun⟩ := run_withContext hL body w
    exact ⟨handle, w₁, hmem, hrun⟩
  | some c =>
    rw [within_open hc]
    exact ⟨c.handle, w, rfl, rfl, rfl⟩

end Within

/-- The library writes no more of these bytes than it says. -/
def WritesCounted (L : Libraries σ) (data : Bytes) : Prop :=
  ∀ (context capacity : Nat) (source : Source) (s s' : σ) (reply : Written Nat),
    source.content = data → L.answer (.zstdDecompress context capacity source) s = (.ok reply, s') →
      isError reply.result = false → reply.bytes.length = reply.result

/-- Decompression of bytes that are shown comes to something just where they are frames. -/
theorem consists_of_decompress (hL : Unpacks L reader data) (hi : input.Shows w.memory data)
    {m : Nat}
    (hm : ((d.decompress L input output).run w).1 = .ok m) :
    ∃ contents spill dst, Consists reader data contents ∧ contents.flatten.length = m ∧
      isError m = false ∧ (WritesCounted L data → spill = []) ∧
      output.destination? w.memory = .ok dst ∧ (contents.flatten ++ spill).length ≤ dst.length ∧
      ((d.decompress L input output).run w).2.memory =
        w.memory.write dst.start (contents.flatten ++ spill) := by
  obtain ⟨src, hsrc, hs⟩ := hi
  unfold Decompressor.decompress at hm ⊢
  rw [Op.run_bind_ok (by rw [Op.run_input, hsrc])] at hm ⊢
  cases hdst : output.destination? w.memory with
  | error e =>
    rw [Op.run_bind_error (by rw [Op.run_output, hdst])] at hm
    exact absurd hm (by simp)
  | ok dst =>
    rw [Op.run_bind_ok (by rw [Op.run_output, hdst])] at hm ⊢
    obtain ⟨handle, w₁, hmem₁, hrun, hmem⟩ := exists_of_within hm
    rw [← hmem₁] at hs
    obtain ⟨reply, s, hanswer, herror, hresult, hwritten⟩ := decompressRange_eq_ok hrun
    obtain ⟨contents, spill, hframes, rfl, hfit⟩ :=
      (hL.unpacked hs.content hanswer).of_not_error herror
    refine ⟨contents, spill, dst, hframes, hresult, hresult ▸ herror, fun hcounted => ?_, rfl, hfit,
      ?_⟩
    · have hlength := hcounted _ _ _ _ _ _ hs.content hanswer herror
      dsimp only at hlength
      rw [List.length_append] at hlength
      exact List.length_eq_zero_iff.mp (by omega)
    · rw [hmem, hwritten, hmem₁, List.take_of_length_le hfit]

/-- What data decompress to: into a destination that is large enough they are written to its start,
and any other destination is too small. -/
def Decompresses (L : Libraries σ) (data out : Bytes) : Prop :=
  ∀ (w : World σ) (d : Decompressor) (input output : Argument) (space : Bytes),
    isClosed d.context = false → input.Shows w.memory data → output.Takes w.memory space →
    (out.length ≤ space.length →
      ((d.decompress L input output).run w).1 = .ok out.length ∧
      ∃ rest, (out ++ rest).length = space.length ∧
        output.Takes ((d.decompress L input output).run w).2.memory (out ++ rest)) ∧
    (space.length < out.length →
      ∃ e, ((d.decompress L input output).run w).1 = .error e ∧ e.kind = .bufferTooSmall)

/-- Data that decompress into no destination. -/
def Refused (L : Libraries σ) (data : Bytes) : Prop :=
  ∀ (w : World σ) (d : Decompressor) (input output : Argument) (n : Nat),
    input.Shows w.memory data → ((d.decompress L input output).run w).1 ≠ .ok n

theorem decompresses_of_consists (hL : Unpacks L reader data) (hlends : Lends L .decompression)
    {contents : List Bytes} (hc : Consists reader data contents) :
    Decompresses L data contents.flatten := by
  intro w d input output space hd hi ho
  obtain ⟨src, hsrc, hs⟩ := hi
  obtain ⟨dst, hdst, hspace⟩ := ho
  unfold Decompressor.decompress
  rw [Op.run_bind_ok (by rw [Op.run_input, hsrc]), Op.run_bind_ok (by rw [Op.run_output, hdst])]
  obtain ⟨handle, w₁, hmem₁, hrun, hkept⟩ :=
    run_within hlends hd (fun context => decompressRange L context src dst) w
  rw [← hmem₁] at hs
  obtain ⟨reply, s, hanswer⟩ := hL.answers handle dst.length w₁.libraries hs.length_eq hs.content
    hspace.length_lt
  have hreply := hL.unpacked hs.content hanswer
  obtain ⟨w₂, hdone, hmem₂⟩ := run_decompressRange hanswer
  rw [hrun, hkept, hdone, ← hspace.length_eq]
  constructor
  · intro hfit
    obtain ⟨spill, rfl, hwithin⟩ := hreply.of_fits hc hfit
    have hword := isError_of_lt (Nat.lt_of_le_of_lt hfit hspace.length_lt)
    have hlength := hspace.length_eq ▸ hwithin
    rw [run_sized hword, hmem₂, List.take_of_length_le hwithin, hmem₁]
    refine ⟨rfl, spill ++ space.drop (contents.flatten ++ spill).length, ?_, ?_⟩
    · rw [← List.append_assoc, List.length_append, List.length_drop, hspace.length_eq]
      omega
    · rw [← List.append_assoc]
      exact Argument.takes_write hdst hspace hlength
  · intro hlack
    have hword := hreply.of_lack hc hlack
    obtain ⟨w₃, hfault, -⟩ := run_sized_error (L := L) Fault.destinationTooSmall.isError_word
      "decompression" true w₂
    rw [hword, hfault]
    exact ⟨_, rfl, rfl⟩

end NativeCodec.Codec.Zstd
