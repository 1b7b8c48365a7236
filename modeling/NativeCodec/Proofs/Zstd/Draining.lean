import NativeCodec.Proofs.Memory.Content
import NativeCodec.Proofs.Zstd.Contexts
import NativeCodec.Proofs.Zstd.Streamed

set_option autoImplicit false
set_option relaxedAutoImplicit false

namespace NativeCodec

namespace Codec.Zstd

open Native NativeCodec.Zstd

/-- Whether a call took input or gave output. -/
def Moves (position : Nat) (reply : Advanced) : Prop :=
  reply.consumed ≠ position ∨ reply.written ≠ 0

/-- What a call of a stream decoder can come to in the frame that starts at some place: it takes the
frame to its end, goes some way on in it, refuses it, or finds too little of it. `Next` says of a
start and a position, the calls left and the state where the decoder is after the call. -/
inductive Turned {σ : Type} (reader : Reader) (room : Nat) (data : Bytes)
    (Next : Nat → Nat → Nat → σ → Prop) (start position turns : Nat) (reply : Advanced) (s : σ) :
    Prop
  | ends {content rest : Bytes} (taken : Taken reader room (data.drop start) content rest)
      (word : reply.word = 0) (moves : Moves position reply)
      (consumed : reply.consumed = data.length - rest.length)
      (next : ∃ turns' < turns, Next reply.consumed reply.consumed turns' s)
  | goes (word : reply.word ≠ 0) (sound : isError reply.word = false) (moves : Moves position reply)
      (next : ∃ turns' < turns, Next start reply.consumed turns' s)
  | refuses (untaken : ∀ content rest, ¬Taken reader room (data.drop start) content rest)
      (error : isError reply.word = true) (code : errorCode reply.word ≠ allocationCode)
  | lacks (untaken : ∀ content rest, ¬Taken reader room (data.drop start) content rest)
      (word : reply.word ≠ 0) (sound : isError reply.word = false) (still : ¬Moves position reply)

/-- The library's stream decoder takes the frames of some bytes, in any context that was just
created and with some room: those that are not lax and whose matches are near. `At` says of a
context, the start of a frame, a position, a number of calls and a state that the decoder is at the
position inside of the frame, and that fewer calls than that are left. -/
structure Reads {σ : Type} (L : Libraries σ) (reader : Reader) (room : Nat) (data : Bytes)
    (At : Nat → Nat → Nat → Nat → σ → Prop) : Prop where
  scratch : ∀ s, ∃ s' : σ, L.answer .zstdStreamRoom s = (.ok room, s')
  opens : ∀ (handle : Nat) (s s' : σ),
    L.answer (.createContext .decompression) s = (.ok (some handle), s') →
      ∃ turns < data.length + L.patience, At handle 0 0 turns s'
  turn : ∀ {handle start position turns : Nat} {source : Source} {s : σ},
    At handle start position turns s → source.length = data.length → source.content = data →
    ¬Lax reader (data.drop start) → Near reader room (data.drop start) →
      ∃ (reply : Advanced) (s' : σ),
        L.answer (.zstdStream handle room 0 source position) s = (.ok reply, s') ∧
        Turned reader room data (At handle) start position turns reply s'

section Drain

variable {σ : Type} {L : Libraries σ} {reader : Reader} {room : Nat} {data : Bytes}
  {At : Nat → Nat → Nat → Nat → σ → Prop} {handle start position turns patience : Nat}
  {source : Source} {site : Site} {w : World σ}

private theorem run_drainFrom_succ {reply : Advanced} {w' : World σ}
    (hrun : (Op.call L (.zstdStream handle room 0 source position) site : Op σ Advanced).run w =
      (.ok reply, w')) (hword : isError reply.word = false) :
    (drainFrom L handle room source site (patience + 1) position).run w =
      if reply.word = 0 ∧ reply.consumed = source.length then (.ok true, w')
      else if reply.consumed = position ∧ reply.written = 0 then (.ok false, w')
      else (drainFrom L handle room source site patience reply.consumed).run w' := by
  rw [drainFrom, Op.run_bind_ok (α := Advanced) hrun, if_neg (Bool.eq_false_iff.mp hword),
    Op.run_ite, Op.run_ite]
  rfl

private theorem run_drainFrom (hL : Reads L reader room data At)
    (hsound : ∀ ahead ∈ frameStarts data, ¬Lax reader ahead ∧ Near reader room ahead)
    (hlength : source.length = data.length) (hcontent : source.content = data)
    (hstart : data.drop start ∈ frameStarts data) (hat : At handle start position turns w.libraries)
    (hp : turns < patience) :
    ∃ valid, ((drainFrom L handle room source site patience position).run w).1 = .ok valid ∧
      (valid = true ↔ Drains reader room (data.drop start)) := by
  -- every call that goes on leaves fewer calls to make
  induction patience generalizing start position turns w with
  | zero => exact absurd hp (Nat.not_lt_zero _)
  | succ patience ih =>
    obtain ⟨hlax, hnear⟩ := hsound _ hstart
    obtain ⟨reply, s, hanswer, hturn⟩ := hL.turn hat hlength hcontent hlax hnear
    obtain ⟨w', hrun, -, rfl⟩ := Op.exists_run_call site hanswer
    cases hturn with
    | @ends content rest taken word moves consumed next =>
      obtain ⟨turns', hturns, hnext⟩ := next
      have hafter := taken.afterFrame_eq hlax
      have hsuffix := (afterFrame_suffix hafter).trans (List.drop_suffix start data)
      rw [run_drainFrom_succ hrun (by rw [word]; rfl)]
      by_cases hend : rest = []
      · subst hend
        rw [if_pos ⟨word, by rw [consumed, hlength]; rfl⟩]
        exact ⟨true, rfl, iff_of_true rfl (.last taken)⟩
      · have hpositive := List.length_pos_iff.mpr hend
        have hle := hsuffix.length_le
        have hdrop : data.drop reply.consumed = rest := by
          rw [consumed]
          exact (List.suffix_iff_eq_drop.mp hsuffix).symm
        rw [if_neg (by omega), if_neg (by unfold Moves at moves; omega),
          taken.drains_iff hlax hend, ← hdrop]
        refine ih ?_ hnext (by omega)
        rw [hdrop]
        exact mem_frameStarts_of_afterFrame hstart hafter hend
    | goes word sound moves next =>
      obtain ⟨turns', hturns, hnext⟩ := next
      rw [run_drainFrom_succ hrun sound, if_neg (fun h => word h.1),
        if_neg (by unfold Moves at moves; omega)]
      exact ih hstart hnext (by omega)
    | refuses untaken error code =>
      rw [drainFrom, Op.run_bind_ok (α := Advanced) hrun, if_pos error]
      dsimp only
      rw [if_neg code]
      exact ⟨false, rfl, iff_of_false (by simp) (not_drains untaken)⟩
    | lacks untaken word sound still =>
      rw [run_drainFrom_succ hrun sound, if_neg (fun h => word h.1),
        if_pos (by unfold Moves at still; omega)]
      exact ⟨false, rfl, iff_of_false (by simp) (not_drains untaken)⟩

theorem run_validate_nil {input : Argument} (hi : input.Shows w.memory []) :
    ((validate L input).run w).1 = .ok false := by
  obtain ⟨src, hinput, hs⟩ := Op.run_input_of_shows hi
  unfold validate validateRange
  rw [Op.run_bind_ok hinput, if_pos (hs.length_eq.trans List.length_nil)]
  rfl

theorem run_validate {input : Argument} (hL : Reads L reader room data At)
    (hlends : Lends L .decompression) (hroom : room < w.memory.room)
    (hi : input.Shows w.memory data)
    (hsound : ∀ ahead ∈ frameStarts data, ¬Lax reader ahead ∧ Near reader room ahead) :
    ∃ valid, ((validate L input).run w).1 = .ok valid ∧
      (valid = true ↔ Drains reader room data) := by
  by_cases hempty : data = []
  · subst hempty
    exact ⟨false, run_validate_nil hi,
      iff_of_false (by simp) (not_drains fun _ _ h => h.ne_nil rfl)⟩
  obtain ⟨src, hinput, hs⟩ := Op.run_input_of_shows hi
  have hfilled : src.length ≠ 0 := fun h => hempty (List.length_eq_zero_iff.mp (hs.length_eq ▸ h))
  obtain ⟨s, hscratch⟩ := hL.scratch w.libraries
  obtain ⟨w₁, hcall, hmem₁, -⟩ := Op.exists_run_call {} hscratch
  have hcheck : (Op.checkSize room).run w₁ = (.ok room, w₁) :=
    Prod.ext (Memory.checkSize_of_lt (hmem₁ ▸ hroom)) rfl
  unfold validate validateRange
  rw [Op.run_bind_ok hinput, if_neg hfilled, Op.run_bind_ok (α := Nat) hcall,
    Op.run_bind_ok hcheck]
  obtain ⟨handle, w₂, hcreate, hmem₂, hrun, -⟩ := run_withContext hlends
    (fun context => do
      let source ← Op.source src
      if wordLimit ≤ source.length then throw .tooLarge
      drainFrom L context room source ⟨some src.start, none⟩ (source.length + L.patience) 0) w₁
  rw [← hmem₁, ← hmem₂] at hs
  obtain ⟨turns, hturns, hat⟩ := hL.opens handle _ _ hcreate
  have hcountable := hs.length_lt
  rw [hrun, Op.run_bind_ok (Op.run_source w₂ src),
    if_neg (by unfold countLimit at hcountable; unfold wordLimit; dsimp only; omega)]
  have hdrain := @run_drainFrom σ L reader room data At handle 0 0 turns
    (src.length + L.patience) (sourceOf w₂.memory src) ⟨some src.start, none⟩ w₂ hL hsound
    hs.length_eq hs.content (mem_frameStarts hempty) hat (hs.length_eq ▸ hturns)
  exact hdrain

end Drain

section System

variable {room : Nat} {data pending : Bytes}

/-- Where the system's stream decoder is: at the start of a frame, handing out the content of a
frame that it has taken, or behind the input, of which it has found too little. -/
inductive StreamAt (data : Bytes) (handle start position turns : Nat) (s : Contexts) : Prop
  | fresh (stream : s.stream handle = ⟨[]⟩) (here : position = start)
      (calls : (data.drop start).length < turns)
  | holds {content rest pending : Bytes} {calls : Nat}
      (taken : Taken entropyReader maxBlock (data.drop start) content rest)
      (stream : s.stream handle = ⟨pending⟩) (some : pending ≠ [])
      (here : position = data.length - rest.length) (count : pending.length ≤ maxBlock * calls)
      (left : rest.length + calls < turns)
  | behind (untaken : ∀ content rest, ¬Taken entropyReader maxBlock (data.drop start) content rest)
      (stream : s.stream handle = ⟨[]⟩) (here : position = data.length)

private theorem answer_stream {snappy : Except Error Constants} {handle position : Nat}
    {source : Source} {s : Contexts} {progress : Progress} {later : Stream}
    (hstream : s.stream handle = ⟨pending⟩)
    (hcall : Stream.call ⟨pending⟩ room (source.content.drop position) = (progress, later)) :
    (system snappy).answer (.zstdStream handle room 0 source position) s =
      (.ok ⟨progress.result, progress.produced, position + progress.consumed⟩,
        s.setStream handle later) := by
  rw [answer_system_of_fits rfl, systemReply, hstream, Nat.sub_zero, hcall]
  simp only [Nat.zero_add]

private theorem turned_of_handOut {content pending rest : Bytes} {taken : Nat}
    {handle start position turns : Nat} (calls : Nat) {s : Contexts} {progress : Progress}
    {later : Stream}
    (ht : Taken entropyReader maxBlock (data.drop start) content rest)
    (hout : Stream.handOut pending taken maxBlock = (progress, later))
    (hmoves : 0 < taken ∨ pending ≠ []) (hsuffix : rest <:+ data)
    (hposition : position + taken = data.length - rest.length)
    (hcount : pending.length ≤ maxBlock * (calls + 1)) (hleft : rest.length + calls + 1 < turns) :
    Turned entropyReader maxBlock data (StreamAt data handle) start position turns
      ⟨progress.result, progress.produced, position + progress.consumed⟩
      (s.setStream handle later) := by
  rw [Stream.handOut, List.splitAt_eq] at hout
  obtain ⟨rfl, rfl⟩ := Prod.mk.inj hout
  have hpositive : 0 < maxBlock := by decide
  have hmoved : Moves position ⟨if (pending.drop maxBlock).isEmpty then 0 else unfinished,
      (pending.take maxBlock).length, position + taken⟩ := by
    rcases hmoves with htaken | hsome
    · exact .inl (show position + taken ≠ position by omega)
    · have hlength := List.length_pos_iff.mpr hsome
      refine .inr (show (pending.take maxBlock).length ≠ 0 from ?_)
      rw [List.length_take]
      omega
  have hdrop : data.drop (position + taken) = rest := by
    rw [hposition]
    exact (List.suffix_iff_eq_drop.mp hsuffix).symm
  by_cases hend : pending.drop maxBlock = []
  · rw [hend] at hmoved ⊢
    refine .ends ht rfl hmoved hposition ⟨rest.length + 1, by omega, .fresh ?_ rfl ?_⟩
    · exact Contexts.stream_setStream s handle _
    · rw [hdrop]
      omega
  · have hflag : (pending.drop maxBlock).isEmpty = false := List.isEmpty_eq_false_iff.mpr hend
    rw [hflag] at hmoved ⊢
    refine .goes (show unfinished ≠ 0 by decide) (show isError unfinished = false by decide) hmoved
      ⟨rest.length + calls + 1, hleft, .holds ht (Contexts.stream_setStream s handle _) hend
        hposition ?_ (Nat.lt_succ_self _)⟩
    rw [List.length_drop]
    rw [Nat.mul_succ] at hcount
    omega

private theorem turned_of_lack {handle start position turns : Nat} {s : Contexts}
    (huntaken : ∀ content rest, ¬Taken entropyReader maxBlock (data.drop start) content rest)
    (hturns : data.drop position ≠ [] → 0 < turns) :
    Turned entropyReader maxBlock data (StreamAt data handle) start position turns
      ⟨unfinished, 0, position + (data.drop position).length⟩ (s.setStream handle ⟨[]⟩) := by
  have hword : unfinished ≠ 0 := by decide
  have hsound : isError unfinished = false := by decide
  by_cases hend : data.drop position = []
  · refine .lacks huntaken hword hsound ?_
    rintro (hmoved | hmoved)
    · exact hmoved (by rw [hend]; rfl)
    · exact hmoved rfl
  · have hlength := List.length_pos_iff.mpr hend
    have hmoved : position + (data.drop position).length ≠ position := by omega
    refine .goes hword hsound (.inl hmoved) ⟨0, hturns hend, .behind huntaken ?_ ?_⟩
    · exact Contexts.stream_setStream s handle _
    · change position + (data.drop position).length = data.length
      rw [List.length_drop] at hlength ⊢
      omega

private theorem Fault.code_ne_allocationCode (f : Fault) : f.code ≠ allocationCode := by
  cases f <;> decide

theorem Reads.system (snappy : Except Error Constants) (data : Bytes) :
    Reads (system snappy) entropyReader maxBlock data (StreamAt data) where
  scratch s := ⟨s, answer_system_of_fits rfl s⟩
  opens handle s s' h := by
    obtain ⟨hhandle, rfl⟩ := Prod.mk.inj ((answer_system_of_fits rfl s).symm.trans h)
    obtain rfl : s.created + 1 = handle := Option.some.inj (Except.ok.inj hhandle)
    refine ⟨data.length + 1, Nat.add_lt_add_left (show 1 < manyCalls by decide) _, .fresh ?_ rfl ?_⟩
    · exact (s.stream_create _).trans (if_pos rfl)
    · exact Nat.lt_succ_self _
  turn {handle start position turns source s} hat hlength hcontent hlax hnear := by
    subst hcontent
    cases hat with
    | fresh stream here calls =>
      subst here
      cases hs : streamFrame maxBlock (source.content.drop position) with
      | error f =>
        refine ⟨_, _, answer_stream stream (Stream.call_of_error hs),
          .refuses (fun content rest h => ?_) f.isError_word ?_⟩
        · exact absurd (hs.symm.trans (streamFrame_eq_ok.mpr h)) (by simp)
        · rw [f.errorCode_word]
          exact Fault.code_ne_allocationCode f
      | ok frame =>
        cases frame with
        | none =>
          exact ⟨_, _, answer_stream stream (Stream.call_of_none hs), turned_of_lack
            (fun content rest h => absurd (hs.symm.trans (streamFrame_eq_ok.mpr h)) (by simp))
            fun _ => Nat.zero_lt_of_lt calls⟩
        | some taken =>
          obtain ⟨content, rest⟩ := taken
          have ht := streamFrame_eq_ok.mp hs
          have hafter := ht.afterFrame_eq hlax
          have hlt := afterFrame_length_lt hafter
          have hfits := ht.length_content_le (Nat.le_refl _) hlt
          have hcall := Stream.call_of_some hs
          have hdrop : (source.content.drop position).length = source.content.length - position :=
            List.length_drop
          rw [hdrop] at calls hlt hfits hcall
          refine ⟨_, _, answer_stream stream hcall, turned_of_handOut
            (source.content.length - position - rest.length - 1) ht rfl (.inl (by omega))
            ((afterFrame_suffix hafter).trans (List.drop_suffix position _)) (by omega) ?_
            (by omega)⟩
          rwa [Nat.sub_add_cancel (by omega)]
    | @holds content rest pending calls taken stream some here count left =>
      have hafter := taken.afterFrame_eq hlax
      have hmany : calls ≠ 0 := by
        rintro rfl
        exact some (List.length_eq_zero_iff.mp (Nat.le_zero.mp count))
      obtain ⟨fewer, rfl⟩ := Nat.exists_eq_succ_of_ne_zero hmany
      exact ⟨_, _, answer_stream stream (Stream.call_of_pending some _),
        turned_of_handOut fewer taken rfl (.inr some)
          ((afterFrame_suffix hafter).trans (List.drop_suffix start _)) here count (by omega)⟩
    | behind untaken stream here =>
      have hend : source.content.drop position = [] := by rw [here, List.drop_length]
      have hs : streamFrame maxBlock (source.content.drop position) = .ok none := by
        rw [hend]
        rfl
      exact ⟨_, _, answer_stream stream (Stream.call_of_none hs),
        turned_of_lack untaken fun hahead => absurd hend hahead⟩

end System

end Codec.Zstd

end NativeCodec
