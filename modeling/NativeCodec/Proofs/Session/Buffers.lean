import NativeCodec.Proofs.Session.Handling

/-!
Direct buffers of a session as files.

A name stands for a buffer that is like a file, in a session that went through any steps. Whatever
is done with the buffer, it answers like the file and is like it again afterwards (`refines_use`),
and so for any number of requests (`buffer_serves_as_file`).
-/

set_option autoImplicit false
set_option relaxedAutoImplicit false

namespace NativeCodec

open Native Session

variable {σ : Type}

/-- A name stands for a direct buffer whose bytes and cursor are those of a file. -/
def Session.Refines (s : Session σ) (name : String) (f : ByteFile) : Prop :=
  ∃ place b, s.names.lookup name = some place ∧ s.things[place]? = some (.direct b) ∧
    b.Refines s.world.memory f

/-- What is asked of a file by what is done with a buffer. An object that is handed over is made
first. -/
def Use.request (s : Session σ) : Use → ByteFile.Request
  | write d => .write
    (((Act.argument d).run s).1.bind fun a => a.flat? ((Act.argument d).run s).2.world.memory)
  | read count => .read count
  | readInto d => .readInto (((Act.argument d).run s).1.bind fun a =>
    DirectBuffer.over? ((Act.argument d).run s).2.world.memory a)
  | seek offset whence => .seek offset whence
  | contents => .contents

/-- What a file answers to requests in turn, and the file then. -/
def ByteFile.serves (f : ByteFile) : List Request → List (Except Error Answer) × ByteFile
  | [] => ([], f)
  | q :: rest =>
    let (answer, f) := f.serve q
    let (answers, f) := f.serves rest
    (answer :: answers, f)

private theorem ByteFile.length_serves (f : ByteFile) (requests : List Request) :
    (f.serves requests).2.content.length = f.content.length := by
  induction requests generalizing f with
  | nil => rfl
  | cons q rest ih => exact (ih _).trans (f.length_serve q)

namespace Act

/-- Uses a buffer again and again: what was asked, with the answers, and the session then. -/
def uses (name : String) (s : Session σ) :
    List Use → List (ByteFile.Request × Except Error ByteFile.Answer) × Session σ
  | [] => ([], s)
  | u :: rest =>
    let (answer, after) := (use name u).run s
    let (log, last) := uses name after rest
    ((u.request s, answer) :: log, last)

variable {s : Session σ} {name : String} {f : ByteFile}

/-- The file is asked what the operation asks that is meant; where none is meant, as there is no
object to hand over, the file refuses. -/
def Asked (f : ByteFile) (q : ByteFile.Request) :
    Except Error DirectBuffer.Operation × Session σ → Prop
  | (.ok op, s) => q = op.request s.world.memory
  | (.error e, _) => f.serve q = (.error e, f)

private theorem asked_operation (f : ByteFile) (u : Use) (s : Session σ) :
    Asked f (u.request s) ((operation u).run s) := by
  cases u with
  | write d =>
    unfold operation Use.request
    rw [run_bind_pure]
    dsimp only
    rcases (argument d).run s with ⟨e | a, s₁⟩
    · exact rfl
    · exact rfl
  | readInto d =>
    unfold operation Use.request
    rw [run_bind_pure]
    dsimp only
    rcases (argument d).run s with ⟨e | a, s₁⟩
    · exact rfl
    · exact rfl
  | read count => exact rfl
  | seek offset whence => exact rfl
  | contents => exact rfl

private theorem refines_of_prepared {s' : Session σ} (h : Prepared s s') (hf : s.Refines name f) :
    s'.Refines name f := by
  obtain ⟨place, b, hname, hthing, hb⟩ := hf
  obtain ⟨more, hstorages⟩ := h.storages
  refine ⟨place, b, ?_, h.thing_eq hthing, hb.append hstorages⟩
  rw [h.names]
  exact hname

/-- A buffer of a session answers like the file that it is, and is like it again afterwards. -/
theorem refines_use (hs : Laid s) (hf : s.Refines name f) (u : Use) :
    ((use name u).run s).1 = (f.serve (u.request s)).1 ∧
      ((use name u).run s).2.Refines name (f.serve (u.request s)).2 := by
  have hmeant := meant_operation u s (Prepared.refl hs)
  have hasked := asked_operation f u s
  obtain ⟨place, b, hname, hthing, hb⟩ := id hf
  rw [run_use hname hthing]
  rcases hop : (operation u).run s with ⟨e | op, s₁⟩
  · rw [hop] at hmeant hasked
    have hrefused : f.serve (u.request s) = (.error e, f) := hasked
    rw [hrefused]
    exact ⟨rfl, refines_of_prepared hmeant hf⟩
  · rw [hop] at hmeant hasked
    have hrequest : u.request s = op.request s₁.world.memory := hasked
    -- the object that was made has a storage of its own, behind those that the buffer knows
    obtain ⟨hprepared, hspares⟩ := hmeant
    obtain ⟨more, hstorages⟩ := hprepared.storages
    have hthing₁ := hprepared.thing_eq hthing
    have hname₁ : s₁.names.lookup name = some place := by rw [hprepared.names, hname]
    have hagrees := (hb.append hstorages).perform (hspares b (List.mem_of_getElem? hthing₁))
    rw [hrequest]
    dsimp only
    cases hperform : b.perform s₁.world.memory op with
    | error e =>
      rw [hperform] at hagrees
      exact ⟨hagrees.1.symm, place, b, hname₁, hthing₁, hagrees.2⟩
    | ok result =>
      obtain ⟨a, b', m⟩ := result
      rw [hperform] at hagrees
      refine ⟨hagrees.1.symm, place, b', hname₁, ?_, hagrees.2⟩
      exact List.getElem?_set_self (List.getElem?_eq_some_iff.mp hthing₁).1

private theorem refines_uses (hs : Laid s) (hf : s.Refines name f) (us : List Use) :
    let log := uses name s us
    let served := f.serves (log.1.map Prod.fst)
    log.1.map Prod.snd = served.1 ∧ log.2.Refines name served.2 ∧ Laid log.2 := by
  induction us generalizing s f with
  | nil => exact ⟨rfl, hf, hs⟩
  | cons u us ih =>
    obtain ⟨hanswer, hafter⟩ := refines_use hs hf u
    obtain ⟨hanswers, hlast, hlaid⟩ := ih (laid_use name u s hs) hafter
    exact ⟨congr (congrArg List.cons hanswer) hanswers, hlast, hlaid⟩

private theorem observe_of_refines (hf : s.Refines name f) :
    cursor? s name = some f.cursor ∧ (directBytes name).run s = (.ok f.content, s) := by
  obtain ⟨place, b, hname, hthing, hb⟩ := hf
  constructor
  · unfold cursor?
    rw [hname, Option.bind_some, hthing]
    exact congrArg some hb.position_eq
  · unfold directBytes
    rw [run_bind_ok (run_direct hname hthing), run_bind_ok (run_memory s)]
    exact congrArg (fun bytes => (Except.ok bytes, s)) hb.content_eq

private theorem refines_newDirect {L : Libraries σ} {s' : Session σ} {b : DirectBuffer} {size : Int}
    (h : (newDirect L name size).run s = (.ok b, s')) : s'.Refines name (.blank size.toNat) := by
  let gone : Session σ := s.forget L name
  unfold newDirect at h
  rw [run_bind_ok (run_forget name s), run_bind_ok (run_memory gone)] at h
  cases hcreate : DirectBuffer.create gone.world.memory size with
  | error e =>
    have hrun : (ofExcept (.error e) : Act σ (DirectBuffer × Memory)).run gone = (.error e, gone) :=
      rfl
    rw [hcreate, run_bind_error hrun] at h
    exact absurd (congrArg Prod.fst h) (by simp)
  | ok result =>
    rw [hcreate] at h
    obtain ⟨b', m⟩ := result
    let more : Session σ := { gone.withMemory m with things := gone.things ++ [.direct b'] }
    have hfree : more.names.lookup name = none := lookup_forget s name
    have hs' : s' = { more with names := (name, gone.things.length) :: more.names } := by
      rw [← assign_of_lookup_eq_none (L := L) hfree]
      exact (congrArg Prod.snd h).symm
    subst hs'
    refine ⟨gone.things.length, b', List.lookup_cons_self, ?_, DirectBuffer.refines_create hcreate⟩
    exact List.getElem?_concat_length

end Act

open Act

/-- In a session that went through any steps, a new buffer of some size is like a file of that many
zeros: whatever is asked of it however often, it gives the answers of the file and has its bytes and
its cursor. Whoever asks in vain finds the bytes and the cursor as they were. -/
theorem buffer_serves_as_file (L : Libraries σ) (around : Surroundings) (l : σ)
    (steps : List Handling) (name : String) (size : Int) :
    let s := steps.foldl (Handling.run L) (start around l)
    ∀ b s', (newDirect L name size).run s = (.ok b, s') → ∀ us : List Use,
      let log := uses name s' us
      let served := (ByteFile.blank size.toNat).serves (log.1.map Prod.fst)
      log.1.map Prod.snd = served.1 ∧ served.2.content.length = size.toNat ∧
      cursor? log.2 name = some served.2.cursor ∧
      (directBytes name).run log.2 = (.ok served.2.content, log.2) ∧
      ∀ u e, ((use name u).run log.2).1 = .error e →
        let after := ((use name u).run log.2).2
        cursor? after name = some served.2.cursor ∧
          (directBytes name).run after = (.ok served.2.content, after) := by
  intro s
  have hs : Laid s := (laid_start around l).run steps
  intro b s' hrun us
  have hblank := refines_newDirect hrun
  have hs' : Laid s' := by
    have hlaid := laid_newDirect (L := L) name size s hs
    rw [hrun] at hlaid
    exact hlaid
  obtain ⟨hanswers, hrefines, hlaid⟩ := refines_uses hs' hblank us
  obtain ⟨hcursor, hbytes⟩ := observe_of_refines hrefines
  refine ⟨hanswers, ?_, hcursor, hbytes, fun u e hfails => ?_⟩
  · rw [ByteFile.length_serves]
    exact List.length_replicate
  · obtain ⟨hanswer, hafter⟩ := refines_use hlaid hrefines u
    rw [ByteFile.serve_error (hanswer.symm.trans hfails)] at hafter
    exact observe_of_refines hafter

/-- Three bytes are written into a buffer of five and then once more, which do not fit; from the
second byte on they are read back. -/
theorem buffer_serves_as_file_written :
    let L := system (.error .endless)
    let around : Surroundings :=
      { host := { marker := "__init__.py", moduleSuffix := ".py" }
        environment := []
        stem := "NATIVE"
        separator := ":"
        package := "native" }
    let data : Description := .view "bytes" [97, 98, 99] true false
    let s : Session Contexts := start around {}
    let s' := ((newDirect L "buffer" 5).run s).2
    let us : List Use := [.write data, .write data, .seek 1 0, .read (some 9)]
    let log := uses "buffer" s' us
    log.1.map Prod.snd = [.ok (.number 3), .error .writePastEnd, .ok (.number 1),
        .ok (.bytes [98, 99, 0, 0])] ∧
      cursor? log.2 "buffer" = some 5 ∧
      (directBytes "buffer").run log.2 = (.ok [97, 98, 99, 0, 0], log.2) := by
  intro L around data s s' us log
  have hanswers : ((ByteFile.blank (5 : Int).toNat).serves
      ((uses "buffer" s' us).1.map Prod.fst)).1 = [.ok (.number 3), .error .writePastEnd,
        .ok (.number 1), .ok (.bytes [98, 99, 0, 0])] := by decide +kernel
  have hcursor : ((ByteFile.blank (5 : Int).toNat).serves
      ((uses "buffer" s' us).1.map Prod.fst)).2.cursor = 5 := by decide +kernel
  have hcontent : ((ByteFile.blank (5 : Int).toNat).serves
      ((uses "buffer" s' us).1.map Prod.fst)).2.content = [97, 98, 99, 0, 0] := by decide +kernel
  have hmade : ((newDirect L "buffer" 5).run s).1 = .ok ⟨0, 5, 0, by decide⟩ := rfl
  have hlike := buffer_serves_as_file L around {} [] "buffer" 5 _ s' (Prod.ext hmade rfl) us
  refine ⟨hlike.1.trans hanswers, hlike.2.2.1.trans (congrArg some hcursor), ?_⟩
  have hbytes := hlike.2.2.2.1
  rw [hcontent] at hbytes
  exact hbytes

end NativeCodec
