import Mathlib.Algebra.GroupWithZero.Nat
import NativeCodec.Proofs.Zstd.Probe

/-!
The probe with any library.

The probe is a row of looks at the source (`Look`). A look asks for the content size at a position,
and then for the extent of the frame there, unless there is no size to add. It passes the frame if
it gets both, and the next look is right behind it (`Tiled`). The first look that does not pass, or
that passes to the end of the source, is the last and decides (`Probed`). All that is assumed of a
library is that it answers, and that a frame takes a byte at least and no more than is left
(`Sizing`); then there are no more looks than bytes, and no look is past the end
(`lengthOfRange_tiled`).
-/

set_option autoImplicit false
set_option relaxedAutoImplicit false

namespace NativeCodec.Codec.Zstd

open Native NativeCodec.Zstd

variable {σ : Type}

/-- A look at what is ahead of a position: the content size there, and the word for the extent of
the frame if that was asked for. -/
structure Look where
  position : Nat
  content : Nat
  extent : Option Nat

namespace Look

def advance (l : Look) : Nat := l.extent.getD 0

def Passes (l : Look) : Prop :=
  l.content < invalidSize ∧ ∃ n, l.extent = some n ∧ isError n = false

/-- There is something wrong with the frame: its header is invalid, or the word for its extent is an
error. -/
def Complains (L : Libraries σ) (e : Error) (l : Look) : Prop :=
  l.content = invalidSize ∧ e = .malformedHeader ∨
    ∃ word, l.extent = some word ∧ isError word = true ∧ e =
      failure "decompressed length calculation" (errorCode word) (L.errorName (errorCode word)) true

/-- The calls of a look, as they are kept, in their order. -/
def events (source : Source) (start : Pointer) (l : Look) : List Event :=
  .called (.zstdContentSize (source.drop l.position)) ⟨some (start.advance l.position), none⟩
      l.content ::
    l.extent.toList.map fun word : Nat =>
      .called (.zstdFrameSize (source.drop l.position)) ⟨some (start.advance l.position), none⟩ word

/-- The extent is asked for where there is a content size, and nowhere else. -/
def Asked (l : Look) : Prop := l.extent = none ↔ invalidSize ≤ l.content

def verdict (L : Libraries σ) (l : Look) : Except Error (Option Nat) :=
  if l.content = unknownSize then .ok none
  else
    match l.extent with
    | none => .error .malformedHeader
    | some word => .error (failure "decompressed length calculation" (errorCode word)
        (L.errorName (errorCode word)) true)

end Look

def Tiled : Nat → List Look → Prop
  | _, [] => True
  | position, l :: looks => l.position = position ∧ Tiled (position + l.advance) looks

def Closes (P : Look → Prop) (looks : List Look) : Prop :=
  ∃ before l, looks = before ++ [l] ∧ (∀ b ∈ before, b.Passes) ∧ P l

private theorem closes_singleton {P : Look → Prop} {l : Look} : Closes P [l] ↔ P l := by
  constructor
  · rintro ⟨before, l', heq, -, hP⟩
    obtain ⟨-, hl⟩ := List.append_inj' (show [] ++ [l] = before ++ [l'] from heq) rfl
    exact List.head_eq_of_cons_eq hl ▸ hP
  · exact fun h => ⟨[], l, rfl, fun b hb => absurd hb List.not_mem_nil, h⟩

private theorem closes_cons {P : Look → Prop} {l : Look} {looks : List Look} (hl : l.Passes)
    (hne : looks ≠ []) : Closes P (l :: looks) ↔ Closes P looks := by
  constructor
  · rintro ⟨before, last, heq, hbefore, hP⟩
    cases before with
    | nil => exact absurd (List.tail_eq_of_cons_eq heq) hne
    | cons b before =>
      exact ⟨before, last, List.tail_eq_of_cons_eq heq,
        fun c hc => hbefore c (List.mem_cons_of_mem b hc), hP⟩
  · rintro ⟨before, last, rfl, hbefore, hP⟩
    exact ⟨l :: before, last, rfl, List.forall_mem_cons.mpr ⟨hl, hbefore⟩, hP⟩

/-- A library that says of every part of a source what it records and how long its first frame is,
by a word each. A frame of which it can tell the extent takes a byte at least, where there is one,
and no more than is left. -/
structure Sizing (L : Libraries σ) (source : Source) : Prop where
  content : ∀ position s, position ≤ source.length → ∃ (n : Nat) (s' : σ),
    L.answer (.zstdContentSize (source.drop position)) s = (.ok n, s') ∧ n < wordLimit
  extent : ∀ position s, position ≤ source.length → ∃ (word : Nat) (s' : σ),
    L.answer (.zstdFrameSize (source.drop position)) s = (.ok word, s') ∧
      (isError word = false →
        min 1 (source.length - position) ≤ word ∧ word ≤ source.length - position)

/-- What a probe of so many bytes has made of its looks, the first at a position with a total from
before: each is at the end of the frame before it and none past the end, and the first that does not
pass decides. Otherwise all sizes are added. -/
structure Probed (L : Libraries σ) (length position total : Nat) (looks : List Look)
    (outcome : Except Error (Option Nat)) : Prop where
  nonempty : looks ≠ []
  few : looks.length ≤ max 1 (length - position)
  tiled : Tiled position looks
  inside : ∀ l ∈ looks, l.position < max 1 length
  asked : ∀ l ∈ looks, l.Asked
  adds : ∀ n, outcome = .ok (some n) ↔ (∀ l ∈ looks, l.Passes) ∧
    position + (looks.map Look.advance).sum = length ∧ n = total + (looks.map Look.content).sum
  unknown : outcome = .ok none ↔ Closes (·.content = unknownSize) looks
  complains : ∀ e, outcome = .error e ↔ Closes (Look.Complains L e) looks

section Looks

variable {L : Libraries σ} {source : Source} {length position total : Nat} {l : Look}

private theorem Look.stops_cases (hasked : l.Asked) (hword : l.content < wordLimit)
    (h : ¬ l.Passes) :
    (l.content = unknownSize ∧ l.extent = none) ∨ (l.content = invalidSize ∧ l.extent = none) ∨
      l.content < invalidSize ∧ ∃ word, l.extent = some word ∧ isError word = true := by
  cases hextent : l.extent with
  | none =>
    have hsize : invalidSize ≤ l.content := hasked.mp hextent
    have hlast : l.content = unknownSize ∨ l.content = invalidSize := by
      unfold unknownSize invalidSize wordLimit at *
      omega
    exact hlast.elim (fun hu => Or.inl ⟨hu, rfl⟩) fun hv => Or.inr (Or.inl ⟨hv, rfl⟩)
  | some word =>
    have hsize : l.content < invalidSize := Nat.lt_of_not_le fun hle =>
      absurd (hextent.symm.trans (hasked.mpr hle)) (by simp)
    have herror : isError word = true := by
      rw [← Bool.not_eq_false]
      exact fun hno => h ⟨hsize, word, hextent, hno⟩
    exact Or.inr (Or.inr ⟨hsize, word, rfl, herror⟩)

private theorem Look.verdict_of_not_passes (hasked : l.Asked) (hword : l.content < wordLimit)
    (h : ¬ l.Passes) : (∀ n, l.verdict L ≠ .ok (some n)) ∧
      (l.verdict L = .ok none ↔ l.content = unknownSize) ∧
      ∀ e, l.verdict L = .error e ↔ l.Complains L e := by
  have hne : unknownSize ≠ invalidSize := by decide
  unfold Look.verdict Look.Complains
  obtain ⟨hcontent, hextent⟩ | ⟨hcontent, hextent⟩ | ⟨hcontent, word, hextent, herror⟩ :=
    Look.stops_cases hasked hword h
  · rw [if_pos hcontent, hextent, hcontent]
    exact ⟨fun n hn => absurd hn (by simp), iff_of_true rfl rfl,
      fun e => iff_of_false (by simp) (by simp [hne])⟩
  · rw [if_neg (hcontent ▸ hne.symm), hextent, hcontent]
    refine ⟨fun n hn => absurd hn (by simp), iff_of_false (by simp) hne.symm, fun e => ?_⟩
    rw [Except.error.injEq]
    exact ⟨fun he => Or.inl ⟨rfl, he.symm⟩, fun he => he.elim (fun hv => hv.2.symm)
      fun ⟨_, hnone, _⟩ => absurd hnone (by simp)⟩
  · have hunknown : l.content ≠ unknownSize := by
      unfold unknownSize invalidSize at *
      omega
    rw [if_neg hunknown, hextent]
    refine ⟨fun n hn => absurd hn (by simp), iff_of_false (by simp) hunknown, fun e => ?_⟩
    rw [Except.error.injEq]
    constructor
    · exact fun he => Or.inr ⟨word, rfl, herror, he.symm⟩
    · rintro (⟨hinvalid, -⟩ | ⟨word', hsome, -, he⟩)
      · exact absurd hinvalid (Nat.ne_of_lt hcontent)
      · rw [he, Option.some.inj hsome]

private theorem Probed.stop (hposition : l.position = position) (hinside : position < max 1 length)
    (hasked : l.Asked) (hword : l.content < wordLimit) (h : ¬ l.Passes) :
    Probed L length position total [l] (l.verdict L) where
  nonempty := List.cons_ne_nil l []
  few := Nat.le_max_left 1 _
  tiled := ⟨hposition, trivial⟩
  inside := List.forall_mem_singleton.mpr (hposition ▸ hinside)
  asked := List.forall_mem_singleton.mpr hasked
  adds n := iff_of_false ((Look.verdict_of_not_passes hasked hword h).1 n)
    fun hall => h (List.forall_mem_singleton.mp hall.1)
  unknown := (Look.verdict_of_not_passes hasked hword h).2.1.trans
    (closes_singleton (P := (·.content = unknownSize))).symm
  complains e := ((Look.verdict_of_not_passes hasked hword h).2.2 e).trans closes_singleton.symm

private theorem Look.Passes.not_stops (h : l.Passes) :
    l.content ≠ unknownSize ∧ ∀ e, ¬ l.Complains L e := by
  obtain ⟨hsize, n, hextent, hno⟩ := h
  constructor
  · unfold unknownSize invalidSize at *
    omega
  · rintro e (⟨hinvalid, -⟩ | ⟨word, hword, herror, -⟩)
    · exact Nat.ne_of_lt hsize hinvalid
    · obtain rfl := Option.some.inj (hextent.symm.trans hword)
      exact absurd (hno.symm.trans herror) (by simp)

private theorem Probed.finish (hposition : l.position = position)
    (hinside : position < max 1 length)
    (hasked : l.Asked) (h : l.Passes) (hend : position + l.advance = length) :
    Probed L length position total [l] (.ok (some (total + l.content))) where
  nonempty := List.cons_ne_nil l []
  few := Nat.le_max_left 1 _
  tiled := ⟨hposition, trivial⟩
  inside := List.forall_mem_singleton.mpr (hposition ▸ hinside)
  asked := List.forall_mem_singleton.mpr hasked
  adds n := by
    rw [List.forall_mem_singleton, List.map_singleton, List.map_singleton, List.sum_singleton,
      List.sum_singleton]
    constructor
    · intro hn
      exact ⟨h, hend, (Option.some.inj (Except.ok.inj hn)).symm⟩
    · rintro ⟨-, -, rfl⟩
      rfl
  unknown := iff_of_false (by simp) fun hc => (h.not_stops (L := L)).1 (closes_singleton.mp hc)
  complains e := iff_of_false (by simp) fun hc => h.not_stops.2 e (closes_singleton.mp hc)

private theorem Probed.cons {looks : List Look} {outcome : Except Error (Option Nat)}
    (hposition : l.position = position) (hasked : l.Asked) (h : l.Passes)
    (hadvance : 1 ≤ l.advance) (hinside : position + l.advance < length)
    (hrest : Probed L length (position + l.advance) (total + l.content) looks outcome) :
    Probed L length position total (l :: looks) outcome where
  nonempty := List.cons_ne_nil l looks
  few := by
    have hfew := hrest.few
    rw [List.length_cons]
    omega
  tiled := ⟨hposition, hrest.tiled⟩
  inside := List.forall_mem_cons.mpr ⟨by omega, hrest.inside⟩
  asked := List.forall_mem_cons.mpr ⟨hasked, hrest.asked⟩
  adds n := by
    rw [hrest.adds n, List.forall_mem_cons, List.map_cons, List.map_cons, List.sum_cons,
      List.sum_cons, ← Nat.add_assoc, ← Nat.add_assoc, and_iff_right h]
  unknown := hrest.unknown.trans (closes_cons h hrest.nonempty).symm
  complains e := (hrest.complains e).trans (closes_cons h hrest.nonempty).symm

def Look.Answered (L : Libraries σ) (source : Source) (l : Look) (s s' : σ) : Prop :=
  ∃ s₁, L.answer (.zstdContentSize (source.drop l.position)) s = (.ok l.content, s₁) ∧
    (l.extent = none → s' = s₁) ∧
    ∀ word : Nat, l.extent = some word →
      L.answer (.zstdFrameSize (source.drop l.position)) s₁ = (.ok word, s')

def Look.next (source : Source) (start : Pointer) (l : Look) (w : World σ) (s : σ) : World σ :=
  { w with libraries := s, events := (l.events source start).reverse ++ w.events }

private theorem exists_look (hL : Sizing L source) (position : Nat)
    (hposition : position ≤ source.length)
    (s : σ) :
    ∃ (l : Look) (s' : σ), l.position = position ∧ l.Asked ∧ l.content < wordLimit ∧
      l.Answered L source s s' ∧ (l.Passes → min 1 (source.length - position) ≤ l.advance ∧
        l.advance ≤ source.length - position) := by
  obtain ⟨content, s₁, hcontent, hword⟩ := hL.content position s hposition
  by_cases hsize : content < invalidSize
  · obtain ⟨word, s₂, hextent, hbounds⟩ := hL.extent position s₁ hposition
    refine ⟨⟨position, content, some word⟩, s₂, rfl, ?_, hword, ⟨s₁, hcontent, ?_, ?_⟩, ?_⟩
    · exact iff_of_false (by simp) (Nat.not_le.mpr hsize)
    · exact fun hnone => absurd hnone (by simp)
    · rintro _ ⟨⟩
      exact hextent
    · rintro ⟨-, n, hn, hno⟩
      obtain rfl := Option.some.inj hn
      exact hbounds hno
  · refine ⟨⟨position, content, none⟩, s₁, rfl, ?_, hword, ⟨s₁, hcontent, fun _ => rfl, ?_⟩, ?_⟩
    · exact iff_of_true rfl (Nat.le_of_not_lt hsize)
    · exact fun _ hsome => absurd hsome (by simp)
    · exact fun hpasses => absurd hpasses.1 hsize

variable {w : World σ} {s : σ} (start : Pointer)

private theorem Look.Answered.run (h : l.Answered L source w.libraries s) : ∃ w₁,
    (Op.call L (.zstdContentSize (source.drop l.position))
      ⟨some (start.advance l.position), none⟩ : Op σ Nat).run w = (.ok l.content, w₁) ∧
    (l.extent = none → w₁ = l.next source start w s) ∧
    ∀ word : Nat, l.extent = some word →
      (Op.call L (.zstdFrameSize (source.drop l.position))
        ⟨some (start.advance l.position), none⟩ : Op σ Nat).run w₁ =
          (.ok word, l.next source start w s) := by
  obtain ⟨s₁, hcontent, hnone, hword⟩ := h
  refine ⟨_, Op.run_call_ok hcontent, ?_, ?_⟩
  · intro hextent
    rw [hnone hextent, Look.next, Look.events, hextent]
    rfl
  · intro word hextent
    rw [Look.next, Look.events, hextent]
    exact Op.run_call_ok (hword word hextent)

private theorem run_probeFrom_passes (h : l.Answered L source w.libraries s) (hpasses : l.Passes)
    (patience total : Nat) :
    (probeFrom L source start (patience + 1) l.position total).run w =
      if source.length ≤ l.position + l.advance then
        (.ok (some (total + l.content)), l.next source start w s)
      else (probeFrom L source start patience (l.position + l.advance) (total + l.content)).run
        (l.next source start w s) := by
  obtain ⟨hsize, n, hextent, hno⟩ := hpasses
  obtain ⟨w₁, hcontent, -, hword⟩ := h.run start
  have hunknown : l.content ≠ unknownSize := by
    unfold unknownSize invalidSize at *
    omega
  have hsized : (sized L "decompressed length calculation" n true).run (l.next source start w s) =
      (.ok n, l.next source start w s) := by
    unfold sized
    rw [hno]
    rfl
  rw [probeFrom, Op.run_bind_ok (α := Nat) hcontent, if_neg hunknown, if_neg (Nat.ne_of_lt hsize),
    Op.run_bind_ok (hword n hextent), Op.run_bind_ok hsized, Look.advance, hextent]
  exact Op.run_ite _ _ _ _

private theorem run_sized_extent {word : Nat} (h : isError word = true) (w : World σ) :
    ∃ note : Note, (sized L "decompressed length calculation" word true).run w =
      (.error (failure "decompressed length calculation" (errorCode word)
        (L.errorName (errorCode word)) true), { w with events := .noted note :: w.events }) := by
  unfold sized
  rw [if_pos h]
  exact ⟨_, rfl⟩

private theorem run_probeFrom_stops (h : l.Answered L source w.libraries s) (hasked : l.Asked)
    (hlimit : l.content < wordLimit) (hstops : ¬ l.Passes) :
    ∃ w', ∃ notes : List Note, w'.events = notes.map .noted ++ (l.next source start w s).events ∧
      ∀ patience total,
        (probeFrom L source start (patience + 1) l.position total).run w = (l.verdict L, w') := by
  obtain ⟨w₁, hcontent, hnone, hword⟩ := h.run start
  have hne : invalidSize ≠ unknownSize := by decide
  obtain ⟨hunknown, hextent⟩ | ⟨hinvalid, hextent⟩ | ⟨hsize, word, hextent, herror⟩ :=
    Look.stops_cases hasked hlimit hstops
  · refine ⟨l.next source start w s, [], rfl, fun patience total => ?_⟩
    rw [probeFrom, Op.run_bind_ok (α := Nat) hcontent, if_pos hunknown, Look.verdict,
      if_pos hunknown, hnone hextent]
    rfl
  · have hknown : l.content ≠ unknownSize := hinvalid ▸ hne
    refine ⟨l.next source start w s, [], rfl, fun patience total => ?_⟩
    rw [probeFrom, Op.run_bind_ok (α := Nat) hcontent, if_neg hknown, if_pos hinvalid,
      Op.run_bind_error (Op.run_throw _ _), Look.verdict, if_neg hknown, hextent, hnone hextent]
  · have hknown : l.content ≠ unknownSize := by
      unfold unknownSize invalidSize at *
      omega
    obtain ⟨note, hfails⟩ := run_sized_extent (L := L) herror (l.next source start w s)
    refine ⟨{ l.next source start w s with
      events := .noted note :: (l.next source start w s).events }, [note], rfl,
      fun patience total => ?_⟩
    rw [probeFrom, Op.run_bind_ok (α := Nat) hcontent, if_neg hknown,
      if_neg (Nat.ne_of_lt hsize), Op.run_bind_ok (hword word hextent),
      Op.run_bind_error hfails, Look.verdict, if_neg hknown, hextent]

private theorem run_probeFrom_looks (hL : Sizing L source) (position total : Nat)
    (hposition : position < max 1 source.length) (w : World σ) :
    ∃ looks outcome w', ∃ notes : List Note,
      (∀ patience, max 1 (source.length - position) ≤ patience →
        (probeFrom L source start patience position total).run w = (outcome, w')) ∧
      w'.events = notes.map .noted ++ (looks.flatMap (Look.events source start)).reverse ++
        w.events ∧
      Probed L source.length position total looks outcome := by
  induction hleft : source.length - position using Nat.strongRecOn
    generalizing position total w with
  | _ left ih =>
  obtain ⟨l, s, rfl, hasked, hword, hanswered, hbounds⟩ :=
    exists_look hL position (by omega) w.libraries
  have hpatience : ∀ {patience}, max 1 left ≤ patience → ∃ k, patience = k + 1 := fun h =>
    ⟨_, (Nat.succ_pred_eq_of_pos (by omega)).symm⟩
  by_cases hpasses : l.Passes
  · have hrun := run_probeFrom_passes start hanswered hpasses
    obtain ⟨hleast, hmost⟩ := hbounds hpasses
    by_cases hend : source.length ≤ l.position + l.advance
    · refine ⟨[l], _, l.next source start w s, [], fun patience h => ?_, ?_,
        .finish rfl hposition hasked hpasses (by omega)⟩
      · obtain ⟨k, rfl⟩ := hpatience h
        rw [hrun, if_pos hend]
      · rw [List.flatMap_singleton]
        rfl
    · obtain ⟨looks, outcome, w', notes, hrest, hevents, hprobed⟩ :=
        ih (source.length - (l.position + l.advance)) (by omega) (l.position + l.advance)
          (total + l.content) (by omega) (l.next source start w s) rfl
      refine ⟨l :: looks, outcome, w', notes, fun patience h => ?_, ?_,
        .cons rfl hasked hpasses (by omega) (by omega) hprobed⟩
      · obtain ⟨k, rfl⟩ := hpatience h
        rw [hrun, if_neg hend]
        exact hrest k (by omega)
      · rw [hevents, List.flatMap_cons, List.reverse_append, Look.next]
        simp only [List.append_assoc]
  · obtain ⟨w', notes, hevents, hrun⟩ := run_probeFrom_stops start hanswered hasked hword hpasses
    refine ⟨[l], _, w', notes, fun patience h => ?_, ?_,
      .stop rfl hposition hasked hword hpasses⟩
    · obtain ⟨k, rfl⟩ := hpatience h
      exact hrun k total
    · rw [hevents, List.flatMap_singleton, List.append_assoc]
      rfl

end Looks

private theorem probeFrom_patience (L : Libraries σ) (most : Nat) (source : Source)
    (start : Pointer)
    (patience position total : Nat) :
    probeFrom { L with patience := most } source start patience position total =
      probeFrom L source start patience position total := by
  induction patience generalizing position total with
  | zero => rfl
  | succ patience ih =>
    rw [probeFrom, probeFrom]
    simp only [ih]
    rfl

/-- The probe of a range takes one look at least, and no more looks than there are bytes if there
are any. Each is where the frame before it ends, and its calls are about all that is left from there
on; `Probed` says what the looks come to. The calls that the library allows besides those for the
bytes make no difference, if one is allowed where there are no bytes. -/
theorem lengthOfRange_tiled {L : Libraries σ} (src : Range) (w : World σ)
    (hL : Sizing L ⟨src.length, w.memory.read? src.start src.length⟩) :
    ∃ looks outcome w', ∃ notes : List Note,
      (∀ patience, 0 < src.length + patience →
        (lengthOfRange { L with patience } src).run w = (outcome, w')) ∧
      w'.events = notes.map .noted ++ (looks.flatMap (Look.events
        ⟨src.length, w.memory.read? src.start src.length⟩ src.start)).reverse ++ w.events ∧
      Probed L src.length 0 0 looks outcome := by
  obtain ⟨looks, outcome, w', notes, hrun, hevents, hprobed⟩ :=
    run_probeFrom_looks src.start hL 0 0
      (Nat.lt_of_lt_of_le Nat.zero_lt_one (Nat.le_max_left 1 _)) w
  refine ⟨looks, outcome, w', notes, fun patience h => ?_, hevents, hprobed⟩
  unfold lengthOfRange
  rw [Op.run_bind_ok (Op.run_source w src), probeFrom_patience]
  refine hrun _ ?_
  dsimp only
  omega

private theorem contentSize_lt {d : Descriptor} {fields : Bytes} {header : Header} {n : Nat}
    (hwidth : fields.length = d.fieldWidth) (h : d.readFields fields = .ok header)
    (hn : header.contentSize = some n) : n < wordLimit := by
  have hrecorded : header.contentSize =
      d.readSize ((fields.drop d.windowWidth).drop d.dictionaryWidth) := by
    unfold Descriptor.readFields at h
    simp only [List.splitAt_eq] at h
    split at h
    · exact absurd h (by simp)
    · split at h
      · rw [← Except.ok.inj h]
      · split at h
        · exact absurd h (by simp)
        · rw [← Except.ok.inj h]
  have hlength : ((fields.drop d.windowWidth).drop d.dictionaryWidth).length = d.sizeWidth := by
    rw [List.length_drop, List.length_drop, hwidth, Descriptor.fieldWidth]
    omega
  have hfield := Bytes.toNat_lt ((fields.drop d.windowWidth).drop d.dictionaryWidth)
  rw [hlength] at hfield
  have hsize : d.sizeWidth ≤ 8 := by
    unfold Descriptor.sizeWidth
    split
    · split <;> decide
    · decide
    · decide
    · decide
  have hlimit : Nat.pow 256 d.sizeWidth ≤ wordLimit := Nat.pow_le_pow_right (by decide) hsize
  rw [hrecorded] at hn
  unfold Descriptor.readSize at hn
  dsimp only at hn
  split at hn
  · exact absurd hn (by simp)
  · split at hn
    · next htwo =>
      rw [htwo] at hfield
      rw [← Option.some.inj hn]
      exact Nat.lt_trans (Nat.add_lt_add_right hfield 256) (by decide)
    · rw [← Option.some.inj hn]
      exact Nat.lt_of_lt_of_le hfield hlimit

private theorem recordedSize_lt (bytes : Bytes) : recordedSize bytes < wordLimit := by
  unfold recordedSize
  split
  · decide
  · decide
  · next header rest hstart =>
    cases hn : header.contentSize with
    | none => decide
    | some n =>
      obtain ⟨_, _, _, _, _, fields, -, -, hwidth, hfields⟩ := Start.eq_of_read_data hstart
      exact contentSize_lt hwidth hfields hn

/-- The system's library sizes the frames of whatever a range holds. -/
theorem Sizing.system (snappy : Except Error Constants) {m : Memory} {src : Range} {bytes : Bytes}
    (hs : src.Holds m bytes) :
    Sizing (Native.system snappy) ⟨src.length, m.read? src.start src.length⟩ where
  content position s _ := by
    have hfits : (Call.zstdContentSize (Source.drop ⟨src.length, m.read? src.start src.length⟩
        position)).fits = true :=
      fitsSize_of_lt (Nat.lt_of_le_of_lt (Nat.sub_le _ _) hs.length_lt)
    exact ⟨_, s, answer_system_of_fits hfits s, recordedSize_lt _⟩
  extent position s _ := by
    have hfits : (Call.zstdFrameSize (Source.drop ⟨src.length, m.read? src.start src.length⟩
        position)).fits = true :=
      fitsSize_of_lt (Nat.lt_of_le_of_lt (Nat.sub_le _ _) hs.length_lt)
    refine ⟨_, s, answer_system_of_fits hfits s, ?_⟩
    intro hno
    change isError (resultWord (frameExtent (Source.drop ⟨_, _⟩ position).content)) = false at hno
    change _ ≤ resultWord (frameExtent (Source.drop ⟨_, _⟩ position).content) ∧
      resultWord (frameExtent (Source.drop ⟨_, _⟩ position).content) ≤ _
    rw [Source.content_drop, hs.content] at hno ⊢
    have hleft : (bytes.drop position).length = src.length - position := by
      rw [List.length_drop, hs.length_eq]
    unfold frameExtent at hno ⊢
    cases hafter : afterFrame (bytes.drop position) with
    | error f =>
      rw [hafter] at hno
      exact absurd (hno.symm.trans f.isError_word) (by simp)
    | ok rest =>
      have hlt := afterFrame_length_lt hafter
      change _ ≤ (bytes.drop position).length - rest.length ∧
        (bytes.drop position).length - rest.length ≤ _
      dsimp only
      omega

/-- A frame of three bytes and a skippable frame after it. -/
theorem lengthOfRange_tiled_skippable : ∃ looks : List Look, looks.length ≤ 21 ∧ Tiled 0 looks ∧
    (∀ l ∈ looks, l.position < 21 ∧ l.Passes) ∧ (looks.map Look.advance).sum = 21 ∧
    (looks.map Look.content).sum = 3 := by
  have hs : Range.Holds ⟨⟨.managed 0, 0⟩, 21, "bytes", true⟩ (.holding
      [0x28, 0xB5, 0x2F, 0xFD, 0x20, 3, 0x19, 0, 0, 7, 8, 9, 0x50, 0x2A, 0x4D, 0x18, 1, 0, 0, 0,
        0xFF]) [0x28, 0xB5, 0x2F, 0xFD, 0x20, 3, 0x19, 0, 0, 7, 8, 9, 0x50, 0x2A, 0x4D, 0x18,
          1, 0, 0, 0, 0xFF] := ⟨rfl, by decide, by decide⟩
  have hrun : ((lengthOfRange (system (.ok {})) ⟨⟨.managed 0, 0⟩, 21, "bytes", true⟩).run
      { memory := .holding [0x28, 0xB5, 0x2F, 0xFD, 0x20, 3, 0x19, 0, 0, 7, 8, 9,
          0x50, 0x2A, 0x4D, 0x18, 1, 0, 0, 0, 0xFF], libraries := {} }).1 = .ok (some 3) := by
    decide +kernel
  obtain ⟨looks, outcome, w', notes, hall, -, hprobed⟩ :=
    lengthOfRange_tiled ⟨⟨.managed 0, 0⟩, 21, "bytes", true⟩
      { memory := .holding [0x28, 0xB5, 0x2F, 0xFD, 0x20, 3, 0x19, 0, 0, 7, 8, 9,
          0x50, 0x2A, 0x4D, 0x18, 1, 0, 0, 0, 0xFF], libraries := {} }
      (.system (.ok {}) hs)
  have hsame : outcome = .ok (some 3) :=
    (congrArg Prod.fst (hall manyCalls (by decide))).symm.trans hrun
  obtain ⟨hpasses, hend, hsum⟩ := (hprobed.adds 3).mp hsame
  exact ⟨looks, hprobed.few, hprobed.tiled, fun l hl => ⟨hprobed.inside l hl, hpasses l hl⟩,
    (Nat.zero_add _).symm.trans hend, ((Nat.zero_add _).symm.trans hsum.symm)⟩

end NativeCodec.Codec.Zstd
