import NativeCodec.Proofs.Memory.ByteFile
import NativeCodec.Proofs.Session.Layout
import NativeCodec.Proofs.Session.Steps
import NativeCodec.Session.Direct

set_option autoImplicit false
set_option relaxedAutoImplicit false

namespace NativeCodec

open Native Session

variable {σ α β : Type}

/-- What is done with the direct buffer that a name stands for. -/
inductive Use
  | write (d : Description)
  | read (count : Option Int)
  | readInto (d : Description)
  | seek (offset whence : Int)
  | contents

/-- What is done with objects. -/
inductive Handling
  | object (name : String) (d : Description)
  | range (name : Option String) (d : Description) (offset : Int) (length : Option Int)
  | whole (name : Option String) (d : Description) (writable : Bool)
  | slice (name : Option String) (source : String) (offset : Int) (length : Option Int)
  | view (name : String) (writable : Bool) (stores : List (Nat × UInt8)) (fail growing : Bool)
  | copy (name : String) (d : Description)
  | grow (name : String)
  | drop (name : String)
  | buffer (name : String) (size : Int)
  | bufferOf (name : String) (d : Description)
  | use (name : String) (use : Use)

namespace Act

open DirectBuffer

/-- Does something with the buffer that a name stands for. -/
def use (name : String) : Use → Act σ ByteFile.Answer
  | .write d => do return .number (← directWrite name d)
  | .read count => do return .bytes (← directRead name count)
  | .readInto d => do
    let (n, out) ← directReadInto name d
    return .filled n out
  | .seek offset whence => do return .number (← directSeek name offset whence)
  | .contents => do return .bytes (← directBytes name)

/-- The operation of a buffer that is meant; the object that is handed over is made for it. -/
def operation : Use → Act σ Operation
  | .write d => do return .write (← argument d)
  | .read count => pure (.read count)
  | .readInto d => do return .readInto (← argument d)
  | .seek offset whence => pure (.seek offset whence)
  | .contents => pure .contents

def handle (L : Libraries σ) : Handling → Act σ Unit
  | .object name d => discard (newObject L name d)
  | .range name d offset length => discard (newRange L name d offset length)
  | .whole name d writable => discard (newWhole L name d writable)
  | .slice name source offset length => discard (newSlice L name source offset length)
  | .view name writable stores fail growing =>
    discard (openView name writable stores fail growing)
  | .copy name d => discard (copy name d)
  | .grow name => discard (grow name)
  | .drop name => forget L name
  | .buffer name size => discard (newDirect L name size)
  | .bufferOf name d => discard (directOf L name d)
  | .use name u => discard (use name u)

@[simp] theorem run_memory (s : Session σ) :
    (memory : Act σ Memory).run s = (.ok s.world.memory, s) := rfl

@[simp] theorem run_forget {L : Libraries σ} (name : String) (s : Session σ) :
    (forget L name).run s = (.ok (), s.forget L name) := rfl

section Names

variable {s : Session σ} {name : String} {place : Nat}

theorem run_thing_some (h : s.names.lookup name = some place) :
    (thing name).run s = (.ok (s.things.getD place (.other "object")), s) := by
  unfold thing
  rw [run_bind_ok (run_place_some h), run_thingAt]

private theorem run_thing_none (h : s.names.lookup name = none) :
    (thing name).run s = (.error (.made .key name none none), s) := by
  unfold thing
  rw [run_bind_error (run_place_none h)]

theorem run_rangeOf_cases (s : Session σ) (name : String) :
    (∃ place r, s.names.lookup name = some place ∧ s.things[place]? = some (.range r) ∧
      (rangeOf name).run s = (.ok r, s)) ∨ ∃ e, (rangeOf name).run s = (.error e, s) := by
  unfold rangeOf
  cases hlookup : s.names.lookup name with
  | none => exact .inr ⟨_, run_bind_error (run_thing_none hlookup) _⟩
  | some place =>
    rw [run_bind_ok (run_thing_some hlookup), List.getD_eq_getElem?_getD]
    cases hthing : s.things[place]? with
    | none => exact .inr ⟨_, rfl⟩
    | some t =>
      cases t with
      | range r => exact .inl ⟨place, r, rfl, hthing, rfl⟩
      | _ => exact .inr ⟨_, rfl⟩

private theorem run_direct_cases (s : Session σ) (name : String) :
    (∃ place b, s.names.lookup name = some place ∧ s.things[place]? = some (.direct b) ∧
      (direct name).run s = (.ok (place, b), s)) ∨ ∃ e, (direct name).run s = (.error e, s) := by
  unfold direct
  cases hlookup : s.names.lookup name with
  | none => exact .inr ⟨_, run_bind_error (run_place_none hlookup) _⟩
  | some place =>
    rw [run_bind_ok (run_place_some hlookup), run_bind_ok (run_thingAt place s),
      List.getD_eq_getElem?_getD]
    cases hthing : s.things[place]? with
    | none => exact .inr ⟨_, rfl⟩
    | some t =>
      cases t with
      | direct b => exact .inl ⟨place, b, rfl, hthing, rfl⟩
      | _ => exact .inr ⟨_, rfl⟩

theorem run_direct {b : DirectBuffer} (hname : s.names.lookup name = some place)
    (hthing : s.things[place]? = some (.direct b)) :
    (direct name).run s = (.ok (place, b), s) := by
  unfold direct
  rw [run_bind_ok (run_place_some hname), run_bind_ok (run_thingAt place s),
    List.getD_eq_getElem?_getD, hthing]
  rfl

end Names

section Use

variable {s : Session σ} {name : String} {place : Nat} {b : DirectBuffer}

def performed (s : Session σ) (place : Nat) :
    Except Error (ByteFile.Answer × DirectBuffer × Memory) →
      Except Error ByteFile.Answer × Session σ
  | .error e => (.error e, s)
  | .ok (a, b, m) => (.ok a, { s.withMemory m with things := s.things.set place (.direct b) })

/-- To use a buffer is to make the object that is handed over, and to perform an operation. -/
theorem run_use (hname : s.names.lookup name = some place)
    (hthing : s.things[place]? = some (.direct b)) (u : Use) :
    (use name u).run s =
      match (operation u).run s with
      | (.error e, s) => (.error e, s)
      | (.ok op, s) => performed s place (b.perform s.world.memory op) := by
  have hdirect := run_direct hname hthing
  cases u with
  | write d =>
    unfold use directWrite operation
    rw [run_bind, run_bind_ok hdirect, run_bind (argument d), run_bind (argument d)]
    rcases (argument d).run s with ⟨e | a, s₁⟩
    · rfl
    · dsimp only
      rw [run_bind_ok (run_memory s₁)]
      change _ = performed s₁ place ((b.writeFrom s₁.world.memory a).map _)
      rcases b.writeFrom s₁.world.memory a with e | ⟨n, b', m⟩
      · rfl
      · rfl
  | read count =>
    unfold use directRead
    rw [run_bind, run_bind_ok hdirect]
    rfl
  | readInto d =>
    unfold use directReadInto operation
    rw [run_bind, run_bind_ok hdirect, run_bind (argument d), run_bind (argument d)]
    rcases (argument d).run s with ⟨e | a, s₁⟩
    · rfl
    · dsimp only
      rw [run_bind_ok (run_memory s₁)]
      change _ = performed s₁ place ((b.readInto s₁.world.memory a).map _)
      rcases b.readInto s₁.world.memory a with e | ⟨n, b', m⟩
      · rfl
      · rfl
  | seek offset whence =>
    unfold use directSeek
    rw [run_bind, run_bind_ok hdirect]
    change _ = performed s place ((b.seek offset whence).map _)
    dsimp only
    rcases b.seek offset whence with e | b'
    · rfl
    · rfl
  | contents =>
    have hsame : s.things.set place (.direct b) = s.things := by
      obtain ⟨hlt, hget⟩ := List.getElem?_eq_some_iff.mp hthing
      rw [← hget]
      exact List.set_getElem_self hlt
    unfold use directBytes
    rw [run_bind, run_bind_ok hdirect]
    change (_, s) = (_, { s with things := s.things.set place (.direct b) })
    rw [hsame]

def Meant (base : Session σ) : Except Error Operation → Session σ → Prop
  | .ok op => fun s =>
    Prepared base s ∧ ∀ b, .direct b ∈ s.things → op.Spares b s.world.memory
  | .error _ => Prepared base

theorem meant_operation {base : Session σ} (u : Use) :
    Spec (Prepared base) (operation u) (Meant base) := by
  cases u with
  | write d =>
    refine Spec.bind (handed_argument d) (fun a => ?_) fun _ _ h => h
    rintro s ⟨hs, -⟩
    exact ⟨hs, fun _ _ => trivial⟩
  | readInto d =>
    refine Spec.bind (handed_argument d) (fun a => ?_) fun _ _ h => h
    rintro s ⟨hs, t, ht, rfl⟩
    refine ⟨hs, fun b hb => ?_⟩
    cases t with
    | view v growable => exact ⟨hs.laid.lies _ ht, hs.laid.apart v growable b ht hb⟩
    | _ => trivial
  | read count => exact fun s hs => ⟨hs, fun _ _ => trivial⟩
  | seek offset whence => exact fun s hs => ⟨hs, fun _ _ => trivial⟩
  | contents => exact fun s hs => ⟨hs, fun _ _ => trivial⟩

private theorem run_use_error {e : Error} (h : (direct name).run s = (.error e, s)) (u : Use) :
    (use name u).run s = (.error e, s) := by
  cases u with
  | write d => exact run_bind_error (run_bind_error h _) _
  | read count => exact run_bind_error (run_bind_error h _) _
  | readInto d => exact run_bind_error (run_bind_error h _) _
  | seek offset whence => exact run_bind_error (run_bind_error h _) _
  | contents => exact run_bind_error (run_bind_error h _) _

private theorem laid_performed (hs : Laid s) (hthing : s.things[place]? = some (.direct b))
    (op : Operation) : Laid (performed s place (b.perform s.world.memory op)).2 := by
  cases hperform : b.perform s.world.memory op with
  | error e => exact hs
  | ok result =>
    obtain ⟨a, b', m⟩ := result
    obtain ⟨hplace, hsize, hm⟩ := perform_eq_ok hperform
    exact (hs.withMemory hm).put hthing hplace hsize

theorem laid_use (name : String) (u : Use) : Keeps Laid (use name u : Act σ ByteFile.Answer) := by
  intro s hs
  rcases run_direct_cases s name with ⟨place, b, hname, hthing, -⟩ | ⟨e, he⟩
  · have hmeant := meant_operation u s (Prepared.refl hs)
    rw [run_use hname hthing]
    rcases hop : (operation u).run s with ⟨e | op, s₁⟩
    · rw [hop] at hmeant
      exact Prepared.laid hmeant
    · rw [hop] at hmeant
      obtain ⟨hprepared, -⟩ := hmeant
      exact laid_performed hprepared.laid (hprepared.thing_eq hthing) op
  · rw [run_use_error he]
    exact hs

end Use

section Laid

variable {s : Session σ} {L : Libraries σ}

private theorem laid_keep (hs : Laid s) (name : Option String) {r : Range}
    (hr : r.Lies s.things s.world.memory) : Laid ((keep L name (.range r)).run s).2 := by
  cases name with
  | none => exact hs
  | some name =>
    have hplace : s.things.length < (s.things ++ [Thing.range r]).length := by simp
    exact (hs.addRange hr).assign name hplace

private theorem laid_bind_pure {x : Act σ α} (h : Laid (x.run s).2) (b : β) :
    Laid ((x >>= fun _ => pure b : Act σ β).run s).2 := by
  rw [run_bind_pure]
  exact h

private theorem laid_keepRange (hs : Laid s) (name : Option String) {outcome : Except Error Range}
    (h : ∀ r, outcome = .ok r → r.Lies s.things s.world.memory) :
    Laid ((do
      let r ← ofExcept outcome
      keep L name (.range r)
      return r : Act σ Range).run s).2 := by
  cases outcome with
  | error e => exact hs
  | ok r => exact laid_bind_pure (laid_keep hs name (h r rfl)) r

private theorem laid_make {f : Nat → Act σ α} (d : Description)
    (hf : ∀ place, Spec (fun s => Laid s ∧ place < s.things.length) (f place) fun _ => Laid) :
    Keeps Laid (make d >>= f) := by
  intro s hs
  have hmake := ready_make d s (Prepared.refl hs)
  rw [run_bind]
  rcases hrun : (make d).run s with ⟨e | place, s₁⟩
  · rw [hrun] at hmake
    exact Prepared.laid hmake
  · rw [hrun] at hmake
    exact hf place s₁ ⟨hmake.1.laid, hmake.2⟩

private theorem laid_argument {f : Argument → Act σ α} (d : Description)
    (hf : ∀ t : Thing, Spec (fun s => Laid s ∧ t ∈ s.things) (f t.argument) fun _ => Laid) :
    Keeps Laid (argument d >>= f) := by
  intro s hs
  have hargument := handed_argument d s (Prepared.refl hs)
  rw [run_bind]
  rcases hrun : (argument d).run s with ⟨e | a, s₁⟩
  · rw [hrun] at hargument
    exact Prepared.laid hargument
  · rw [hrun] at hargument
    obtain ⟨hprepared, t, ht, rfl⟩ := hargument
    exact hf t s₁ ⟨hprepared.laid, ht⟩

private theorem laid_newObject (name : String) (d : Description) :
    Keeps Laid (newObject L name d : Act σ Argument) := by
  refine laid_make d fun place => ?_
  rintro s ⟨hs, hplace⟩
  exact hs.assign name hplace

private theorem laid_newRange (name : Option String) (d : Description) (offset : Int)
    (length : Option Int) : Keeps Laid (newRange L name d offset length : Act σ Range) := by
  refine laid_argument d fun t => ?_
  rintro s ⟨hs, ht⟩
  exact laid_keepRange hs name fun r hr => Range.lies_of_range? (hs.lies t ht) ht hr

private theorem laid_newSlice (name : Option String) (source : String) (offset : Int)
    (length : Option Int) : Keeps Laid (newSlice L name source offset length : Act σ Range) := by
  intro s hs
  unfold newSlice
  rcases run_rangeOf_cases s source with ⟨place, r, -, hthing, hrun⟩ | ⟨e, hrun⟩
  · rw [run_bind_ok hrun]
    have ht := List.mem_of_getElem? hthing
    exact laid_keepRange hs name fun part hpart =>
      Range.lies_of_range? (t := .range r) (hs.lies _ ht) ht hpart
  · rw [run_bind_error hrun]
    exact hs

theorem run_keep (name : Option String) (t : Thing) :
    ((keep L name t).run s).1 = .ok () := by
  cases name with
  | none => rfl
  | some name => rfl

/-- The range of a whole object is kept, or the object is called by another name if it is that
range; unless there is no such range. -/
theorem run_newWhole_cases (L : Libraries σ) (name : Option String) {d : Description}
    (writable : Bool) {s s₁ : Session σ} {place : Nat} (h : (make d).run s = (.ok place, s₁)) :
    (∃ e, (newWhole L name d writable).run s = (.error e, s₁)) ∨
      ∃ r s', (s₁.things.getD place (.other "object")).argument.source? s₁.world.memory = .ok r ∧
        (newWhole L name d writable).run s = (.ok r, s') ∧
        (s' = ((keep L name (.range r)).run s₁).2 ∨ ∃ name, s' = s₁.assign L name place) := by
  unfold newWhole
  rw [run_bind_ok h, run_bind_ok (run_thingAt place s₁), run_bind_ok (run_memory s₁)]
  generalize s₁.things.getD place (.other "object") = t
  cases houtcome : (if writable then t.argument.destination? s₁.world.memory
    else t.argument.source? s₁.world.memory) with
  | error e => exact .inl ⟨e, rfl⟩
  | ok r =>
    have hsource : t.argument.source? s₁.world.memory = .ok r := by
      cases writable with
      | true => exact (Argument.source?_of_destination houtcome).1
      | false => exact houtcome
    have hkeep : (keep L name (.range r) >>= fun _ => pure r).run s₁ =
        (.ok r, ((keep L name (.range r)).run s₁).2) := by
      rw [run_bind_pure, run_keep]
      rfl
    cases t with
    | range r' =>
      cases name with
      | none => exact .inr ⟨r, _, hsource, hkeep, .inl rfl⟩
      | some name => exact .inr ⟨r, s₁.assign L name place, hsource, rfl, .inr ⟨name, rfl⟩⟩
    | _ => exact .inr ⟨r, _, hsource, hkeep, .inl rfl⟩

private theorem laid_newWhole (name : Option String) (d : Description) (writable : Bool) :
    Keeps Laid (newWhole L name d writable : Act σ Range) := by
  intro s hs
  have hmake := ready_make d s (Prepared.refl hs)
  rcases hrun : (make d).run s with ⟨e | place, s₁⟩
  · rw [hrun] at hmake
    unfold newWhole
    rw [run_bind_error hrun]
    exact Prepared.laid hmake
  · rw [hrun] at hmake
    obtain ⟨hprepared, hplace⟩ := hmake
    have hs₁ := hprepared.laid
    obtain ⟨hlies, ht⟩ := hs₁.lies_getD hplace
    rcases run_newWhole_cases L name writable hrun with
      ⟨e, hwhole⟩ | ⟨r, s', hsource, hwhole, rfl | ⟨other, rfl⟩⟩
    · rw [hwhole]
      exact hs₁
    · rw [hwhole]
      exact laid_keep hs₁ name (Range.lies_of_source? hlies ht hsource)
    · rw [hwhole]
      exact hs₁.assign other hplace

private theorem laid_keepDirect (hs : Laid s) (name : String) (bytes : Storage) {b : DirectBuffer}
    {m : Memory} (hb : b.place = s.world.memory.storages.length) (hsize : b.size ≤ bytes.size)
    (hm : (s.world.memory.add bytes).2.Larger m) :
    Laid ((do
      setMemory m
      keep L (some name) (.direct b)
      return b : Act σ DirectBuffer).run s).2 := by
  have hadded := (hs.addDirect bytes hb hsize).withMemory hm
  have hplace : s.things.length < (s.things ++ [Thing.direct b]).length := by simp
  exact hadded.assign name hplace

theorem laid_newDirect (name : String) (size : Int) :
    Keeps Laid (newDirect L name size : Act σ DirectBuffer) := by
  intro s hs
  have hforgotten := hs.forget (L := L) name
  unfold newDirect
  rw [run_bind_ok (run_forget name s), run_bind_ok (run_memory _)]
  cases hcreate : DirectBuffer.create (s.forget L name).world.memory size with
  | error e => exact hforgotten
  | ok result =>
    obtain ⟨b, m⟩ := result
    obtain ⟨n, hn, -, hplace, hsize, -, rfl⟩ := DirectBuffer.create_eq_ok hcreate
    have hle : b.size ≤ (Storage.fresh n).size := by
      change b.size ≤ n
      omega
    exact laid_keepDirect hforgotten name (.fresh n) hplace hle (Memory.Larger.refl _)

private theorem laid_directOf (name : String) (d : Description) :
    Keeps Laid (directOf L name d : Act σ DirectBuffer) := by
  intro s hs
  unfold directOf
  rw [run_bind_ok (run_forget name s)]
  refine laid_argument d (fun t => ?_) _ (hs.forget name)
  rintro s ⟨hs, -⟩
  rw [run_bind_ok (run_memory s)]
  cases hof : DirectBuffer.ofArgument s.world.memory t.argument with
  | error e => exact hs
  | ok result =>
    obtain ⟨b, m⟩ := result
    obtain ⟨bytes, hb, hsize, hm⟩ := DirectBuffer.ofArgument_eq_ok hof
    exact laid_keepDirect hs name bytes hb hsize hm

theorem run_growAt (s : Session σ) (storage : Nat) :
    (growAt storage).run s =
      if pinnedAt s storage then (.error .pinned, s)
      else (.ok (s.world.memory.size storage + 1),
        s.withMemory (s.world.memory.set storage (s.world.memory.get storage).grow)) := by
  change (if pinnedAt s storage then _ else _ : Act σ Nat).run s = _
  split
  · rfl
  · rfl

private theorem run_grow_cases (s : Session σ) (name : String) :
    (∃ place v, s.names.lookup name = some place ∧ s.things[place]? = some (.view v true) ∧
      (grow name).run s = (growAt v.place).run s) ∨ ∃ e, (grow name).run s = (.error e, s) := by
  unfold grow
  cases hlookup : s.names.lookup name with
  | none => exact .inr ⟨_, run_bind_error (run_thing_none hlookup) _⟩
  | some place =>
    rw [run_bind_ok (run_thing_some hlookup), List.getD_eq_getElem?_getD]
    cases hthing : s.things[place]? with
    | none => exact .inr ⟨_, rfl⟩
    | some t =>
      cases t with
      | view v growable =>
        cases growable with
        | true => exact .inl ⟨place, v, rfl, hthing, rfl⟩
        | false => exact .inr ⟨_, rfl⟩
      | _ => exact .inr ⟨_, rfl⟩

private theorem laid_grow (name : String) : Keeps Laid (grow name : Act σ Nat) := by
  intro s hs
  rcases run_grow_cases s name with ⟨place, v, -, -, hrun⟩ | ⟨e, hrun⟩
  · rw [hrun, run_growAt]
    split
    · exact hs
    · exact hs.withMemory (Memory.larger_set (Nat.le_succ _))
  · rw [hrun]
    exact hs

end Laid

section View

variable {s : Session σ} {r : Range} {name : String}

/-- What is said where the object that a range lies in is to grow while it is held on to. -/
def growthRefusal (things : List Thing) (r : Range) : Error :=
  match r.start.base with
  | .managed storage => if things.any (growableAt storage) then .pinned else .wrongArgument
  | _ => .wrongArgument

private theorem run_growOwner
    (h : ∀ storage, r.start.base = .managed storage → pinnedAt s storage = true) :
    (growOwner r).run s = (.error (growthRefusal s.things r), s) := by
  unfold growOwner growthRefusal
  cases hbase : r.start.base with
  | managed storage =>
    change (if s.things.any (growableAt storage) then growAt storage else wrongThing : Act σ Nat).run
      s = _
    dsimp only
    split
    · rw [run_growAt, if_pos (h storage hbase)]
    · rfl
  | near place delta => rfl
  | address n => rfl

/-- What a view of a range comes to, if the range may be viewed. -/
def shown (s : Session σ) (r : Range) (fail growing : Bool) : Except Error Shown :=
  if fail then .error (.made .runtime "boom" none none)
  else .ok {
    length := r.length
    bytes := (s.world.memory.read? r.start r.length).getD []
    grown := if growing then some (.error (growthRefusal s.things r)) else none }

private theorem run_attempt {x : Act σ α} {outcome : Except Error α} {s' : Session σ}
    (h : x.run s = (outcome, s')) : (attempt x).run s = (.ok outcome, s') := by
  change (Except.ok (x.run s).1, (x.run s).2) = _
  rw [h]

private theorem run_pinning {x : Act σ α} {storage : Nat} {outcome : Except Error α}
    {s' : Session σ}
    (h : x.run { s with pins := storage :: s.pins } = (outcome, s')) :
    (pinning storage x).run s = (outcome, { s' with pins := s'.pins.erase storage }) := by
  let held : Session σ := { s with pins := storage :: s.pins }
  change ((x.run held).1, { (x.run held).2 with pins := (x.run held).2.pins.erase storage }) = _
  rw [h]

/-- What is done in a view: stores, a growth that is tried, and a failure that is asked for. -/
def inView (r : Range) (stores : List (Nat × UInt8)) (fail growing : Bool) : Act σ Shown := do
  let m ← memory
  let bytes := (m.read? r.start r.length).getD []
  setMemory (m.poke r.start stores)
  let grown ← if growing then some <$> attempt (growOwner r) else pure none
  failIf fail
  return ⟨r.length, bytes, grown⟩

private theorem run_inView (stores : List (Nat × UInt8)) (fail growing : Bool)
    (h : ∀ storage, r.start.base = .managed storage → pinnedAt s storage = true) :
    (inView r stores fail growing).run s =
      (shown s r fail growing, s.withMemory (s.world.memory.poke r.start stores)) := by
  let after : Session σ := s.withMemory (s.world.memory.poke r.start stores)
  have hgrow : (attempt (growOwner r)).run after =
      (.ok (.error (growthRefusal s.things r)), after) :=
    run_attempt (run_growOwner h)
  have hgrown : (some <$> attempt (growOwner r)).run after =
      (.ok (some (.error (growthRefusal s.things r))), after) := by
    change (attempt (growOwner r) >>= fun outcome => pure (some outcome)).run after = _
    rw [run_bind_ok hgrow]
    rfl
  have hstored : (setMemory (s.world.memory.poke r.start stores)).run s = (.ok (), after) := rfl
  unfold inView
  rw [run_bind_ok (run_memory s), run_bind_ok hstored]
  cases growing with
  | false =>
    cases fail with
    | true => rfl
    | false => rfl
  | true =>
    rw [if_pos rfl, run_bind_ok hgrown]
    cases fail with
    | true => rfl
    | false => rfl

theorem run_openView (hrange : (rangeOf name).run s = (.ok r, s)) (writable : Bool)
    (stores : List (Nat × UInt8)) (fail growing : Bool) :
    (openView name writable stores fail growing).run s =
      if writable && r.readOnly then (.error (.readOnly r.owner), s)
      else (shown s r fail growing, s.withMemory (s.world.memory.poke r.start stores)) := by
  change (rangeOf name >>= fun r => viewing r writable (inView r stores fail growing)).run s = _
  rw [run_bind_ok hrange]
  unfold viewing
  cases hwritable : writable && r.readOnly with
  | true =>
    rw [Bool.and_eq_true] at hwritable
    obtain ⟨rfl, hreadOnly⟩ := hwritable
    rw [if_pos rfl, Range.writable?, if_pos hreadOnly]
    rfl
  | false =>
    have hallowed : (if writable then r.writable? else .ok r) = .ok r := by
      cases writable with
      | false => rfl
      | true => exact if_neg (Bool.eq_false_iff.mp hwritable)
    rw [hallowed, if_neg (by simp)]
    rw [run_bind_ok (show (ofExcept (.ok r) : Act σ Range).run s = (.ok r, s) from rfl)]
    cases hbase : r.start.base with
    | managed storage =>
      -- the view itself holds the storage, so what is done in it is done in a session that pins it
      let held : Session σ := { s with pins := storage :: s.pins }
      have hview := run_inView (s := held) stores fail growing fun storage' h => by
        obtain rfl := Base.managed.inj (hbase.symm.trans h)
        simp [pinnedAt, held]
      have hclosing : (storage :: s.pins).erase storage = s.pins := List.erase_cons_head ..
      refine (run_pinning hview).trans ?_
      change (_, { s.withMemory _ with pins := (storage :: s.pins).erase storage }) = _
      rw [hclosing]
      rfl
    | near place delta =>
      exact run_inView stores fail growing fun storage h => absurd (hbase.symm.trans h) (by simp)
    | address n =>
      exact run_inView stores fail growing fun storage h => absurd (hbase.symm.trans h) (by simp)

private theorem laid_openView (name : String) (writable : Bool) (stores : List (Nat × UInt8))
    (fail growing : Bool) :
    Keeps Laid (openView name writable stores fail growing : Act σ Shown) := by
  intro s hs
  rcases run_rangeOf_cases s name with ⟨place, r, -, -, hrun⟩ | ⟨e, hrun⟩
  · rw [run_openView hrun]
    split
    · exact hs
    · exact hs.withMemory (Memory.larger_poke _ _ _)
  · unfold openView
    rw [run_bind_error hrun]
    exact hs

end View

section Copy

variable {s : Session σ} {r : Range}

/-- What an operation on memory that gives a number comes to in a session. -/
def taken (s : Session σ) : Except Error (Nat × Memory) → Except Error Nat × Session σ
  | .error e => (.error e, s)
  | .ok (count, m) => (.ok count, s.withMemory m)

private theorem run_pinning_taken {x : Act σ Nat} {outcome : Except Error (Nat × Memory)}
    (storage : Nat)
    (h : ∀ pins, x.run { s with pins } = taken { s with pins } outcome) :
    (pinning storage x).run s = taken s outcome := by
  have hclosing : (storage :: s.pins).erase storage = s.pins := List.erase_cons_head ..
  cases outcome with
  | error e =>
    refine (run_pinning (h (storage :: s.pins))).trans ?_
    rw [hclosing]
    rfl
  | ok result =>
    refine (run_pinning (h (storage :: s.pins))).trans ?_
    change (_, { s.withMemory result.2 with pins := (storage :: s.pins).erase storage }) = _
    rw [hclosing]
    rfl

private theorem run_viewing_taken {x : Act σ Nat} {outcome : Except Error (Nat × Memory)}
    (h : ∀ pins, x.run { s with pins } = taken { s with pins } outcome) :
    (viewing r true x).run s = taken s (r.writable?.bind fun _ => outcome) := by
  unfold viewing
  rw [if_pos rfl]
  cases hr : r.writable? with
  | error e => rfl
  | ok r' =>
    rw [run_bind_ok (show (ofExcept (.ok r') : Act σ Range).run s = (.ok r', s) from rfl)]
    cases r.start.base with
    | managed storage => exact run_pinning_taken storage h
    | near place delta => exact h s.pins
    | address n => exact h s.pins

private theorem run_copyRun (p : ByteRun) (r : Range) (s : Session σ) :
    (copyRun p r).run s = taken s (p.copyTo s.world.memory r) := by
  unfold copyRun
  rw [run_bind_ok (run_memory s)]
  cases p.copyTo s.world.memory r with
  | error e => rfl
  | ok result => rfl

/-- Copying takes no more than the memory to know what becomes of it, and changes nothing else. -/
theorem run_copyFrom (r : Range) (data : ByteSource) (s : Session σ) :
    (copyFrom r data).run s = taken s (copyInto s.world.memory r data) := by
  unfold copyFrom copyInto
  rw [run_bind_ok (run_memory s)]
  cases data.run? s.world.memory with
  | error e => rfl
  | ok p =>
    have hviewed (pins : List Nat) : (viewing r true (copyRun p r)).run { s with pins } =
        taken { s with pins } (r.writable?.bind fun _ => p.copyTo s.world.memory r) :=
      run_viewing_taken fun pins => run_copyRun p r { s with pins }
    refine (run_pinning_taken p.place hviewed).trans ?_
    cases hr : r.writable? with
    | error e => rfl
    | ok r' =>
      obtain ⟨rfl, -⟩ := Range.eq_of_writable? hr
      rfl

private theorem laid_copy (name : String) (d : Description) :
    Keeps Laid (copy name d : Act σ Nat) := by
  intro s hs
  unfold copy
  rcases run_rangeOf_cases s name with ⟨place, r, -, hthing, hrun⟩ | ⟨e, hrun⟩
  · rw [run_bind_ok hrun]
    refine laid_argument d (fun t => ?_) s hs
    rintro s ⟨hs, ht⟩
    rw [run_copyFrom]
    cases hcopy : copyInto s.world.memory r (.object t.argument) with
    | error e => exact hs
    | ok result => exact hs.withMemory (larger_copyInto hcopy)
  · rw [run_bind_error hrun]
    exact hs

end Copy

end Act

namespace Handling

open Act

variable {L : Libraries σ} {s : Session σ}

/-- The session after a step, whatever becomes of the step. -/
def run (L : Libraries σ) (s : Session σ) (step : Handling) : Session σ :=
  ((handle L step).run s).2

theorem laid_run (hs : Laid s) (step : Handling) : Laid (step.run L s) := by
  cases step with
  | object name d => exact Keeps.discard (laid_newObject name d) s hs
  | range name d offset length => exact Keeps.discard (laid_newRange name d offset length) s hs
  | whole name d writable => exact Keeps.discard (laid_newWhole name d writable) s hs
  | slice name source offset length =>
    exact Keeps.discard (laid_newSlice name source offset length) s hs
  | view name writable stores fail growing =>
    exact Keeps.discard (laid_openView name writable stores fail growing) s hs
  | copy name d => exact Keeps.discard (laid_copy name d) s hs
  | grow name => exact Keeps.discard (laid_grow name) s hs
  | drop name => exact hs.forget name
  | buffer name size => exact Keeps.discard (laid_newDirect name size) s hs
  | bufferOf name d => exact Keeps.discard (laid_directOf name d) s hs
  | use name u => exact Keeps.discard (laid_use name u) s hs

end Handling

namespace Session

variable {L : Libraries σ}

theorem laid_start (around : Surroundings) (l : σ) : Laid (start around l) where
  named := (orderly_start around l).named
  closed := rfl
  lies _ ht := absurd ht List.not_mem_nil
  apart _ _ _ hv := absurd hv List.not_mem_nil

theorem Laid.run {s : Session σ} (hs : Laid s) (steps : List Handling) :
    Laid (steps.foldl (Handling.run L) s) := by
  induction steps generalizing s with
  | nil => exact hs
  | cons step steps ih => exact ih (step.laid_run hs)

end Session

end NativeCodec
