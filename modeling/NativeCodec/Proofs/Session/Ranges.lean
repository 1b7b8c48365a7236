import NativeCodec.Proofs.Session.Handling

/-!
Ranges over whole sessions.

A range is checked when it is made, and every slice against the range that it is a slice of. Its
storage may then be asked to grow at any time, but is held in place while a name stands for a range
over it (`pinnedAt_iff`) or a view is open. `ranges_inside` says what this comes to after any steps.
-/

set_option autoImplicit false
set_option relaxedAutoImplicit false

namespace NativeCodec

open Native Session

variable {σ : Type}

def Session.called (s : Session σ) (name : String) : Option Thing :=
  (s.names.lookup name).bind fun place => s.things[place]?

def Session.range? (s : Session σ) (name : String) : Option Range :=
  match s.called name with
  | some (.range r) => some r
  | _ => none

/-- The view of the object that a name stands for, if the object can grow. -/
def Session.growable? (s : Session σ) (name : String) : Option View :=
  match s.called name with
  | some (.view v true) => some v
  | _ => none

def Session.Spans (s : Session σ) (storage : Nat) : Prop :=
  ∃ name r, s.range? name = some r ∧ r.start.base = .managed storage

namespace Act

variable {s : Session σ} {L : Libraries σ} {name : String}

private theorem called_eq_some {t : Thing} (h : s.called name = some t) :
    ∃ place, s.names.lookup name = some place ∧ s.things[place]? = some t :=
  Option.bind_eq_some_iff.mp h

private theorem range?_eq_some {r : Range} (h : s.range? name = some r) :
    ∃ place, s.names.lookup name = some place ∧ s.things[place]? = some (.range r) := by
  unfold Session.range? at h
  split at h
  · next r' hcalled =>
    obtain rfl := Option.some.inj h
    exact called_eq_some hcalled
  · exact absurd h (by simp)

private theorem lies_of_range? {r : Range} (hs : Laid s) (h : s.range? name = some r) :
    r.Lies s.things s.world.memory := by
  obtain ⟨place, -, hthing⟩ := range?_eq_some h
  exact hs.lies _ (List.mem_of_getElem? hthing)

private theorem growable?_eq_some {v : View} (h : s.growable? name = some v) :
    ∃ place, s.names.lookup name = some place ∧ s.things[place]? = some (.view v true) := by
  unfold Session.growable? at h
  split at h
  · next v' hcalled =>
    obtain rfl := Option.some.inj h
    exact called_eq_some hcalled
  · exact absurd h (by simp)

/-- While no view is open, a storage is held in place by the ranges over it that have a name. -/
theorem pinnedAt_iff (hs : Laid s) (storage : Nat) :
    pinnedAt s storage = true ↔ s.Spans storage := by
  unfold pinnedAt
  rw [hs.closed, List.contains_nil, Bool.false_or, List.any_eq_true]
  constructor
  · rintro ⟨⟨name, place⟩, hmem, hrange⟩
    have hstands : s.stands place = true :=
      List.any_eq_true.mpr ⟨(name, place), hmem, beq_self_eq_true place⟩
    -- the entry may be of another name than the one looked up; some name stands for the range
    obtain ⟨other, hlookup⟩ := hs.named.stands_iff.mp hstands
    dsimp only at hrange
    cases hthing : s.things[place]? with
    | none => simp [hthing] at hrange
    | some t =>
      cases t with
      | range r =>
        rw [hthing] at hrange
        refine ⟨other, r, ?_, eq_of_beq hrange⟩
        unfold Session.range? Session.called
        rw [hlookup, Option.bind_some, hthing]
      | _ => simp [hthing] at hrange
  · rintro ⟨name, r, hrange, hbase⟩
    obtain ⟨place, hlookup, hthing⟩ := range?_eq_some hrange
    obtain ⟨p, hmem, hp⟩ := List.any_eq_true.mp (stands_of_lookup hlookup)
    obtain rfl := eq_of_beq hp
    refine ⟨p, hmem, ?_⟩
    dsimp only
    rw [hthing]
    exact beq_iff_eq.mpr hbase

private theorem run_grow (hs : Laid s) {v : View} (hv : s.growable? name = some v) :
    (s.Spans v.place → (grow name).run s = (.error .pinned, s)) ∧
      (¬s.Spans v.place → (grow name).run s = (.ok (s.world.memory.size v.place + 1),
        s.withMemory (s.world.memory.set v.place (s.world.memory.get v.place).grow))) := by
  obtain ⟨place, hlookup, hthing⟩ := growable?_eq_some hv
  have hrun : (grow name).run s = (growAt v.place).run s := by
    unfold grow
    rw [run_bind_ok (run_thing_some hlookup), List.getD_eq_getElem?_getD, hthing]
    rfl
  rw [hrun, run_growAt, ← pinnedAt_iff hs]
  constructor
  · intro hpinned
    rw [if_pos hpinned]
  · intro hfree
    rw [if_neg hfree]

private theorem openView_of_range {r : Range} (hr : s.range? name = some r) (writable : Bool)
    (stores : List (Nat × UInt8)) (fail growing : Bool) :
    let view := (openView name writable stores fail growing).run s
    (∃ m, view.2 = s.withMemory m ∧ ∀ place, m.size place = s.world.memory.size place) ∧
      ∀ shown, view.1 = .ok shown →
        shown.grown = if growing then some (.error (growthRefusal s.things r)) else none := by
  obtain ⟨place, hlookup, hthing⟩ := range?_eq_some hr
  have hrun : (rangeOf name).run s = (.ok r, s) := by
    unfold rangeOf
    rw [run_bind_ok (run_thing_some hlookup), List.getD_eq_getElem?_getD, hthing]
    rfl
  rw [run_openView hrun]
  split
  · exact ⟨⟨s.world.memory, rfl, fun _ => rfl⟩, fun _ h => absurd h (by simp)⟩
  · refine ⟨⟨_, rfl, fun place => Memory.size_poke _ _ _ place⟩, ?_⟩
    rintro shown hshown
    cases fail with
    | true => exact absurd hshown (by simp [Act.shown])
    | false => exact (congrArg Shown.grown (Except.ok.inj hshown)).symm

private theorem growthRefusal_of_growable {things : List Thing} {r : Range} {v : View}
    (hv : .view v true ∈ things) (hbase : r.start.base = .managed v.place) :
    growthRefusal things r = .pinned := by
  have hany : things.any (growableAt v.place) = true :=
    List.any_eq_true.mpr ⟨_, hv, by simp [growableAt]⟩
  unfold growthRefusal
  rw [hbase]
  exact if_pos hany

private theorem keepRange_error {outcome : Except Error Range} {name : Option String} {e : Error}
    (h : ((do
      let r ← ofExcept outcome
      keep L name (.range r)
      return r : Act σ Range).run s).1 = .error e) :
    ((do
      let r ← ofExcept outcome
      keep L name (.range r)
      return r : Act σ Range).run s).2 = s := by
  cases outcome with
  | error e => rfl
  | ok r =>
    change ((keep L name (.range r) >>= fun _ => pure r).run s).1 = .error e at h
    rw [run_bind_pure, run_keep] at h
    exact absurd h (by simp [Except.map])

private theorem newSlice_error {name : Option String} {source : String} {offset : Int}
    {length : Option Int} {e : Error}
    (h : ((newSlice L name source offset length).run s).1 = .error e) :
    ((newSlice L name source offset length).run s).2 = s := by
  unfold newSlice at h ⊢
  rcases run_rangeOf_cases s source with ⟨place, r, -, -, hrun⟩ | ⟨e', hrun⟩
  · rw [run_bind_ok hrun] at h ⊢
    exact keepRange_error h
  · rw [run_bind_error hrun]

private theorem newRange_error {name : Option String} {d : Description} {offset : Int}
    {length : Option Int} {e : Error}
    (h : ((newRange L name d offset length).run s).1 = .error e) :
    ((newRange L name d offset length).run s).2 = ((make d).run s).2 := by
  have hargument : ((argument d).run s).2 = ((make d).run s).2 := by
    unfold argument
    rw [run_bind]
    rcases (make d).run s with ⟨e' | place, s₁⟩
    · rfl
    · rfl
  rw [← hargument]
  unfold newRange at h ⊢
  rcases hrun : (argument d).run s with ⟨e' | a, s₁⟩
  · rw [run_bind_error hrun]
  · rw [run_bind_ok hrun] at h ⊢
    exact keepRange_error h

private theorem newWhole_error {name : Option String} {d : Description} {writable : Bool}
    {e : Error}
    (h : ((newWhole L name d writable).run s).1 = .error e) :
    ((newWhole L name d writable).run s).2 = ((make d).run s).2 := by
  rcases hrun : (make d).run s with ⟨e' | place, s₁⟩
  · unfold newWhole
    rw [run_bind_error hrun]
  · rcases run_newWhole_cases L name writable hrun with
      ⟨e', hwhole⟩ | ⟨r, s', -, hwhole, -⟩
    · rw [hwhole]
    · rw [hwhole] at h
      exact absurd h (by simp)

private theorem make_named (s : Session σ) (source : String) :
    ((make (.named source)).run s).2 = s := by
  cases hlookup : s.names.lookup source with
  | none => exact congrArg Prod.snd (run_place_none hlookup)
  | some place => exact congrArg Prod.snd (run_place_some hlookup)

private theorem prepared_make (hs : Laid s) (d : Description) : Prepared s ((make d).run s).2 := by
  have hready := ready_make d s (Prepared.refl hs)
  rcases hrun : (make d).run s with ⟨e | place, s₁⟩
  · rw [hrun] at hready
    exact hready
  · rw [hrun] at hready
    exact hready.1

end Act

open Act

/-- What a session keeps to with its ranges. A range lies inside its storage as it is now, or inside
the direct buffer that it was taken from. An object that can grow is refused that while a name
stands for a range over its storage, and grows otherwise; in a view of a range it is always refused.
A range that is refused is not kept: an object that it would have been of is made, unless it had a
name already, and all else is as it was. -/
structure Session.KeepsRanges (L : Libraries σ) (s : Session σ) : Prop where
  managed : ∀ name r place, s.range? name = some r → r.start.base = .managed place →
    r.offset + r.length ≤ s.world.memory.size place
  near : ∀ name r place delta, s.range? name = some r → r.start.base = .near place delta →
    delta = 0 ∧ ∃ b, .direct b ∈ s.things ∧ b.place = place ∧ r.offset + r.length ≤ b.size
  pinned : ∀ name v, s.growable? name = some v → s.Spans v.place →
    (grow name).run s = (.error .pinned, s)
  grows : ∀ name v, s.growable? name = some v → ¬s.Spans v.place →
    (grow name).run s = (.ok (s.world.memory.size v.place + 1),
      s.withMemory (s.world.memory.set v.place (s.world.memory.get v.place).grow))
  viewed : ∀ name r, s.range? name = some r → ∀ writable stores fail growing,
    let view := (openView name writable stores fail growing).run s
    (∃ m, view.2 = s.withMemory m ∧ ∀ place, m.size place = s.world.memory.size place) ∧
      ∀ shown, view.1 = .ok shown →
        shown.grown = if growing then some (.error (growthRefusal s.things r)) else none
  refusal : ∀ name r v, s.range? name = some r → .view v true ∈ s.things →
    r.start.base = .managed v.place → growthRefusal s.things r = .pinned
  slice_refused : ∀ name source offset length e,
    ((newSlice L name source offset length).run s).1 = .error e →
      ((newSlice L name source offset length).run s).2 = s
  range_refused : ∀ name d offset length e,
    ((newRange L name d offset length).run s).1 = .error e →
      ((newRange L name d offset length).run s).2 = ((make d).run s).2
  whole_refused : ∀ name d writable e, ((newWhole L name d writable).run s).1 = .error e →
    ((newWhole L name d writable).run s).2 = ((make d).run s).2
  made : ∀ d, Prepared s ((make d).run s).2
  named : ∀ source, ((make (.named source)).run s).2 = s

private theorem Session.Laid.keepsRanges {s : Session σ} (hs : Laid s) (L : Libraries σ) :
    s.KeepsRanges L where
  managed name r place hr hbase := by
    have hlies := lies_of_range? hs hr
    unfold Range.Lies at hlies
    rw [hbase] at hlies
    exact hlies.2
  near name r place delta hr hbase := by
    have hlies := lies_of_range? hs hr
    unfold Range.Lies at hlies
    rw [hbase] at hlies
    exact hlies
  pinned _ _ hv := (run_grow hs hv).1
  grows _ _ hv := (run_grow hs hv).2
  viewed _ _ hr writable stores fail growing := openView_of_range hr writable stores fail growing
  refusal _ _ _ _ hv hbase := growthRefusal_of_growable hv hbase
  slice_refused _ _ _ _ _ h := newSlice_error h
  range_refused _ _ _ _ _ h := newRange_error h
  whole_refused _ _ _ _ h := newWhole_error h
  made := prepared_make hs
  named := make_named s

/-- After any steps with objects and ranges, a session keeps to its ranges. -/
theorem ranges_inside (L : Libraries σ) (around : Surroundings) (l : σ) (steps : List Handling) :
    (steps.foldl (Handling.run L) (start around l)).KeepsRanges L :=
  ((laid_start around l).run steps).keepsRanges L

/-- Of a range that has lost its name a slice is left; it holds the object in place on its own. -/
theorem ranges_inside_sliced :
    let L := system (.error .endless)
    let around : Surroundings :=
      { host := { marker := "__init__.py", moduleSuffix := ".py" }
        environment := []
        stem := "NATIVE"
        separator := ":"
        package := "native" }
    let steps : List Handling := [
      .object "data" (.view "bytearray" [1, 2, 3, 4, 5] false true),
      .range (some "range") (.named "data") 1 none, .slice (some "part") "range" 2 (some 2),
      .slice (some "outside") "range" 3 (some 2), .drop "range"]
    let s : Session Contexts := steps.foldl (Handling.run L) (start around {})
    s.range? "outside" = none ∧ s.range? "range" = none ∧
      (grow "data").run s = (.error .pinned, s) := by
  intro L around steps s
  have houtside : s.range? "outside" = none := by decide +kernel
  have hrange : s.range? "range" = none := by decide +kernel
  have hpart : s.range? "part" = some ⟨⟨.managed 0, 3⟩, 2, "bytearray", false⟩ := by
    decide +kernel
  have hdata : s.growable? "data" = some ⟨"bytearray", 0, false, true, .byte, none⟩ := by
    decide +kernel
  have hkeeps := ranges_inside L around {} steps
  exact ⟨houtside, hrange, hkeeps.pinned "data" _ hdata ⟨"part", _, hpart, rfl⟩⟩

end NativeCodec
