import NativeCodec.Proofs.Library.Tables
import NativeCodec.Proofs.Session.Handling
import NativeCodec.Session.Loading

/-!
Binding functions in a session.

Libraries are named, declarations are read, and functions are bound, in any order. Binding does to
the table of one library what binding does to a table, and to no other thing (`run_bindFunction`).
Steps keep the tables sound and let them grow (`Linking.linked_run`, `Linking.extends_run`), so that
what was bound stays bound and what was refused is refused again (`bindings_only_grow`).
-/

set_option autoImplicit false
set_option relaxedAutoImplicit false

namespace NativeCodec

open Native Library Session

variable {σ : Type}

/-- What libraries are named and used for. -/
inductive Linking
  | library (name library : String) (path : Option String) (exports : List String)
  | standard (name : String)
  | declare (declaration : String)
  | bind (name : Option String) (library symbol declaration : String)

namespace Session

variable {L : Libraries σ} {s s' s'' : Session σ}

private theorem declarations_forget (s : Session σ) (name : String) :
    (s.forget L name).declarations = s.declarations := by
  obtain ⟨_, _, h⟩ := exists_forget_eq (L := L) s name
  rw [h]
  rfl

private theorem declarations_assign (s : Session σ) (name : String) (place : Nat) :
    (s.assign L name place).declarations = s.declarations := by
  unfold Session.assign
  split
  · rfl
  · exact declarations_forget s name

private theorem things_assign (s : Session σ) (name : String) (place : Nat) :
    (s.assign L name place).things = s.things := by
  unfold Session.assign
  split
  · rfl
  · exact things_forget s name

/-- There is a library with a table at a place. -/
def HasTable (s : Session σ) (place : Nat) (t : Table) (standard : Bool) : Prop :=
  s.things[place]? = some (.library t standard)

private theorem set_of_hasTable {place : Nat} {t : Table} {standard : Bool}
    (h : s.HasTable place t standard) : s.things.set place (.library t standard) = s.things := by
  obtain ⟨hplace, hget⟩ := List.getElem?_eq_some_iff.mp h
  rw [← hget, List.set_getElem_self]

/-- Every table is sound, and no declaration was read twice. -/
structure Linked (s : Session σ) : Prop where
  tables : ∀ place t standard, s.HasTable place t standard → t.Sound
  read : s.declarations.read.Nodup

/-- The libraries of a session stay in their places, and their tables and the declarations that were
read only grow. -/
structure Extends (s s' : Session σ) : Prop where
  tables : ∀ place t standard, s.HasTable place t standard →
    ∃ t', s'.HasTable place t' standard ∧ t.Extends t'
  read : s.declarations.read <+: s'.declarations.read

private theorem linked_start (around : Surroundings) (l : σ) : Linked (start around l) where
  tables _ _ _ h := absurd h (by simp [HasTable, start])
  read := List.nodup_nil

private theorem Extends.refl (s : Session σ) : s.Extends s where
  tables _ t _ h := ⟨t, h, .refl t⟩
  read := List.prefix_rfl

private theorem Extends.trans (h : s.Extends s') (h' : s'.Extends s'') : s.Extends s'' where
  tables place t standard ht := by
    obtain ⟨t', ht', hextends⟩ := h.tables place t standard ht
    obtain ⟨t'', ht'', hextends'⟩ := h'.tables place t' standard ht'
    exact ⟨t'', ht'', hextends.trans hextends'⟩
  read := h.read.trans h'.read

private theorem extends_of_append {more : List Thing} (hthings : s'.things = s.things ++ more)
    (hread : s.declarations.read <+: s'.declarations.read) : s.Extends s' where
  tables place t standard h := by
    refine ⟨t, ?_, .refl t⟩
    unfold HasTable at h ⊢
    rw [hthings, List.getElem?_append_left (List.getElem?_eq_some_iff.mp h).1]
    exact h
  read := hread

private theorem HasTable.of_append {place : Nat} {t : Table} {standard : Bool} {more : List Thing}
    (h : s'.HasTable place t standard) (hthings : s'.things = s.things ++ more) :
    s.HasTable place t standard ∨ Thing.library t standard ∈ more := by
  unfold HasTable at h ⊢
  rw [hthings, List.getElem?_append] at h
  split at h
  · exact .inl h
  · exact .inr (List.mem_of_getElem? h)

def reading (s : Session σ) (read : Option String) : Declarations :=
  read.elim s.declarations s.declarations.add

/-- A table takes the place of another, a declaration is read, and the function that was bound may
become a thing. Where there is none, there is no further difference. -/
structure BoundAt (s : Session σ) (place : Nat) (standard : Bool) (outcome : Except Error Bound)
    (t' : Table) (read : Option String) (s' : Session σ) : Prop where
  things : ∃ more, s'.things = s.things.set place (.library t' standard) ++ more ∧
    ∀ thing ∈ more, ∃ b, thing = .bound b standard
  declarations : s'.declarations = s.reading read
  refused : ∀ e, outcome = .error e →
    s'.names = s.names ∧ s'.things = s.things.set place (.library t' standard)

section Binding

variable {place : Nat} {t t' : Table} {standard : Bool} {outcome : Except Error Bound}
  {read : Option String}

private theorem BoundAt.hasTable (h : s.BoundAt place standard outcome t' read s')
    (ht : s.HasTable place t standard) : s'.HasTable place t' standard := by
  obtain ⟨more, hthings, -⟩ := h.things
  have hplace := (List.getElem?_eq_some_iff.mp ht).1
  have hset : place < (s.things.set place (.library t' standard)).length := by
    rw [List.length_set]
    exact hplace
  unfold HasTable
  rw [hthings, List.getElem?_append_left hset, List.getElem?_set_self hplace]

private theorem BoundAt.getElem?_ne (h : s.BoundAt place standard outcome t' read s') {other : Nat}
    (hother : other < s.things.length) (hne : other ≠ place) :
    s'.things[other]? = s.things[other]? := by
  obtain ⟨more, hthings, -⟩ := h.things
  have hset : other < (s.things.set place (.library t' standard)).length := by
    rw [List.length_set]
    exact hother
  rw [hthings, List.getElem?_append_left hset, List.getElem?_set_ne hne.symm]

private theorem BoundAt.extends (h : s.BoundAt place standard outcome t' read s')
    (ht : s.HasTable place t standard) (hextends : t.Extends t') : s.Extends s' where
  tables other u standard' hu := by
    by_cases hplace : other = place
    · subst hplace
      obtain ⟨rfl, rfl⟩ : t = u ∧ standard = standard' := by
        simpa using Option.some.inj (ht.symm.trans hu)
      exact ⟨t', h.hasTable ht, hextends⟩
    · refine ⟨u, ?_, .refl u⟩
      unfold HasTable
      rw [h.getElem?_ne (List.getElem?_eq_some_iff.mp hu).1 hplace]
      exact hu
  read := by
    rw [h.declarations]
    cases read with
    | none => exact List.prefix_rfl
    | some declaration => exact s.declarations.prefix_add declaration

private theorem BoundAt.linked (h : s.BoundAt place standard outcome t' read s') (hs : s.Linked)
    (ht' : t'.Sound) : s'.Linked where
  tables other u standard' hu := by
    obtain ⟨more, hthings, hmore⟩ := h.things
    have hcases := HasTable.of_append
      (s := { s with things := s.things.set place (.library t' standard) }) hu hthings
    rcases hcases with hold | hnew
    · rcases List.mem_or_eq_of_mem_set (List.mem_of_getElem? hold) with hmem | heq
      · obtain ⟨origin, horigin⟩ := List.getElem?_of_mem hmem
        exact hs.tables origin u standard' horigin
      · obtain ⟨rfl, -⟩ : u = t' ∧ standard' = standard := by simpa using heq
        exact ht'
    · obtain ⟨b, hb⟩ := hmore _ hnew
      exact absurd hb (by simp)
  read := by
    rw [h.declarations]
    cases read with
    | none => exact hs.read
    | some declaration => exact Declarations.nodup_add hs.read declaration

end Binding

end Session

namespace Act

variable {L : Libraries σ} {s s' : Session σ}

def link (L : Libraries σ) : Linking → Act σ Unit
  | .library name library path exports => discard (newLibrary L name library path exports)
  | .standard name => discard (newStandard L name)
  | .declare declaration => declare declaration
  | .bind name library symbol declaration =>
    discard (bindFunction L name library symbol declaration)

private theorem things_keep (name : Option String) (t : Thing) (s : Session σ) :
    ∃ more, ((keep L name t).run s).2.things = s.things ++ more ∧ ∀ thing ∈ more, thing = t := by
  cases name with
  | none => exact ⟨[], (List.append_nil _).symm, fun _ h => absurd h List.not_mem_nil⟩
  | some name => exact ⟨[t], things_assign _ _ _, fun _ h => List.mem_singleton.mp h⟩

private theorem declarations_keep (name : Option String) (t : Thing) (s : Session σ) :
    ((keep L name t).run s).2.declarations = s.declarations := by
  cases name with
  | none => rfl
  | some name => exact declarations_assign _ _ _

def settle (L : Libraries σ) (name : Option String) (place : Nat) (standard : Bool)
    (change : Table.Change) : Act σ (Bound × Nat × List String) := do
  put place (.library change.table standard)
  leave change.notes
  let b ← ofExcept change.outcome
  keep L name (.bound b standard)
  let names := (change.table.bound.map (·.name)).mergeSort fun a b => decide (a ≤ b)
  return (b, ← showFunction b, names)

private theorem run_settle (name : Option String) (place : Nat) (standard : Bool)
    (change : Table.Change)
    (s : Session σ) :
    let after := (settle L name place standard change).run s
    after.1.map (·.1) = change.outcome ∧
      s.BoundAt place standard change.outcome change.table none after.2 := by
  obtain ⟨outcome, table, notes⟩ := change
  let s₁ : Session σ := { s with
    things := s.things.set place (.library table standard)
    world := { s.world with events := (notes.map Event.noted).reverse ++ s.world.events } }
  have hput : (put place (.library table standard) : Act σ Unit).run s =
      (.ok (), { s with things := s.things.set place (.library table standard) }) := rfl
  have hleave : (leave notes : Act σ Unit).run
      { s with things := s.things.set place (.library table standard) } = (.ok (), s₁) := rfl
  unfold settle
  dsimp only
  rw [run_bind_ok hput, run_bind_ok hleave]
  cases outcome with
  | error e =>
    refine ⟨rfl, ⟨[], (List.append_nil _).symm, fun _ h => absurd h List.not_mem_nil⟩, rfl,
      fun _ _ => ⟨rfl, rfl⟩⟩
  | ok b =>
    have hgiven : (ofExcept (.ok b) : Act σ Bound).run s₁ = (.ok b, s₁) := rfl
    have hkeep : (keep L name (.bound b standard)).run s₁ =
        (.ok (), ((keep L name (.bound b standard)).run s₁).2) :=
      Prod.ext (run_keep name _) rfl
    obtain ⟨more, hthings, hmore⟩ := things_keep (L := L) name (.bound b standard) s₁
    rw [run_bind_ok hgiven, run_bind_ok hkeep]
    exact ⟨rfl, ⟨more, hthings, fun thing hthing => ⟨b, hmore thing hthing⟩⟩,
      declarations_keep name _ s₁, fun _ h => absurd h (by simp)⟩

theorem run_bindFunction {place : Nat} {t : Table} {standard : Bool} {library : String}
    (hname : s.names.lookup library = some place) (ht : s.HasTable place t standard)
    (name : Option String) (symbol declaration : String) :
    let after := (bindFunction L name library symbol declaration).run s
    ∃ outcome t' read, t.Binds symbol declaration outcome t' read ∧
      after.1.map (·.1) = outcome ∧ s.BoundAt place standard outcome t' read after.2 := by
  have hbinds := t.binds symbol declaration
  refine ⟨_, _, _, hbinds, ?_⟩
  unfold bindFunction
  rw [run_bind_ok (run_place_some hname), run_bind_ok (run_thingAt place s),
    List.getD_eq_getElem?_getD, ht, Option.getD_some]
  dsimp only
  cases t.declared? symbol declaration with
  | none => exact run_settle name place standard (t.bind symbol declaration) s
  | some read =>
    have hdeclare : (declare read : Act σ Unit).run s =
        (.ok (), { s with declarations := s.declarations.add read }) := rfl
    dsimp only
    rw [run_bind_ok hdeclare]
    obtain ⟨houtcome, hthings, hread, hrefused⟩ := run_settle (L := L) name place standard
      (t.bind symbol declaration) { s with declarations := s.declarations.add read }
    exact ⟨houtcome, hthings, hread, hrefused⟩

private theorem eq_error_of_map {α β : Type} {f : α → β} {outcome : Except Error α} {e : Error}
    (h : outcome.map f = .error e) : outcome = .error e := by
  cases outcome with
  | error _ => exact congrArg Except.error (Except.error.inj h)
  | ok a => exact absurd h (by simp [Except.map])

private theorem run_bindFunction_cases (s : Session σ) (name : Option String)
    (library symbol declaration : String) :
    (∃ place t standard, s.names.lookup library = some place ∧ s.HasTable place t standard) ∨
      ∃ e, (bindFunction L name library symbol declaration).run s = (.error e, s) := by
  cases hname : s.names.lookup library with
  | none => exact .inr ⟨_, run_bind_error (run_place_none hname) _⟩
  | some place =>
    unfold bindFunction
    rw [run_bind_ok (run_place_some hname), run_bind_ok (run_thingAt place s),
      List.getD_eq_getElem?_getD]
    cases hthing : s.things[place]? with
    | none => exact .inr ⟨_, rfl⟩
    | some thing =>
      cases thing with
      | library t standard => exact .inl ⟨place, t, standard, rfl, hthing⟩
      | _ => exact .inr ⟨_, rfl⟩

end Act

namespace Linking

open Act

variable {L : Libraries σ} {s : Session σ}

/-- The session that a step leaves. -/
def run (L : Libraries σ) (s : Session σ) (step : Linking) : Session σ := ((link L step).run s).2

private theorem run_cases (L : Libraries σ) (s : Session σ) (step : Linking) :
    (∃ library exports standard,
      (step.run L s).things = s.things ++ [.library { library, exports } standard] ∧
        (step.run L s).declarations = s.declarations) ∨
    (∃ declaration, step.run L s = { s with declarations := s.declarations.add declaration }) ∨
    (∃ place t standard symbol declaration outcome t' read, s.HasTable place t standard ∧
      t.Binds symbol declaration outcome t' read ∧
      s.BoundAt place standard outcome t' read (step.run L s)) ∨
    step.run L s = s := by
  cases step with
  | library name library path exports =>
    exact .inl ⟨⟨s.openings, library, path, .explicit⟩, exports, false, things_assign _ _ _,
      declarations_assign _ _ _⟩
  | standard name =>
    exact .inl ⟨⟨s.openings, "c", none, .explicit⟩, standardNames, true, things_assign _ _ _,
      declarations_assign _ _ _⟩
  | declare declaration => exact .inr (.inl ⟨declaration, rfl⟩)
  | bind name library symbol declaration =>
    have hrun : (Linking.bind name library symbol declaration).run L s =
        ((bindFunction L name library symbol declaration).run s).2 := by
      change ((discard (bindFunction L name library symbol declaration)).run s).2 = _
      rw [run_discard]
    rw [hrun]
    rcases run_bindFunction_cases (L := L) s name library symbol declaration with
      ⟨place, t, standard, hname, ht⟩ | ⟨e, hrefused⟩
    · obtain ⟨outcome, t', read, hbinds, -, hbound⟩ :=
        run_bindFunction (L := L) hname ht name symbol declaration
      exact .inr (.inr (.inl
        ⟨place, t, standard, symbol, declaration, outcome, t', read, ht, hbinds, hbound⟩))
    · rw [hrefused]
      exact .inr (.inr (.inr rfl))

theorem extends_run (L : Libraries σ) (s : Session σ) (step : Linking) :
    s.Extends (step.run L s) := by
  rcases run_cases L s step with ⟨library, exports, standard, hthings, hread⟩ | ⟨declaration, h⟩ |
    ⟨place, t, standard, symbol, declaration, outcome, t', read, ht, hbinds, hbound⟩ | h
  · exact extends_of_append hthings ⟨[], by rw [hread, List.append_nil]⟩
  · rw [h]
    exact extends_of_append (List.append_nil _).symm (s.declarations.prefix_add declaration)
  · exact hbound.extends ht hbinds.extends
  · rw [h]
    exact .refl s

theorem linked_run (hs : s.Linked) (step : Linking) : (step.run L s).Linked := by
  rcases run_cases L s step with ⟨library, exports, standard, hthings, hread⟩ | ⟨declaration, h⟩ |
    ⟨place, t, standard, symbol, declaration, outcome, t', read, ht, hbinds, hbound⟩ | h
  · refine ⟨fun place t standard' ht => ?_, ?_⟩
    · rcases ht.of_append hthings with hold | hnew
      · exact hs.tables place t standard' hold
      · obtain ⟨rfl, -⟩ : t = _ ∧ standard' = standard := by
          simpa using List.mem_singleton.mp hnew
        exact Table.sound_empty library exports
    · rw [hread]
      exact hs.read
  · rw [h]
    exact ⟨hs.tables, Declarations.nodup_add hs.read declaration⟩
  · exact hbound.linked hs (hbinds.sound (hs.tables place t standard ht))
  · rw [h]
    exact hs

end Linking

namespace Session

open Act

variable {L : Libraries σ} {s : Session σ}

private theorem Linked.run (hs : s.Linked) (steps : List Linking) :
    (steps.foldl (Linking.run L) s).Linked := by
  induction steps generalizing s with
  | nil => exact hs
  | cons step steps ih => exact ih (Linking.linked_run hs step)

private theorem extends_run (L : Libraries σ) (s : Session σ) (steps : List Linking) :
    s.Extends (steps.foldl (Linking.run L) s) := by
  induction steps generalizing s with
  | nil => exact .refl s
  | cons step steps ih => exact (Linking.extends_run L s step).trans (ih _)

/-- Binding a name on the library at a place goes as it went before: what was bound is given again,
whatever declaration declares it, and what was refused is refused with the same kind of error. -/
def BindsAgain (L : Libraries σ) (s : Session σ) (place : Nat) (symbol declaration : String) :
    Except Error Bound → Prop
  | .ok b => ∀ library, s.names.lookup library = some place →
    ∀ name declaration', Declared declaration' symbol →
      ((bindFunction L name library symbol declaration').run s).1.map (·.1) = .ok b
  | .error e => ∀ library, s.names.lookup library = some place →
    ∀ name, ∃ e', ((bindFunction L name library symbol declaration).run s).1 = .error e' ∧
      e'.kind = e.kind

private theorem Extends.bindsAgain {s' : Session σ} {place : Nat} {t t' : Table} {standard : Bool}
    {symbol declaration : String} {outcome : Except Error Bound} {read : Option String}
    (h : s.Extends s') (hs' : s'.Linked) (ht' : s.HasTable place t' standard)
    (hbinds : t.Binds symbol declaration outcome t' read) :
    s'.BindsAgain L place symbol declaration outcome := by
  obtain ⟨u, hu, hextends⟩ := h.tables place t' standard ht'
  have hsound := hs'.tables place u standard hu
  cases outcome with
  | ok b =>
    intro library hname name declaration' hdeclared
    obtain ⟨outcome', u', read', hbinds', hanswer, -⟩ :=
      run_bindFunction (L := L) hname hu name symbol declaration'
    obtain ⟨hbound, hb⟩ := hbinds.mem_of_ok
    rw [hanswer]
    exact (hbinds'.of_mem hsound hdeclared (hextends.bound_prefix.mem hbound) hb).1
  | error e =>
    intro library hname name
    obtain ⟨outcome', u', read', hbinds', hanswer, -⟩ :=
      run_bindFunction (L := L) hname hu name symbol declaration
    have hexports : u.exports = t.exports :=
      hextends.exports_eq.trans hbinds.extends.exports_eq
    obtain ⟨e', rfl, hkind⟩ := hbinds.refused_again hbinds' hsound hexports
    exact ⟨e', Act.eq_error_of_map hanswer, hkind⟩

/-- What binding a symbol on the table at a place comes to. It touches that table alone. A symbol
that is bound is given again; where it is refused, no thing and no name is changed, and the error
tells whether the symbol is not declared or not exported. However the session goes on, binding the
symbol again goes the same way. -/
structure BindsOn (L : Libraries σ) (s : Session σ) (place : Nat) (t : Table) (standard : Bool)
    (symbol declaration : String) (outcome : Except Error Bound) (t' : Table)
    (read : Option String) (s' : Session σ) : Prop where
  binds : t.Binds symbol declaration outcome t' read
  table : s'.HasTable place t' standard
  others : ∀ other < s.things.length, other ≠ place → s'.things[other]? = s.things[other]?
  declarations : s'.declarations = s.reading read
  read_once : s'.declarations.read.Nodup
  again : ∀ b ∈ t.bound, b.name = symbol → Declared declaration symbol →
    outcome = .ok b ∧ t' = t ∧ read = none
  refused : ∀ e, outcome = .error e → s'.things = s.things ∧ s'.names = s.names ∧
    ((¬Declared declaration symbol ∧ e.kind = .value) ∨
      (Declared declaration symbol ∧ symbol ∉ t.exports ∧ e.kind = .symbolResolution))
  later : ∀ steps : List Linking,
    (steps.foldl (Linking.run L) s').BindsAgain L place symbol declaration outcome

private theorem BoundAt.bindsOn {s' : Session σ} {place : Nat} {t t' : Table} {standard : Bool}
    {symbol declaration : String} {outcome : Except Error Bound} {read : Option String}
    (h : s.BoundAt place standard outcome t' read s') (hs : s.Linked)
    (ht : s.HasTable place t standard) (hbinds : t.Binds symbol declaration outcome t' read) :
    s.BindsOn L place t standard symbol declaration outcome t' read s' where
  binds := hbinds
  table := h.hasTable ht
  others _ hother hne := h.getElem?_ne hother hne
  declarations := h.declarations
  read_once := (h.linked hs (hbinds.sound (hs.tables place t standard ht))).read
  again _ hb hsymbol hdeclared :=
    hbinds.of_mem (hs.tables place t standard ht) hdeclared hb hsymbol
  refused := by
    rintro e rfl
    obtain ⟨rfl, hkind⟩ := hbinds.error
    obtain ⟨hnames, hthings⟩ := h.refused e rfl
    refine ⟨?_, hnames, hkind⟩
    rw [hthings]
    exact set_of_hasTable ht
  later steps := by
    have hs' := h.linked hs (hbinds.sound (hs.tables place t standard ht))
    exact (extends_run L s' steps).bindsAgain (hs'.run steps) (h.hasTable ht) hbinds

/-- Whatever was linked before, a table has a name bound once, with a declaration that declares it,
to a symbol that the library exports, and no declaration is read twice. A table that is there stays,
and functions are only added to its end. Binding a symbol then goes as `BindsOn` says. -/
theorem bindings_only_grow (L : Libraries σ) (s : Session σ) (hs : s.Linked)
    (steps : List Linking) :
    let s₁ := steps.foldl (Linking.run L) s
    s₁.Linked ∧ s.Extends s₁ ∧
    ∀ place t standard, s₁.HasTable place t standard →
      ∀ library, s₁.names.lookup library = some place → ∀ name symbol declaration,
        let after := (bindFunction L name library symbol declaration).run s₁
        ∃ outcome t' read, after.1.map (·.1) = outcome ∧
          s₁.BindsOn L place t standard symbol declaration outcome t' read after.2 := by
  intro s₁
  have hlinked : s₁.Linked := hs.run steps
  refine ⟨hlinked, extends_run L s steps, fun place t standard ht library hname => ?_⟩
  intro name symbol declaration after
  obtain ⟨outcome, t', read, hbinds, hanswer, hbound⟩ :=
    run_bindFunction (L := L) hname ht name symbol declaration
  exact ⟨outcome, t', read, hanswer, hbound.bindsOn hlinked ht hbinds⟩

/-- Of two libraries one has a function bound; it is bound again with another declaration, and a
symbol that it does not export is refused. -/
theorem bindings_only_grow_cached :
    let L := system (.error .endless)
    let around : Surroundings :=
      { host := { marker := "__init__.py", moduleSuffix := ".py" }
        environment := []
        stem := "NATIVE"
        separator := ":"
        package := "native" }
    let steps : List Linking := [.library "a" "zstd" none ["f", "g"], .library "b" "lz4" none [],
      .bind (some "function") "a" "f" "int f (int);"]
    let s := steps.foldl (Linking.run L) (start around {})
    let f : Bound := ⟨0, "f", "int f (int);"⟩
    s.HasTable 0 ⟨⟨0, "zstd", none, .explicit⟩, ["f", "g"], [f]⟩ false ∧
      s.names.lookup "a" = some 0 ∧ Declared "long f(long);" "f" ∧
      ((bindFunction L none "a" "f" "long f(long);").run s).1.map (·.1) = .ok f ∧
      ∃ e, ((bindFunction L none "a" "h" "int h(void);").run s).1.map (·.1) = .error e ∧
        e.kind = .symbolResolution := by
  intro L around steps s f
  have ht : s.HasTable 0 ⟨⟨0, "zstd", none, .explicit⟩, ["f", "g"], [f]⟩ false := rfl
  have hname : s.names.lookup "a" = some 0 := by decide +kernel
  have hf : Declared "long f(long);" "f" := by decide +kernel
  have hh : Declared "int h(void);" "h" := by decide +kernel
  obtain ⟨-, -, htables⟩ := bindings_only_grow L (start around {}) (linked_start around _) steps
  have hbind := htables 0 _ false ht "a" hname none
  refine ⟨ht, hname, hf, ?_, ?_⟩
  · obtain ⟨outcome, t', read, hanswer, hon⟩ := hbind "f" "long f(long);"
    rw [hanswer]
    exact (hon.again f List.mem_cons_self rfl hf).1
  · obtain ⟨outcome, t', read, hanswer, hon⟩ := hbind "h" "int h(void);"
    rw [hanswer]
    cases hon.binds with
    | undeclared hno => exact absurd hh hno
    | again _ hbound hb =>
      rw [List.mem_singleton.mp hbound] at hb
      exact absurd hb (by decide)
    | first _ _ hexport => exact absurd hexport (by decide)
    | missing => exact ⟨_, rfl, rfl⟩

end Session

end NativeCodec
