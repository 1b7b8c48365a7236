import NativeCodec.Proofs.Context.Codecs
import NativeCodec.Session.Basic

set_option autoImplicit false
set_option relaxedAutoImplicit false

namespace NativeCodec

open Native

def Thing.leases : Thing → List Lease
  | .codec f => f.leases
  | _ => []

namespace Session

variable {σ : Type} {s : Session σ} {name : String} {place : Nat}

def thing (s : Session σ) (place : Nat) : Thing := s.things.getD place (.other "object")

def stands (s : Session σ) (place : Nat) : Bool := s.names.any (·.2 == place)

def codec? (s : Session σ) (name : String) : Option Codec.Facade :=
  match (s.names.lookup name).map s.thing with
  | some (.codec f) => some f
  | _ => none

/-- What the codec owns that a name stands for. -/
def leasesOf (s : Session σ) (name : String) : List Lease :=
  (s.codec? name).elim [] Codec.Facade.leases

def share (s : Session σ) (place : Nat) : List Lease :=
  if s.stands place then (s.thing place).leases else []

/-- What would belong to the session at a place if the place had a name. -/
def spare (s : Session σ) (place : Nat) : List Lease :=
  if s.stands place then [] else (s.thing place).leases

/-- What belongs to the session. -/
def owned (s : Session σ) : List Lease := (List.range s.things.length).flatMap s.share

def without (s : Session σ) (name : String) : Session σ :=
  { s with names := s.names.filter (·.1 != name) }

structure Named (s : Session σ) : Prop where
  distinct : (s.names.map Prod.fst).Nodup
  placed : ∀ p ∈ s.names, p.2 < s.things.length

section Names

private theorem lookup_of_mem {names : List (String × Nat)} (hd : (names.map Prod.fst).Nodup)
    (h : (name, place) ∈ names) : names.lookup name = some place := by
  induction names with
  | nil => exact absurd h (by simp)
  | cons p names ih =>
    obtain ⟨other, at_⟩ := p
    rw [List.map_cons, List.nodup_cons] at hd
    rcases List.mem_cons.mp h with heq | hmem
    · obtain ⟨rfl, rfl⟩ := Prod.mk.inj heq
      exact List.lookup_cons_self
    · have hne : name ≠ other := by
        rintro rfl
        exact hd.1 (List.mem_map.mpr ⟨_, hmem, rfl⟩)
      rw [List.lookup_cons, beq_eq_false_iff_ne.mpr hne]
      exact ih hd.2 hmem

private theorem mem_of_lookup {names : List (String × Nat)} (h : names.lookup name = some place) :
    (name, place) ∈ names := by
  obtain ⟨before, after, rfl, -⟩ := List.lookup_eq_some_iff.mp h
  exact List.mem_append_right _ (List.mem_cons_self ..)

theorem Named.lt_of_lookup (hn : Named s) (h : s.names.lookup name = some place) :
    place < s.things.length :=
  hn.placed _ (mem_of_lookup h)

theorem Named.of_eq {s' : Session σ} (hn : Named s) (hnames : s'.names = s.names)
    (hthings : s'.things = s.things) : Named s' := by
  obtain ⟨hdistinct, hplaced⟩ := hn
  constructor
  · rw [hnames]
    exact hdistinct
  · rw [hnames, hthings]
    exact hplaced

theorem Named.without (hn : Named s) (name : String) : Named (s.without name) where
  distinct := hn.distinct.sublist (List.filter_sublist.map _)
  placed p hp := hn.placed p (List.mem_filter.mp hp).1

private theorem lookup_without (s : Session σ) (name other : String) :
    (s.without name).names.lookup other =
      if other = name then none else s.names.lookup other := by
  change (s.names.filter (·.1 != name)).lookup other = _
  induction s.names with
  | nil => rw [List.filter_nil, List.lookup_nil, ite_self]
  | cons p names ih =>
    by_cases hp : p.1 = name
    · rw [List.filter_cons_of_neg (by simpa using hp), ih, List.lookup_cons]
      by_cases ho : other = name
      · rw [if_pos ho, if_pos ho]
      · have hne : other ≠ p.1 := fun h => ho (h.trans hp)
        rw [beq_eq_false_iff_ne.mpr hne]
    · rw [List.filter_cons_of_pos (by simpa using hp), List.lookup_cons, List.lookup_cons, ih]
      by_cases ho : other = name
      · have hne : other ≠ p.1 := fun h => hp (h.symm.trans ho)
        rw [beq_eq_false_iff_ne.mpr hne, if_pos ho]
      · rw [if_neg ho, if_neg ho]

theorem stands_of_lookup (h : s.names.lookup name = some place) : s.stands place = true :=
  List.any_eq_true.mpr ⟨_, mem_of_lookup h, beq_self_eq_true place⟩

theorem Named.stands_iff (hn : Named s) :
    s.stands place = true ↔ ∃ name, s.names.lookup name = some place := by
  constructor
  · intro h
    obtain ⟨⟨name, at_⟩, hmem, hat⟩ := List.any_eq_true.mp h
    obtain rfl := eq_of_beq hat
    exact ⟨name, lookup_of_mem hn.distinct hmem⟩
  · rintro ⟨name, h⟩
    exact stands_of_lookup h

private theorem Named.stands_without (hn : Named s) (h : s.names.lookup name ≠ some place) :
    (s.without name).stands place = s.stands place := by
  rw [Bool.eq_iff_iff, (hn.without name).stands_iff, hn.stands_iff]
  constructor
  · rintro ⟨other, hother⟩
    rw [lookup_without] at hother
    split at hother
    · exact absurd hother (by simp)
    · exact ⟨other, hother⟩
  · rintro ⟨other, hother⟩
    have hne : other ≠ name := by
      rintro rfl
      exact h hother
    refine ⟨other, ?_⟩
    rw [lookup_without, if_neg hne]
    exact hother

end Names

section Owned

theorem owned_of_eq {s' : Session σ} (hnames : s'.names = s.names)
    (hthings : s'.things = s.things) : s'.owned = s.owned := by
  cases s
  cases s'
  subst hnames hthings
  rfl

theorem mem_owned (hp : place < s.things.length) (hs : s.stands place = true) {c : Lease}
    (hc : c ∈ (s.thing place).leases) : c ∈ s.owned := by
  refine List.mem_flatMap.mpr ⟨place, List.mem_range.mpr hp, ?_⟩
  unfold share
  rw [if_pos hs]
  exact hc

theorem leasesOf_of_lookup (h : s.names.lookup name = some place) :
    s.leasesOf name = (s.thing place).leases := by
  unfold leasesOf codec?
  rw [h, Option.map_some]
  cases s.thing place with
  | codec f => rfl
  | _ => rfl

theorem codec?_of_lookup {f : Codec.Facade} (h : s.names.lookup name = some place)
    (hf : s.thing place = .codec f) : s.codec? name = some f := by
  unfold codec?
  rw [h, Option.map_some, hf]

theorem codec?_of_lookup_eq_none (h : s.names.lookup name = none) : s.codec? name = none := by
  unfold codec?
  rw [h]
  rfl

theorem leasesOf_of_lookup_eq_none (h : s.names.lookup name = none) : s.leasesOf name = [] := by
  unfold leasesOf
  rw [codec?_of_lookup_eq_none h]
  rfl

theorem Named.mem_owned_iff (hn : Named s) {c : Lease} :
    c ∈ s.owned ↔ ∃ name, c ∈ s.leasesOf name := by
  constructor
  · intro h
    obtain ⟨place, -, hshare⟩ := List.mem_flatMap.mp h
    unfold share at hshare
    split at hshare
    · next hs =>
      obtain ⟨name, hlookup⟩ := hn.stands_iff.mp hs
      refine ⟨name, ?_⟩
      rw [leasesOf_of_lookup hlookup]
      exact hshare
    · exact absurd hshare List.not_mem_nil
  · rintro ⟨name, hc⟩
    cases hlookup : s.names.lookup name with
    | none =>
      rw [leasesOf_of_lookup_eq_none hlookup] at hc
      exact absurd hc List.not_mem_nil
    | some place =>
      rw [leasesOf_of_lookup hlookup] at hc
      exact mem_owned (hn.lt_of_lookup hlookup) (stands_of_lookup hlookup) hc

private theorem flatMap_split (f : Nat → List Lease) {l : List Nat} (hl : l.Nodup)
    (hp : place ∈ l) :
    ∃ rest, ∀ g : Nat → List Lease, (∀ q, q ≠ place → g q = f q) →
      (l.flatMap g).Perm (g place ++ rest) := by
  refine ⟨(l.erase place).flatMap f, fun g h => ?_⟩
  have hsame : (l.erase place).flatMap g = (l.erase place).flatMap f := by
    rw [List.flatMap_def, List.flatMap_def]
    refine congrArg List.flatten (List.map_congr_left fun q hq => h q ?_)
    exact ((hl.mem_erase_iff).mp hq).1
  rw [← hsame]
  exact (List.perm_cons_erase hp).flatMap_right g

private theorem owned_split (s : Session σ) (hp : place < s.things.length) :
    ∃ rest, ∀ s' : Session σ, s'.things.length = s.things.length →
      (∀ q, q ≠ place → s'.share q = s.share q) → s'.owned.Perm (s'.share place ++ rest) := by
  obtain ⟨rest, hrest⟩ :=
    flatMap_split s.share (List.nodup_range (n := s.things.length)) (List.mem_range.mpr hp)
  refine ⟨rest, fun s' hlength h => ?_⟩
  unfold owned
  rw [hlength]
  exact hrest s'.share h

theorem Named.owned_without (hn : Named s) (h : s.names.lookup name = some place) :
    s.owned.Perm ((s.without name).spare place ++ (s.without name).owned) := by
  have hother : ∀ q, q ≠ place → (s.without name).share q = s.share q := by
    intro q hq
    unfold share
    rw [hn.stands_without fun hl => hq (Option.some.inj (hl.symm.trans h))]
    rfl
  obtain ⟨rest, hrest⟩ := owned_split s (hn.lt_of_lookup h)
  have hbefore := hrest s rfl fun _ _ => rfl
  have hafter := hrest (s.without name) rfl hother
  have hshare : s.share place = (s.thing place).leases := if_pos (stands_of_lookup h)
  rw [hshare] at hbefore
  by_cases hs : (s.without name).stands place = true
  · have hspare : (s.without name).spare place = [] := if_pos hs
    have hkept : (s.without name).share place = (s.thing place).leases := if_pos hs
    rw [hkept] at hafter
    rw [hspare, List.nil_append]
    exact hbefore.trans hafter.symm
  · have hspare : (s.without name).spare place = (s.thing place).leases := if_neg hs
    have hgone : (s.without name).share place = [] := if_neg hs
    rw [hgone, List.nil_append] at hafter
    rw [hspare]
    exact hbefore.trans (hafter.symm.append_left _)

theorem thing_put (hp : place < s.things.length) (t : Thing) :
    ({ s with things := s.things.set place t } : Session σ).thing place = t := by
  change (s.things.set place t).getD place _ = t
  rw [List.getD_eq_getElem?_getD, List.getElem?_set_self hp]
  rfl

theorem owned_put (hp : place < s.things.length) (hs : s.stands place = true) :
    ∃ rest, s.owned.Perm ((s.thing place).leases ++ rest) ∧ ∀ t : Thing, t.leases = [] →
      ({ s with things := s.things.set place t } : Session σ).owned.Perm rest := by
  obtain ⟨rest, hrest⟩ := owned_split s hp
  refine ⟨rest, ?_, fun t ht => ?_⟩
  · have hshare : s.share place = (s.thing place).leases := if_pos hs
    rw [← hshare]
    exact hrest s rfl fun _ _ => rfl
  · let s' : Session σ := { s with things := s.things.set place t }
    have hother : ∀ q, q ≠ place → s'.share q = s.share q := by
      intro q hq
      have hthing : s'.thing q = s.thing q := by
        change (s.things.set place t).getD q _ = s.things.getD q _
        rw [List.getD_eq_getElem?_getD, List.getElem?_set_ne (Ne.symm hq),
          List.getD_eq_getElem?_getD]
      unfold share
      rw [hthing]
      rfl
    have hshare : s'.share place = [] := by
      unfold share
      rw [thing_put hp, ht, ite_self]
    have hafter := hrest s' List.length_set hother
    rw [hshare, List.nil_append] at hafter
    exact hafter

private theorem Named.stands_of_le (hn : Named s) (h : s.things.length ≤ place) :
    s.stands place = false := by
  refine Bool.eq_false_iff.mpr fun hs => ?_
  obtain ⟨name, hlookup⟩ := hn.stands_iff.mp hs
  exact absurd (hn.lt_of_lookup hlookup) (Nat.not_lt.mpr h)

theorem Named.owned_append (hn : Named s) (more : List Thing) :
    ({ s with things := s.things ++ more } : Session σ).owned = s.owned := by
  let s' : Session σ := { s with things := s.things ++ more }
  have hnew : ((List.range more.length).map (s.things.length + ·)).flatMap s'.share = [] := by
    refine List.flatMap_eq_nil_iff.mpr fun q hq => ?_
    obtain ⟨n, -, rfl⟩ := List.mem_map.mp hq
    have hstands : s'.stands (s.things.length + n) = false :=
      hn.stands_of_le (Nat.le_add_right _ _)
    unfold share
    rw [hstands]
    rfl
  have hold : ∀ q ∈ List.range s.things.length, s'.share q = s.share q := by
    intro q hq
    have hthing : s'.thing q = s.thing q := by
      change (s.things ++ more).getD q _ = s.things.getD q _
      rw [List.getD_eq_getElem?_getD, List.getElem?_append_left (List.mem_range.mp hq),
        List.getD_eq_getElem?_getD]
    unfold share
    rw [hthing]
    rfl
  change (List.range (s.things ++ more).length).flatMap s'.share = _
  rw [List.length_append, List.range_add, List.flatMap_append, hnew, List.append_nil,
    List.flatMap_def, List.map_congr_left hold]
  rfl

private theorem thing_append (s : Session σ) (t : Thing) :
    ({ s with things := s.things ++ [t] } : Session σ).thing s.things.length = t := by
  change (s.things ++ [t]).getD s.things.length _ = t
  rw [List.getD_eq_getElem?_getD, List.getElem?_concat_length]
  rfl

theorem Named.spare_add (hn : Named s) (t : Thing) :
    ({ s with things := s.things ++ [t] } : Session σ).spare s.things.length = t.leases := by
  let s' : Session σ := { s with things := s.things ++ [t] }
  have hstands : s'.stands s.things.length = false := hn.stands_of_le (Nat.le_refl _)
  change s'.spare s.things.length = t.leases
  unfold spare
  rw [hstands, thing_append]
  rfl

theorem Named.put (hn : Named s) (place : Nat) (t : Thing) :
    Named ({ s with things := s.things.set place t } : Session σ) where
  distinct := hn.distinct
  placed p hp := by
    change p.2 < (s.things.set place t).length
    rw [List.length_set]
    exact hn.placed p hp

theorem Named.append (hn : Named s) (more : List Thing) :
    Named ({ s with things := s.things ++ more } : Session σ) where
  distinct := hn.distinct
  placed p hp := by
    change p.2 < (s.things ++ more).length
    rw [List.length_append]
    exact Nat.lt_add_right _ (hn.placed p hp)

theorem Named.naming (hn : Named s) (hfree : s.names.lookup name = none)
    (hp : place < s.things.length) :
    Named { s with names := (name, place) :: s.names } ∧
      ({ s with names := (name, place) :: s.names } : Session σ).owned.Perm
        (s.spare place ++ s.owned) := by
  have hother : ∀ p ∈ s.names, p.1 ≠ name := by
    intro p hmem heq
    have hne := List.lookup_eq_none_iff.mp hfree p hmem
    exact absurd heq.symm (bne_iff_ne.mp hne)
  let s' : Session σ := { s with names := (name, place) :: s.names }
  have hnamed : Named s' := by
    constructor
    · change ((name, place) :: s.names |>.map Prod.fst).Nodup
      rw [List.map_cons, List.nodup_cons]
      refine ⟨?_, hn.distinct⟩
      intro hmem
      obtain ⟨p, hp, heq⟩ := List.mem_map.mp hmem
      exact hother p hp heq
    · intro p hmem
      rcases List.mem_cons.mp hmem with rfl | hmem
      · exact hp
      · exact hn.placed p hmem
  have hwithout : s'.without name = s := by
    have hnames : ((name, place) :: s.names).filter (·.1 != name) = s.names := by
      rw [List.filter_cons_of_neg (by simp), List.filter_eq_self]
      intro p hmem
      exact bne_iff_ne.mpr (hother p hmem)
    change { s with names := ((name, place) :: s.names).filter (·.1 != name) } = s
    rw [hnames]
  have hlookup : s'.names.lookup name = some place := List.lookup_cons_self
  have hperm := hnamed.owned_without hlookup
  rw [hwithout] at hperm
  exact ⟨hnamed, hperm⟩

theorem Named.owned_keep (hn : Named s) (hfree : s.names.lookup name = none) (t : Thing) :
    let s' : Session σ :=
      { s with things := s.things ++ [t], names := (name, s.things.length) :: s.names }
    Named s' ∧ s'.owned.Perm (t.leases ++ s.owned) ∧
      s'.names.lookup name = some s.things.length ∧ s'.thing s.things.length = t := by
  let s₁ : Session σ := { s with things := s.things ++ [t] }
  have hfree₁ : s₁.names.lookup name = none := hfree
  have hlt : s.things.length < s₁.things.length := by
    change s.things.length < (s.things ++ [t]).length
    rw [List.length_append]
    exact Nat.lt_succ_self _
  obtain ⟨hnamed, hperm⟩ := (hn.append [t]).naming hfree₁ hlt
  have hspare : s₁.spare s.things.length = t.leases := hn.spare_add t
  have howned : s₁.owned = s.owned := hn.owned_append [t]
  rw [hspare, howned] at hperm
  exact ⟨hnamed, hperm, List.lookup_cons_self, thing_append s t⟩

end Owned

/-- Names are in order, and live is exactly what belongs to the session, and `extra`. -/
structure Orderly (extra : List Lease) (s : Session σ) : Prop where
  named : Named s
  holding : Op.Holding (extra ++ s.owned) s.world

section Orderly

variable {L : Libraries σ} {extra : List Lease}

private theorem exists_abandon_eq (s : Session σ) (t : Thing) :
    ∃ world handles, s.abandon L t = { s with world, handles } := by
  unfold abandon
  split
  · exact ⟨_, s.handles, rfl⟩
  · split
    · exact ⟨s.world, s.handles, rfl⟩
    · exact ⟨s.world, _, rfl⟩
  · exact ⟨s.world, s.handles, rfl⟩

private theorem without_of_lookup_eq_none (h : s.names.lookup name = none) :
    s.without name = s := by
  have hnames : s.names.filter (·.1 != name) = s.names := by
    refine List.filter_eq_self.mpr fun p hp => ?_
    rw [bne_comm]
    exact List.lookup_eq_none_iff.mp h p hp
  unfold without
  rw [hnames]

theorem exists_forget_eq (s : Session σ) (name : String) :
    ∃ world handles, s.forget L name = { s.without name with world, handles } := by
  unfold Session.forget
  cases hlookup : s.names.lookup name with
  | none =>
    rw [without_of_lookup_eq_none hlookup]
    exact ⟨s.world, s.handles, rfl⟩
  | some place =>
    dsimp only
    split
    · exact ⟨s.world, s.handles, rfl⟩
    · exact exists_abandon_eq (s.without name) _

private theorem names_abandon (s : Session σ) (t : Thing) : (s.abandon L t).names = s.names := by
  obtain ⟨_, _, h⟩ := exists_abandon_eq (L := L) s t
  rw [h]

private theorem things_abandon (s : Session σ) (t : Thing) : (s.abandon L t).things = s.things := by
  obtain ⟨_, _, h⟩ := exists_abandon_eq (L := L) s t
  rw [h]

theorem names_forget (s : Session σ) (name : String) :
    (s.forget L name).names = (s.without name).names := by
  obtain ⟨_, _, h⟩ := exists_forget_eq (L := L) s name
  rw [h]

theorem things_forget (s : Session σ) (name : String) : (s.forget L name).things = s.things := by
  obtain ⟨_, _, h⟩ := exists_forget_eq (L := L) s name
  rw [h]
  rfl

theorem owned_forget (s : Session σ) (name : String) :
    (s.forget L name).owned = (s.without name).owned :=
  owned_of_eq (names_forget s name) (things_forget s name)

theorem lookup_forget (s : Session σ) (name : String) :
    (s.forget L name).names.lookup name = none := by
  rw [names_forget, lookup_without, if_pos rfl]

theorem assign_of_lookup_eq_none (h : s.names.lookup name = none) (place : Nat) :
    s.assign L name place = { s with names := (name, place) :: s.names } := by
  unfold Session.assign Session.forget
  rw [h, if_neg (by simp)]

private theorem Named.spare_forget (hn : Named s) (h : s.names.lookup name ≠ some place) :
    (s.forget L name).spare place = s.spare place := by
  have hstands : (s.forget L name).stands place = s.stands place := by
    rw [← hn.stands_without h]
    unfold stands
    rw [names_forget]
  unfold spare thing
  rw [hstands, things_forget]

variable (hL : L.FreesAlways)
include hL

private theorem holding_abandon {t : Thing} {held : List Lease}
    (h : Op.Holding (t.leases ++ held) s.world) : Op.Holding held (s.abandon L t).world := by
  cases t with
  | codec f =>
    obtain ⟨f', -, -, hheld⟩ := Codec.Facade.spec_close hL f s.world h
    exact hheld
  | context c faulty =>
    unfold abandon
    dsimp only
    split
    · exact h
    · exact h
  | _ => exact h

theorem Orderly.forget (h : Orderly extra s) (name : String) : Orderly extra (s.forget L name) := by
  unfold Session.forget
  cases hlookup : s.names.lookup name with
  | none => exact h
  | some place =>
    have hnamed := h.named.without name
    have hperm := h.named.owned_without hlookup
    change Orderly extra (if (s.without name).stands place then s.without name
      else (s.without name).abandon L ((s.without name).thing place))
    by_cases hs : (s.without name).stands place = true
    · have hspare : (s.without name).spare place = [] := if_pos hs
      rw [hspare, List.nil_append] at hperm
      rw [if_pos hs]
      exact ⟨hnamed, h.holding.congr (hperm.append_left _)⟩
    · have hspare : (s.without name).spare place = ((s.without name).thing place).leases :=
        if_neg hs
      rw [hspare] at hperm
      rw [if_neg hs]
      refine ⟨hnamed.of_eq (names_abandon _ _) (things_abandon _ _), ?_⟩
      rw [owned_of_eq (names_abandon _ _) (things_abandon _ _)]
      refine holding_abandon hL (h.holding.congr ?_)
      exact (hperm.append_left extra).trans (List.perm_append_comm_assoc _ _ _)

theorem Orderly.assign (h : Orderly (s.spare place) s) (hp : place < s.things.length)
    (name : String) : Orderly [] (s.assign L name place) := by
  unfold Session.assign
  by_cases hlookup : s.names.lookup name = some place
  · rw [if_pos hlookup]
    have hspare : s.spare place = [] := if_pos (stands_of_lookup hlookup)
    rw [hspare] at h
    exact h
  · rw [if_neg hlookup]
    have hforgotten := h.forget hL name
    obtain ⟨hnamed, hperm⟩ := hforgotten.named.naming (lookup_forget s name)
      (by rw [things_forget]; exact hp)
    rw [h.named.spare_forget hlookup] at hperm
    exact ⟨hnamed, hforgotten.holding.congr hperm.symm⟩

theorem Orderly.owned_assign {name : String} (h : Orderly (s.spare place) s)
    (hp : place < s.things.length) (hlookup : s.names.lookup name ≠ some place) :
    (s.assign L name place).owned.Perm (s.spare place ++ (s.without name).owned) := by
  unfold Session.assign
  rw [if_neg hlookup]
  obtain ⟨-, hperm⟩ := (h.forget hL name).named.naming (lookup_forget s name)
    (by rw [things_forget]; exact hp)
  rw [h.named.spare_forget hlookup, owned_forget] at hperm
  exact hperm

end Orderly

end Session

end NativeCodec
