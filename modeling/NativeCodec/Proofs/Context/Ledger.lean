import NativeCodec.Native.World

set_option autoImplicit false
set_option relaxedAutoImplicit false

namespace NativeCodec.Native

/-- A context of one kind, by its handle. -/
structure Lease where
  direction : Direction
  handle : Nat
  deriving DecidableEq, Repr

def Call.closes? : Call → Option Lease
  | .freeContext d handle => some ⟨d, handle⟩
  | _ => none

def Call.uses? : Call → Option Lease
  | .zstdCompress context .. => some ⟨.compression, context⟩
  | .zstdDecompress context .. => some ⟨.decompression, context⟩
  | .zstdStream context .. => some ⟨.decompression, context⟩
  | _ => none

/-- The context that an event creates: a native function may also create none. -/
def Event.opened? : Event → Option Lease
  | .called (.createContext d) _ reply => Option.map (Lease.mk d) reply
  | _ => none

def Event.closed? : Event → Option Lease
  | .called c .. => c.closes?
  | _ => none

def Event.used? : Event → Option Lease
  | .called c .. => c.uses?
  | _ => none

/-- The contexts that are created and not freed. -/
def live : List Event → List Lease
  | [] => []
  | e :: earlier =>
    match e.opened?, e.closed? with
    | some c, _ => c :: live earlier
    | none, some c => (live earlier).erase c
    | none, none => live earlier

/-- Whether an event frees and works in no other contexts than the given ones. -/
structure Event.Allowed (e : Event) (held : List Lease) : Prop where
  closes : ∀ c, e.closed? = some c → c ∈ held
  uses : ∀ c, e.used? = some c → c ∈ held

/-- Every context is live when it is freed and when it is used. -/
def Disciplined : List Event → Prop
  | [] => True
  | e :: earlier => e.Allowed (live earlier) ∧ Disciplined earlier

/-- No context is given out while it is live. -/
def Distinct : List Event → Prop
  | [] => True
  | e :: earlier => (∀ c, e.opened? = some c → c ∉ live earlier) ∧ Distinct earlier

/-- From each creation on, as long as its handle is not given out again, a context is freed once,
or not at all while it is live. -/
def FreedOnce (events : List Event) : Prop :=
  ∀ later e earlier c, (later ++ e :: earlier) <:+ events → e.opened? = some c →
    (∀ e' ∈ later, e'.opened? ≠ some c) →
    later.countP (fun e => e.closed? = some c) = if c ∈ live (later ++ e :: earlier) then 0 else 1

/-- From its last creation on, a context is freed once. -/
def FreedAll (events : List Event) : Prop :=
  ∀ later e earlier c, events = later ++ e :: earlier → e.opened? = some c →
    (∀ e' ∈ later, e'.opened? ≠ some c) → later.countP (fun e => e.closed? = some c) = 1

instance Distinct.decidable : DecidablePred Distinct
  | [] => .isTrue trivial
  | e :: earlier =>
    have : Decidable (Distinct earlier) := decidable earlier
    inferInstanceAs (Decidable ((∀ c ∈ e.opened?, c ∉ live earlier) ∧ Distinct earlier))

section Event

variable {e : Event} {c : Lease}

private theorem Event.closed?_of_opened? (h : e.opened? = some c) : e.closed? = none := by
  cases e with
  | called call site reply =>
    cases call with
    | createContext d => rfl
    | _ => exact absurd h (by simp [opened?])
  | _ => rfl

private theorem Event.used?_of_opened? (h : e.opened? = some c) : e.used? = none := by
  cases e with
  | called call site reply =>
    cases call with
    | createContext d => rfl
    | _ => exact absurd h (by simp [opened?])
  | _ => rfl

private theorem Event.opened?_of_closed? (h : e.closed? = some c) : e.opened? = none := by
  cases ho : e.opened? with
  | none => rfl
  | some c' =>
    rw [closed?_of_opened? ho] at h
    exact absurd h (by simp)

private theorem Event.used?_of_closed? (h : e.closed? = some c) : e.used? = none := by
  cases e with
  | called call site reply =>
    cases call with
    | freeContext d handle => rfl
    | _ => exact absurd h (by simp [closed?, Call.closes?])
  | _ => rfl

variable {earlier : List Event}

private theorem live_of_opened? (h : e.opened? = some c) :
    live (e :: earlier) = c :: live earlier := by
  rw [live, h]

private theorem live_of_closed? (h : e.closed? = some c) :
    live (e :: earlier) = (live earlier).erase c := by
  rw [live, Event.opened?_of_closed? h, h]

private theorem live_of_neither (ho : e.opened? = none) (hc : e.closed? = none) :
    live (e :: earlier) = live earlier := by
  rw [live, ho, hc]

end Event

theorem Distinct.nodup_live {events : List Event} (h : Distinct events) : (live events).Nodup := by
  induction events with
  | nil => exact List.nodup_nil
  | cons e earlier ih =>
    obtain ⟨hnew, hearlier⟩ := h
    cases ho : e.opened? with
    | some c =>
      rw [live_of_opened? ho, List.nodup_cons]
      exact ⟨hnew c ho, ih hearlier⟩
    | none =>
      cases hc : e.closed? with
      | some c =>
        rw [live_of_closed? hc]
        exact (ih hearlier).erase c
      | none =>
        rw [live_of_neither ho hc]
        exact ih hearlier

private theorem Distinct.of_append {later earlier : List Event} (h : Distinct (later ++ earlier)) :
    Distinct earlier := by
  induction later with
  | nil => exact h
  | cons e later ih => exact ih h.2

private theorem Disciplined.of_append {later earlier : List Event}
    (h : Disciplined (later ++ earlier)) :
    Disciplined earlier := by
  induction later with
  | nil => exact h
  | cons e later ih => exact ih h.2

private theorem count_live_append {later earlier : List Event} {c : Lease}
    (hd : Disciplined (later ++ earlier)) (hn : ∀ e ∈ later, e.opened? ≠ some c) :
    later.countP (fun e => e.closed? = some c) + (live (later ++ earlier)).count c =
      (live earlier).count c := by
  induction later with
  | nil => rw [List.countP_nil, Nat.zero_add, List.nil_append]
  | cons e later ih =>
    obtain ⟨hallowed, hrest⟩ := hd
    have hlater := ih hrest fun e' he' => hn e' (List.mem_cons_of_mem e he')
    rw [List.countP_cons, List.cons_append]
    cases ho : e.opened? with
    | some c' =>
      have hne : c' ≠ c := by
        rintro rfl
        exact hn e (List.mem_cons_self ..) ho
      rw [live_of_opened? ho, List.count_cons_of_ne hne, Event.closed?_of_opened? ho,
        if_neg (by simp), Nat.add_zero]
      exact hlater
    | none =>
      cases hc : e.closed? with
      | none =>
        rw [live_of_neither ho hc, if_neg (by simp), Nat.add_zero]
        exact hlater
      | some c' =>
        rw [live_of_closed? hc]
        by_cases hsame : c' = c
        · subst hsame
          have hmem : 0 < (live (later ++ earlier)).count c' :=
            List.count_pos_iff.mpr (hallowed.closes c' hc)
          rw [List.count_erase_self, if_pos (by simp)]
          omega
        · rw [List.count_erase_of_ne (Ne.symm hsame), if_neg (by simpa using hsame), Nat.add_zero]
          exact hlater

theorem Disciplined.freedOnce {events : List Event} (hd : Disciplined events)
    (hdistinct : Distinct events) : FreedOnce events := by
  rintro later e earlier c ⟨after, rfl⟩ hopened hn
  have hcount := count_live_append hd.of_append hn
  have hfresh : (live earlier).count c = 0 :=
    List.count_eq_zero.mpr (hdistinct.of_append.of_append.1 c hopened)
  rw [live_of_opened? hopened, List.count_cons_self, hfresh] at hcount
  split
  · next hlive =>
    have hpos := List.count_pos_iff.mpr hlive
    omega
  · next hdead =>
    rw [List.count_eq_zero.mpr hdead] at hcount
    exact hcount

theorem FreedOnce.freedAll {events : List Event} (h : FreedOnce events) (hlive : live events = []) :
    FreedAll events := by
  intro later e earlier c hevents hopened hn
  have hcount := h later e earlier c ⟨[], hevents.symm⟩ hopened hn
  rw [← hevents, hlive, if_neg List.not_mem_nil] at hcount
  exact hcount

/-- A disciplined run after which exactly the given contexts are live. -/
structure Balanced (held : List Lease) (events : List Event) : Prop where
  disciplined : Disciplined events
  perm : (live events).Perm held

namespace Balanced

variable {held : List Lease} {events : List Event} {e : Event} {c : Lease}

theorem nil : Balanced [] [] := ⟨trivial, .refl _⟩

theorem congr {held' : List Lease} (h : Balanced held events) (hp : held.Perm held') :
    Balanced held' events :=
  ⟨h.disciplined, h.perm.trans hp⟩

/-- An event that creates and frees nothing, and works in what is live. -/
theorem skip (h : Balanced held events) (ho : e.opened? = none) (hc : e.closed? = none)
    (hu : ∀ c, e.used? = some c → c ∈ held) : Balanced held (e :: events) where
  disciplined := by
    refine ⟨⟨?_, ?_⟩, h.disciplined⟩
    · intro c hclosed
      rw [hc] at hclosed
      exact absurd hclosed (by simp)
    · intro c hused
      exact h.perm.mem_iff.mpr (hu c hused)
  perm := by
    rw [live_of_neither ho hc]
    exact h.perm

theorem opened (h : Balanced held events) (ho : e.opened? = some c) :
    Balanced (c :: held) (e :: events) where
  disciplined := by
    refine ⟨⟨?_, ?_⟩, h.disciplined⟩
    · intro c' hclosed
      rw [Event.closed?_of_opened? ho] at hclosed
      exact absurd hclosed (by simp)
    · intro c' hused
      rw [Event.used?_of_opened? ho] at hused
      exact absurd hused (by simp)
  perm := by
    rw [live_of_opened? ho]
    exact h.perm.cons c

theorem closed (h : Balanced (c :: held) events) (hc : e.closed? = some c) :
    Balanced held (e :: events) where
  disciplined := by
    refine ⟨⟨?_, ?_⟩, h.disciplined⟩
    · intro c' hclosed
      obtain rfl := Option.some.inj (hc.symm.trans hclosed)
      exact h.perm.mem_iff.mpr (List.mem_cons_self ..)
    · intro c' hused
      rw [Event.used?_of_closed? hc] at hused
      exact absurd hused (by simp)
  perm := by
    rw [live_of_closed? hc]
    have herase := h.perm.erase c
    rwa [List.erase_cons_head] at herase

end Balanced

end NativeCodec.Native
