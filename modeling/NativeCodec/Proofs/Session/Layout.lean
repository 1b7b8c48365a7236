import NativeCodec.Proofs.Memory.Chain
import NativeCodec.Proofs.Memory.Growth
import NativeCodec.Proofs.Session.Cursors
import NativeCodec.Proofs.Session.Ownership

set_option autoImplicit false
set_option relaxedAutoImplicit false

namespace NativeCodec

open Native Session

variable {σ α : Type}

/-- A range lies inside the storage that it is counted from, or inside the direct buffer at whose
start it is counted from. A bare address is not known to be of any storage. -/
def Range.Lies (things : List Thing) (m : Memory) (r : Range) : Prop :=
  match r.start.base with
  | .managed place => place < m.storages.length ∧ r.offset + r.length ≤ m.size place
  | .near place delta =>
    delta = 0 ∧ ∃ b, .direct b ∈ things ∧ b.place = place ∧ r.offset + r.length ≤ b.size
  | .address _ => True

/-- A view, a direct buffer or a range lies in memory. There are no other things than those and such
as have no bytes. -/
def Thing.Lies (things : List Thing) (m : Memory) : Thing → Prop
  | view v _ => v.place < m.storages.length
  | direct b => b.place < m.storages.length ∧ b.size ≤ m.size b.place
  | range r => r.Lies things m
  | other _ => True
  | _ => False

/-- Every direct buffer among some things is among others as well, wherever its cursor is. -/
def Buffered (things things' : List Thing) : Prop :=
  ∀ b, .direct b ∈ things → ∃ b', .direct b' ∈ things' ∧ b'.place = b.place ∧ b'.size = b.size

private theorem Buffered.of_subset {things things' : List Thing} (h : ∀ t ∈ things, t ∈ things') :
    Buffered things things' :=
  fun b hb => ⟨b, h _ hb, rfl, rfl⟩

section Lies

variable {things things' : List Thing} {m m' : Memory} {r s : Range} {t : Thing}

theorem Range.Lies.mono (h : r.Lies things m) (hm : m.Larger m') (hb : Buffered things things') :
    r.Lies things' m' := by
  unfold Range.Lies at h ⊢
  split at h
  · next place hbase =>
    obtain ⟨hplace, hle⟩ := h
    exact ⟨Nat.lt_of_lt_of_le hplace hm.length_le, Nat.le_trans hle (hm.size_le place)⟩
  · next place delta hbase =>
    obtain ⟨hdelta, b, hmem, rfl, hle⟩ := h
    obtain ⟨b', hmem', hplace, hsize⟩ := hb b hmem
    exact ⟨hdelta, b', hmem', hplace, hsize ▸ hle⟩
  · trivial

private theorem Thing.Lies.mono (h : t.Lies things m) (hm : m.Larger m')
    (hb : Buffered things things') :
    t.Lies things' m' := by
  cases t with
  | view v growable => exact Nat.lt_of_lt_of_le h hm.length_le
  | direct b =>
    exact ⟨Nat.lt_of_lt_of_le h.1 hm.length_le, Nat.le_trans h.2 (hm.size_le b.place)⟩
  | range r => exact Range.Lies.mono h hm hb
  | other type => trivial
  | _ => exact h

private theorem Range.Lies.part (h : s.Lies things m) {count : Nat}
    (hstart : r.start = s.start.advance count)
    (hle : count + r.length ≤ s.length) : r.Lies things m := by
  have hbase : r.start.base = s.start.base := by
    rw [hstart]
    rfl
  have hoffset : r.offset = s.offset + count := congrArg Pointer.offset hstart
  unfold Range.Lies at h ⊢
  rw [hbase, hoffset]
  split at h
  · exact ⟨h.1, by omega⟩
  · obtain ⟨hdelta, b, hmem, hplace, hin⟩ := h
    exact ⟨hdelta, b, hmem, hplace, by omega⟩
  · trivial

theorem Range.lies_of_range? {offset : Int} {length : Option Int} (ht : t.Lies things m)
    (hmem : t ∈ things) (h : t.argument.range? m offset length = .ok r) : r.Lies things m := by
  obtain ⟨p, hp, hstart, hle⟩ := Argument.range?_origin h
  -- the kinds differ in where their bytes begin: a storage, a direct buffer, or inside a range
  cases t with
  | view v growable =>
    obtain rfl := Option.some.inj hp
    have hbase : r.start.base = .managed v.place := congrArg Pointer.base hstart
    have hoffset : r.offset = 0 + offset.toNat := congrArg Pointer.offset hstart
    unfold Range.Lies
    rw [hbase, hoffset, Nat.zero_add]
    exact ⟨ht, hle⟩
  | direct b =>
    obtain rfl := Option.some.inj hp
    have hbase : r.start.base = .near b.place 0 := congrArg Pointer.base hstart
    have hoffset : r.offset = 0 + offset.toNat := congrArg Pointer.offset hstart
    unfold Range.Lies
    rw [hbase, hoffset, Nat.zero_add]
    exact ⟨rfl, b, hmem, rfl, hle⟩
  | range s =>
    obtain rfl := Option.some.inj hp
    exact Range.Lies.part ht hstart hle
  | other type => exact absurd hp (by simp [Thing.argument, Argument.origin?])
  | _ => exact absurd ht (by simp [Thing.Lies])

theorem Range.lies_of_source? (ht : t.Lies things m) (hmem : t ∈ things)
    (h : t.argument.source? m = .ok r) : r.Lies things m := by
  cases t with
  | range s =>
    obtain rfl := Except.ok.inj h
    exact ht
  | view v growable =>
    have hpart : (Thing.view v growable).argument.range? m 0 none = .ok r := h
    exact Range.lies_of_range? ht hmem hpart
  | direct b =>
    have hpart : (Thing.direct b).argument.range? m 0 none = .ok r := h
    exact Range.lies_of_range? ht hmem hpart
  | _ => exact absurd h (by simp [Thing.argument, Argument.source?, Argument.range?])

end Lies

namespace Session

/-- Everything in a session lies in its memory, views and direct buffers apart from each other; its
names are in order, and no view of a range is open. -/
structure Laid (s : Session σ) : Prop where
  named : Named s
  closed : s.pins = []
  lies : ∀ t ∈ s.things, t.Lies s.things s.world.memory
  apart : ∀ v growable b, .view v growable ∈ s.things → .direct b ∈ s.things → v.place ≠ b.place

def withMemory (s : Session σ) (m : Memory) : Session σ :=
  { s with world := { s.world with memory := m } }

namespace Laid

variable {s : Session σ} {m : Memory} {L : Libraries σ}

theorem withMemory (h : Laid s) (hm : s.world.memory.Larger m) : Laid (s.withMemory m) where
  named := h.named.of_eq rfl rfl
  closed := h.closed
  lies t ht := (h.lies t ht).mono hm (Buffered.of_subset fun _ hmem => hmem)
  apart := h.apart

private theorem add (h : Laid s) {t : Thing} (ht : t.Lies (s.things ++ [t]) s.world.memory)
    (hview : ∀ v growable b, t = .view v growable → .direct b ∈ s.things → v.place ≠ b.place)
    (hdirect : ∀ v growable b, .view v growable ∈ s.things → t = .direct b → v.place ≠ b.place) :
    Laid ({ s with things := s.things ++ [t] } : Session σ) where
  named := h.named.append [t]
  closed := h.closed
  lies u hu := by
    rcases List.mem_append.mp hu with hold | hnew
    · exact (h.lies u hold).mono (Memory.Larger.refl _)
        (Buffered.of_subset fun _ => List.mem_append_left _)
    · obtain rfl := List.mem_singleton.mp hnew
      exact ht
  apart v growable b hv hb := by
    rcases List.mem_append.mp hv with hv | hv
    · rcases List.mem_append.mp hb with hb | hb
      · exact h.apart v growable b hv hb
      · exact hdirect v growable b hv (List.mem_singleton.mp hb).symm
    · rcases List.mem_append.mp hb with hb | hb
      · exact hview v growable b (List.mem_singleton.mp hv).symm hb
      · exact absurd ((List.mem_singleton.mp hv).trans (List.mem_singleton.mp hb).symm) (by simp)

theorem addRange (h : Laid s) {r : Range} (hr : r.Lies s.things s.world.memory) :
    Laid ({ s with things := s.things ++ [.range r] } : Session σ) := by
  refine h.add ?_ ?_ ?_
  · exact hr.mono (Memory.Larger.refl _) (Buffered.of_subset fun _ => List.mem_append_left _)
  · intro v growable b heq
    exact absurd heq (by simp)
  · intro v growable b _ heq
    exact absurd heq (by simp)

theorem lies_getD (h : Laid s) {place : Nat} (hp : place < s.things.length) :
    (s.things.getD place (.other "object")).Lies s.things s.world.memory ∧
      s.things.getD place (.other "object") ∈ s.things := by
  rw [List.getD_eq_getElem?_getD, List.getElem?_eq_getElem hp]
  exact ⟨h.lies _ (List.getElem_mem hp), List.getElem_mem hp⟩

private theorem addView (h : Laid s) (bytes : Storage) {v : View} (growable : Bool)
    (hv : v.place = s.world.memory.storages.length) :
    Laid ({ s.withMemory (s.world.memory.add bytes).2 with
      things := s.things ++ [.view v growable] } : Session σ) := by
  refine (h.withMemory (Memory.larger_add _ bytes)).add ?_ ?_ ?_
  · have hplace : v.place < (s.world.memory.storages ++ [bytes]).length := by simp [hv]
    exact hplace
  · intro w growable' b heq hb
    obtain ⟨rfl, -⟩ := Thing.view.inj heq
    have hlt := (h.lies _ hb).1
    rw [hv]
    exact Nat.ne_of_gt hlt
  · intro w growable' b _ heq
    exact absurd heq (by simp)

theorem addDirect (h : Laid s) (bytes : Storage) {b : DirectBuffer}
    (hb : b.place = s.world.memory.storages.length) (hsize : b.size ≤ bytes.size) :
    Laid ({ s.withMemory (s.world.memory.add bytes).2 with
      things := s.things ++ [.direct b] } : Session σ) := by
  refine (h.withMemory (Memory.larger_add _ bytes)).add ?_ ?_ ?_
  · have hplace : b.place < (s.world.memory.storages ++ [bytes]).length := by simp [hb]
    have hin : b.size ≤ (s.world.memory.add bytes).2.size b.place := by
      rw [hb, Memory.size_add_self]
      exact hsize
    exact ⟨hplace, hin⟩
  · intro v growable b' heq
    exact absurd heq (by simp)
  · intro v growable b' hv heq
    obtain rfl := Thing.direct.inj heq
    have hlt := h.lies _ hv
    rw [hb]
    exact Nat.ne_of_lt hlt

theorem put (h : Laid s) {place : Nat} {b b' : DirectBuffer}
    (hthing : s.things[place]? = some (.direct b)) (hplace : b'.place = b.place)
    (hsize : b'.size = b.size) :
    Laid ({ s with things := s.things.set place (.direct b') } : Session σ) := by
  have hb : .direct b ∈ s.things := List.mem_of_getElem? hthing
  have hlt : place < s.things.length := (List.getElem?_eq_some_iff.mp hthing).1
  have hbuffered : Buffered s.things (s.things.set place (.direct b')) := by
    intro c hc
    obtain ⟨at_, hat⟩ := List.mem_iff_getElem?.mp hc
    -- at the place itself the buffer has only moved its cursor
    by_cases hsame : place = at_
    · subst hsame
      obtain rfl := Thing.direct.inj (Option.some.inj (hthing.symm.trans hat))
      exact ⟨b', List.mem_of_getElem? (List.getElem?_set_self hlt), hplace, hsize⟩
    · refine ⟨c, List.mem_of_getElem? (i := at_) ?_, rfl, rfl⟩
      rw [List.getElem?_set_ne hsame]
      exact hat
  refine ⟨h.named.put place _, h.closed, ?_, ?_⟩
  · intro t ht
    rcases List.mem_or_eq_of_mem_set ht with hold | rfl
    · exact (h.lies t hold).mono (Memory.Larger.refl _) hbuffered
    · have hlies := h.lies _ hb
      exact ⟨hplace ▸ hlies.1, by rw [hplace, hsize]; exact hlies.2⟩
  · intro v growable c hv hc
    have hv' : .view v growable ∈ s.things := by
      rcases List.mem_or_eq_of_mem_set hv with hold | hnew
      · exact hold
      · exact absurd hnew (by simp)
    rcases List.mem_or_eq_of_mem_set hc with hold | hnew
    · exact h.apart v growable c hv' hold
    · obtain rfl := Thing.direct.inj hnew
      rw [hplace]
      exact h.apart v growable b hv' hb

private theorem abandon_eq (h : Laid s) (s' : Session σ) (place : Nat) :
    s'.abandon L (s.things.getD place (.other "object")) = s' := by
  rw [List.getD_eq_getElem?_getD]
  cases hthing : s.things[place]? with
  | none => rfl
  | some t =>
    have hlies := h.lies t (List.mem_of_getElem? hthing)
    cases t with
    | codec f => exact hlies.elim
    | context c faulty => exact hlies.elim
    | _ => rfl

private theorem forget_eq (h : Laid s) (name : String) : s.forget L name = s.without name := by
  have hnames := names_forget (L := L) s name
  unfold Session.forget at hnames ⊢
  cases hlookup : s.names.lookup name with
  | none =>
    rw [hlookup] at hnames
    exact congrArg (fun names => ({ s with names } : Session σ)) hnames
  | some place =>
    dsimp only
    split
    · rfl
    · exact h.abandon_eq _ place

theorem forget (h : Laid s) (name : String) : Laid (s.forget L name) := by
  rw [h.forget_eq]
  exact ⟨h.named.without name, h.closed, h.lies, h.apart⟩

theorem assign (h : Laid s) (name : String) {place : Nat} (hp : place < s.things.length) :
    Laid (s.assign L name place) := by
  unfold Session.assign
  split
  · exact h
  · have hforgotten := h.forget (L := L) name
    have hp' : place < (s.forget L name).things.length := by
      rw [things_forget]
      exact hp
    obtain ⟨hnamed, -⟩ := hforgotten.named.naming (lookup_forget s name) hp'
    exact ⟨hnamed, hforgotten.closed, hforgotten.lies, hforgotten.apart⟩

end Laid

/-- A laid session that has the names of another, and its things and storages with more after
them. -/
structure Prepared (base s : Session σ) : Prop extends Beyond base s where
  laid : Laid s
  storages : ∃ more, s.world.memory.storages = base.world.memory.storages ++ more

namespace Prepared

variable {base s : Session σ}

theorem refl (h : Laid s) : Prepared s s := ⟨Beyond.refl s, h, [], (List.append_nil _).symm⟩

theorem thing_eq (h : Prepared base s) {place : Nat} {t : Thing}
    (ht : base.things[place]? = some t) : s.things[place]? = some t := by
  obtain ⟨more, hthings⟩ := h.things
  rw [hthings, List.getElem?_append_left (List.getElem?_eq_some_iff.mp ht).1]
  exact ht

private theorem append (h : Prepared base s) {t : Thing} {m : Memory} {more : List Storage}
    (hm : m.storages = s.world.memory.storages ++ more)
    (hlaid : Laid ({ s.withMemory m with things := s.things ++ [t] } : Session σ)) :
    Prepared base ({ s.withMemory m with things := s.things ++ [t] } : Session σ) := by
  obtain ⟨things, hthings⟩ := h.things
  obtain ⟨storages, hstorages⟩ := h.storages
  refine ⟨⟨h.names, things ++ [t], ?_⟩, hlaid, storages ++ more, ?_⟩
  · change s.things ++ [t] = _
    rw [hthings, List.append_assoc]
  · change m.storages = _
    rw [hm, hstorages, List.append_assoc]

end Prepared

end Session

namespace Act

variable {base : Session σ}

def Ready (base : Session σ) : Except Error Nat → Session σ → Prop
  | .ok place => fun s => Prepared base s ∧ place < s.things.length
  | .error _ => Prepared base

private theorem ready_append {s : Session σ} {t : Thing} {m : Memory}
    (h : Prepared base ({ s.withMemory m with things := s.things ++ [t] } : Session σ)) :
    Ready base (.ok s.things.length)
      ({ s.withMemory m with things := s.things ++ [t] } : Session σ) := by
  have hplace : s.things.length < (s.things ++ [t]).length := by simp
  exact ⟨h, hplace⟩

private theorem ready_place (name : String) :
    Spec (Prepared base) (place name : Act σ Nat) (Ready base) := by
  intro s hs
  cases hlookup : s.names.lookup name with
  | none =>
    rw [run_place_none hlookup]
    exact hs
  | some place =>
    rw [run_place_some hlookup]
    exact ⟨hs, hs.laid.named.lt_of_lookup hlookup⟩

private theorem ready_newView (type : String) (content : Bytes) (readOnly contiguous : Bool)
    (item : Item)
    (shape : Option (List Nat)) (growable : Bool) :
    Spec (Prepared base)
      (do add (.view (← newView type content readOnly contiguous item shape) growable))
      (Ready base) := by
  intro s hs
  exact ready_append (hs.append rfl (hs.laid.addView (.ofBytes content) growable rfl))

private theorem ready_addRange {s : Session σ} (hs : Prepared base s) {outcome : Except Error Range}
    (h : ∀ r, outcome = .ok r → r.Lies s.things s.world.memory) :
    Ready base ((do add (.range (← ofExcept outcome)) : Act σ Nat).run s).1
      ((do add (.range (← ofExcept outcome)) : Act σ Nat).run s).2 := by
  cases outcome with
  | error e => exact hs
  | ok r =>
    exact ready_append (hs.append (List.append_nil _).symm (hs.laid.addRange (h r rfl)))

private theorem base_of_foreign? {base : Base} {length : Int} {owner : String} {r : Range}
    (h : Range.foreign? base length owner = .ok r) : r.start.base = base := by
  unfold Range.foreign? at h
  split at h
  · exact absurd h (by simp)
  · split at h
    · exact absurd h (by simp)
    · rw [← Except.ok.inj h]

theorem ready_make (d : Description) :
    Spec (Prepared base) (make d : Act σ Nat) (Ready base) := by
  induction d with
  | named name => exact ready_place name
  | view type content readOnly growable =>
    exact ready_newView type content readOnly true .byte none _
  | items type content item shape =>
    unfold make
    dsimp only
    split
    · intro s hs
      exact hs
    · exact ready_newView type content false true item shape false
  | spaced type content step => exact ready_newView type _ false _ .byte none false
  | direct content =>
    intro s hs
    have hsize : content.length ≤ (if content.isEmpty then [0] else content : Bytes).length := by
      split
      · next hempty =>
        rw [List.isEmpty_iff.mp hempty]
        exact Nat.zero_le _
      · exact Nat.le_refl _
    exact ready_append (hs.append rfl (hs.laid.addDirect (.ofBytes _) rfl hsize))
  | foreign address length type =>
    intro s hs
    refine ready_addRange hs fun r hr => ?_
    unfold Range.Lies
    rw [base_of_foreign? hr]
    trivial
  | part whole offset length ih =>
    refine Spec.bind ih (fun place => ?_) fun _ _ h => h
    rintro s ⟨hs, hplace⟩
    obtain ⟨hlies, hmem⟩ := hs.laid.lies_getD hplace
    exact ready_addRange hs fun r hr => Range.lies_of_range? hlies hmem hr
  | other type =>
    intro s hs
    refine ready_append (hs.append (List.append_nil _).symm (hs.laid.add trivial ?_ ?_))
    · intro v growable b heq
      exact absurd heq (by simp)
    · intro v growable b _ heq
      exact absurd heq (by simp)

def Handed (base : Session σ) : Except Error Argument → Session σ → Prop
  | .ok a => fun s => Prepared base s ∧ ∃ t ∈ s.things, t.argument = a
  | .error _ => Prepared base

theorem handed_argument (d : Description) :
    Spec (Prepared base) (argument d : Act σ Argument) (Handed base) := by
  refine Spec.bind (ready_make d) (fun place => ?_) fun _ _ h => h
  rintro s ⟨hs, hplace⟩
  exact ⟨hs, _, (hs.laid.lies_getD hplace).2, rfl⟩

end Act

end NativeCodec
