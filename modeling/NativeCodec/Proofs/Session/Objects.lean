import NativeCodec.Proofs.Session.Act
import NativeCodec.Proofs.Session.Ownership
import NativeCodec.Session.Codecs

set_option autoImplicit false
set_option relaxedAutoImplicit false

namespace NativeCodec

open Native Session

variable {σ α : Type} {base : Session σ}

namespace Session

structure Grown (base s : Session σ) : Prop where
  based : Named base
  orderly : Orderly [] s
  names : s.names = base.names
  things : ∃ more, s.things = base.things ++ more

variable {s : Session σ}

theorem Grown.refl (h : Orderly [] s) : Grown s s :=
  ⟨h.named, h, rfl, [], (List.append_nil _).symm⟩

theorem Grown.owned_eq (h : Grown base s) : s.owned = base.owned := by
  obtain ⟨more, hthings⟩ := h.things
  rw [← h.based.owned_append more]
  exact owned_of_eq h.names hthings

theorem Grown.owned_without (h : Grown base s) (name : String) :
    (s.without name).owned = (base.without name).owned := by
  obtain ⟨more, hthings⟩ := h.things
  rw [← (h.based.without name).owned_append more]
  refine owned_of_eq ?_ hthings
  change s.names.filter _ = base.names.filter _
  rw [h.names]

/-- A thing that is there, and owns nothing that does not belong to the session. -/
structure Present (s : Session σ) (place : Nat) : Prop where
  placed : place < s.things.length
  spare : s.spare place = []

end Session

namespace Act

def Found (base : Session σ) : Except Error Nat → Session σ → Prop
  | .ok place => fun s => Grown base s ∧ Present s place
  | .error _ => Grown base

private theorem keeps_ofOp {x : Op σ α} (hx : Op.Balances base.owned x) :
    Keeps (Grown base) (ofOp x : Act σ α) := by
  intro s hs
  have hholding : Op.Holding base.owned s.world := by
    rw [← hs.owned_eq]
    exact hs.orderly.holding
  have hafter := hx s.world hholding
  rw [← hs.owned_eq] at hafter
  exact ⟨hs.based, ⟨hs.orderly.named.of_eq rfl rfl, hafter⟩, hs.names, hs.things⟩

private theorem keeps_setMemory (m : Memory) : Keeps (Grown base) (setMemory m : Act σ Unit) := by
  intro s hs
  exact ⟨hs.based, ⟨hs.orderly.named.of_eq rfl rfl, hs.orderly.holding⟩, hs.names, hs.things⟩

private theorem spec_add {t : Thing} (ht : t.leases = []) :
    Spec (Grown base) (add t : Act σ Nat) (Found base) := by
  intro s hs
  have hnamed := hs.orderly.named
  refine ⟨⟨hs.based, ⟨hnamed.append [t], ?_⟩, hs.names, ?_⟩, ?_, ?_⟩
  · change Op.Holding ([] ++ ({ s with things := s.things ++ [t] } : Session σ).owned) s.world
    rw [hnamed.owned_append [t]]
    exact hs.orderly.holding
  · obtain ⟨more, hthings⟩ := hs.things
    refine ⟨more ++ [t], ?_⟩
    change s.things ++ [t] = _
    rw [hthings, List.append_assoc]
  · change s.things.length < (s.things ++ [t]).length
    rw [List.length_append]
    exact Nat.lt_succ_self _
  · exact (hnamed.spare_add t).trans ht

private theorem spec_place (name : String) :
    Spec (Grown base) (place name : Act σ Nat) (Found base) := by
  intro s hs
  cases hlookup : s.names.lookup name with
  | none =>
    rw [run_place_none hlookup]
    exact hs
  | some at_ =>
    rw [run_place_some hlookup]
    exact ⟨hs, hs.orderly.named.lt_of_lookup hlookup, if_pos (stands_of_lookup hlookup)⟩

private theorem keeps_storage (bytes : Bytes) : Keeps (Grown base) (storage bytes : Act σ Nat) := by
  unfold storage
  refine Keeps.bind Keeps.memory fun m => ?_
  exact Keeps.bind (keeps_setMemory _) fun _ => Keeps.pure _

private theorem keeps_newView (type : String) (content : Bytes) (readOnly contiguous : Bool)
    (item : Item)
    (shape : Option (List Nat)) :
    Keeps (Grown base) (newView type content readOnly contiguous item shape : Act σ View) := by
  unfold newView
  exact Keeps.bind (keeps_storage _) fun _ => Keeps.pure _

private theorem Keeps.of_found {x : Act σ Nat} (h : Spec (Grown base) x (Found base)) :
    Keeps (Grown base) x := by
  intro s hs
  have hfound := h s hs
  rcases hr : x.run s with ⟨e | place, s'⟩
  · rw [hr] at hfound
    exact hfound
  · rw [hr] at hfound
    exact hfound.1

theorem spec_make (d : Description) : Spec (Grown base) (make d : Act σ Nat) (Found base) := by
  have herror : ∀ (e : Error) (s : Session σ), Grown base s → Found base (.error e) s :=
    fun _ _ h => h
  induction d with
  | named name => exact spec_place name
  | view type content readOnly growable =>
    exact Spec.bind (keeps_newView _ _ _ _ _ _) (fun _ => spec_add rfl) herror
  | items type content item shape =>
    unfold make
    dsimp only
    split
    · exact Spec.bind (Keeps.ofExcept _) (fun _ => Spec.bind (keeps_newView _ _ _ _ _ _)
        (fun _ => spec_add rfl) herror) herror
    · exact Spec.bind (keeps_newView _ _ _ _ _ _) (fun _ => spec_add rfl) herror
  | spaced type content step =>
    exact Spec.bind (keeps_newView _ _ _ _ _ _) (fun _ => spec_add rfl) herror
  | direct content =>
    exact Spec.bind (keeps_storage _) (fun _ => spec_add rfl) herror
  | foreign address length type =>
    exact Spec.bind (Keeps.ofExcept _) (fun _ => spec_add rfl) herror
  | part whole offset length ih =>
    unfold make
    refine Spec.bind (Keeps.of_found ih) (fun at_ => ?_) herror
    refine Spec.bind (Keeps.thingAt _) (fun t => ?_) herror
    refine Spec.bind Keeps.memory (fun m => ?_) herror
    exact Spec.bind (Keeps.ofExcept _) (fun _ => spec_add rfl) herror
  | other type => exact spec_add rfl

private theorem keeps_argument (d : Description) :
    Keeps (Grown base) (argument d : Act σ Argument) := by
  unfold argument
  refine Keeps.bind (Keeps.of_found (spec_make d)) fun place => ?_
  exact Keeps.bind (Keeps.thingAt _) fun _ => Keeps.pure _

theorem keeps_onObject {op : Argument → Op σ α} (hop : ∀ a, Op.Balances base.owned (op a))
    (d : Description) : Keeps (Grown base) (onObject d op) := by
  unfold onObject
  exact Keeps.bind (keeps_argument d) fun a => keeps_ofOp (hop a)

theorem keeps_into {op : Argument → Argument → Op σ Int}
    (hop : ∀ a b, Op.Balances base.owned (op a b)) (d out : Description) :
    Keeps (Grown base) (into d out op) := by
  unfold into
  refine Keeps.bind (keeps_argument d) fun a => ?_
  refine Keeps.bind (keeps_argument out) fun b => ?_
  refine Keeps.bind (keeps_ofOp (hop a b)) fun count => ?_
  exact Keeps.bind Keeps.memory fun _ => Keeps.pure _

end Act

end NativeCodec
