import NativeCodec.Proofs.Session.Act
import NativeCodec.Session.Codecs
import NativeCodec.Session.Direct

set_option autoImplicit false
set_option relaxedAutoImplicit false

namespace NativeCodec

open Native

variable {σ α : Type}

structure Session.Beyond (base s : Session σ) : Prop where
  names : s.names = base.names
  things : ∃ more, s.things = base.things ++ more

theorem Session.Beyond.refl (s : Session σ) : Beyond s s := ⟨rfl, [], (List.append_nil _).symm⟩

namespace Act

variable {base : Session σ}

private theorem beyond_setMemory (m : Memory) :
    Keeps (Session.Beyond base) (setMemory m : Act σ Unit) :=
  fun _ h => ⟨h.names, h.things⟩

private theorem beyond_ofOp (x : Op σ α) : Keeps (Session.Beyond base) (ofOp x) :=
  fun _ h => ⟨h.names, h.things⟩

private theorem beyond_add (t : Thing) : Keeps (Session.Beyond base) (add t : Act σ Nat) := by
  rintro s ⟨hnames, more, hthings⟩
  refine ⟨hnames, more ++ [t], ?_⟩
  change s.things ++ [t] = _
  rw [hthings, List.append_assoc]

private theorem beyond_place (name : String) :
    Keeps (Session.Beyond base) (place name : Act σ Nat) := by
  intro s h
  cases hlookup : s.names.lookup name with
  | none =>
    rw [run_place_none hlookup]
    exact h
  | some at_ =>
    rw [run_place_some hlookup]
    exact h

private theorem beyond_storage (bytes : Bytes) :
    Keeps (Session.Beyond base) (storage bytes : Act σ Nat) := by
  unfold storage
  refine Keeps.bind Keeps.memory fun m => ?_
  exact Keeps.bind (beyond_setMemory _) fun _ => Keeps.pure _

private theorem beyond_newView (type : String) (content : Bytes) (readOnly contiguous : Bool)
    (item : Item)
    (shape : Option (List Nat)) : Keeps (Session.Beyond base)
      (newView type content readOnly contiguous item shape : Act σ View) := by
  unfold newView
  exact Keeps.bind (beyond_storage _) fun _ => Keeps.pure _

private theorem beyond_make (d : Description) :
    Keeps (Session.Beyond base) (make d : Act σ Nat) := by
  induction d with
  | named name => exact beyond_place name
  | view type content readOnly growable =>
    exact Keeps.bind (beyond_newView _ _ _ _ _ _) fun _ => beyond_add _
  | items type content item shape =>
    unfold make
    dsimp only
    split
    · refine Keeps.bind (Keeps.ofExcept _) fun _ => ?_
      exact Keeps.bind (beyond_newView _ _ _ _ _ _) fun _ => beyond_add _
    · exact Keeps.bind (beyond_newView _ _ _ _ _ _) fun _ => beyond_add _
  | spaced type content step =>
    exact Keeps.bind (beyond_newView _ _ _ _ _ _) fun _ => beyond_add _
  | direct content => exact Keeps.bind (beyond_storage _) fun _ => beyond_add _
  | foreign address length type => exact Keeps.bind (Keeps.ofExcept _) fun _ => beyond_add _
  | part whole offset length ih =>
    unfold make
    refine Keeps.bind ih fun at_ => Keeps.bind (Keeps.thingAt _) fun t => ?_
    exact Keeps.bind Keeps.memory fun m => Keeps.bind (Keeps.ofExcept _) fun _ => beyond_add _
  | other type => exact beyond_add _

private theorem beyond_argument (d : Description) :
    Keeps (Session.Beyond base) (argument d : Act σ Argument) := by
  unfold argument
  exact Keeps.bind (beyond_make d) fun _ => Keeps.bind (Keeps.thingAt _) fun _ => Keeps.pure _

theorem beyond_onObject (d : Description) (op : Argument → Op σ α) :
    Keeps (Session.Beyond base) (onObject d op) := by
  unfold onObject
  exact Keeps.bind (beyond_argument d) fun a => beyond_ofOp _

theorem beyond_into (d out : Description) (op : Argument → Argument → Op σ Int) :
    Keeps (Session.Beyond base) (into d out op) := by
  unfold into
  refine Keeps.bind (beyond_argument d) fun a => Keeps.bind (beyond_argument out) fun b => ?_
  exact Keeps.bind (beyond_ofOp _) fun count => Keeps.bind Keeps.memory fun _ => Keeps.pure _

theorem cursor?_of_beyond {s : Session σ} (h : Session.Beyond base s) {name : String}
    {position : Nat} (hc : cursor? base name = some position) :
    cursor? s name = some position := by
  obtain ⟨hnames, more, hthings⟩ := h
  unfold cursor? at hc ⊢
  rw [hnames, hthings]
  cases hlookup : base.names.lookup name with
  | none =>
    rw [hlookup] at hc
    exact absurd hc (by simp)
  | some at_ =>
    rw [hlookup, Option.bind_some] at hc
    rw [Option.bind_some]
    cases hthing : base.things[at_]? with
    | none =>
      rw [hthing] at hc
      exact absurd hc (by simp)
    | some t =>
      rw [hthing] at hc
      rw [List.getElem?_append_left (List.getElem?_eq_some_iff.mp hthing).1, hthing]
      exact hc

end Act

end NativeCodec
