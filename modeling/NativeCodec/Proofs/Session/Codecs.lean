import NativeCodec.Proofs.Session.Objects

set_option autoImplicit false
set_option relaxedAutoImplicit false

namespace NativeCodec.Act

open Native Session

variable {σ α : Type} {L : Libraries σ} {base : Session σ}

private theorem run_codec (name : String) (s : Session σ) :
    (∃ e, (codec name).run s = (.error e, s) ∧ s.leasesOf name = []) ∨
      ∃ place f, s.names.lookup name = some place ∧ s.thing place = .codec f ∧
        (codec name).run s = (.ok (place, f), s) := by
  unfold codec
  cases hlookup : s.names.lookup name with
  | none =>
    exact .inl ⟨_, run_bind_error (run_place_none hlookup) _, leasesOf_of_lookup_eq_none hlookup⟩
  | some place =>
    rw [run_bind_ok (run_place_some hlookup), run_bind_ok (run_thingAt place s),
      leasesOf_of_lookup hlookup]
    have hat : s.things.getD place (.other "object") = s.thing place := rfl
    rw [hat]
    cases hthing : s.thing place with
    | codec f => exact .inr ⟨place, f, rfl, hthing, rfl⟩
    | _ => exact .inl ⟨.wrongArgument, rfl, rfl⟩

theorem keeps_onCodec {op : Nat × Codec.Facade → Act σ α}
    (hop : ∀ found, (∀ c ∈ found.2.leases, c ∈ base.owned) → Keeps (Grown base) (op found))
    (name : String) : Keeps (Grown base) (codec name >>= op) := by
  intro s hs
  rcases run_codec name s with ⟨e, hrun, -⟩ | ⟨place, f, hlookup, hthing, hrun⟩
  · rw [run_bind_error hrun]
    exact hs
  · rw [run_bind_ok hrun]
    refine hop (place, f) ?_ s hs
    intro c hc
    rw [← hs.owned_eq]
    refine mem_owned (hs.orderly.named.lt_of_lookup hlookup) (stands_of_lookup hlookup) ?_
    rw [hthing]
    exact hc

variable (hL : L.FreesAlways) {s : Session σ}
include hL

theorem spec_closeCodec (hs : Orderly [] s) (name : String) :
    Orderly [] ((closeCodec L name).run s).2 ∧
      s.owned.Perm (s.leasesOf name ++ ((closeCodec L name).run s).2.owned) ∧
      ((closeCodec L name).run s).2.leasesOf name = [] := by
  rcases run_codec name s with ⟨e, hrun, hnone⟩ | ⟨place, f, hlookup, hthing, hrun⟩
  · unfold closeCodec
    rw [run_bind_error hrun, hnone]
    exact ⟨hs, .refl _, rfl⟩
  · have hlt := hs.named.lt_of_lookup hlookup
    obtain ⟨rest, hbefore, hafter⟩ := owned_put hlt (stands_of_lookup hlookup)
    rw [hthing] at hbefore
    obtain ⟨f', hok, hleases, hrest⟩ :=
      Codec.Facade.spec_close hL f s.world (hs.holding.congr hbefore)
    have hclose : (ofOp (f.close L)).run s =
        (.ok f', { s with world := ((f.close L).run s.world).2 }) := by
      rw [run_ofOp, hok]
    let s' : Session σ :=
      { s with world := ((f.close L).run s.world).2, things := s.things.set place (.codec f') }
    have hdone : (closeCodec L name).run s = (.ok (), s') := by
      unfold closeCodec
      rw [run_bind_ok hrun]
      change (ofOp (f.close L) >>= fun f' => put place (.codec f')).run s = _
      rw [run_bind_ok hclose]
      rfl
    have hput : s'.owned.Perm rest := hafter (.codec f') hleases
    have hlookup' : s'.names.lookup name = some place := hlookup
    have hthing' : s'.thing place = .codec f' := thing_put hlt (.codec f')
    rw [hdone, leasesOf_of_lookup hlookup, leasesOf_of_lookup hlookup', hthing, hthing']
    refine ⟨⟨(hs.named.put place (.codec f')).of_eq rfl rfl, hrest.congr hput.symm⟩, ?_, hleases⟩
    exact hbefore.trans (hput.symm.append_left _)

omit hL in
private theorem spec_addCodec (hs : Orderly [] s) {name : String}
    (hfree : s.names.lookup name = none) (a : Algorithm) (role : Codec.Role)
    (given : List (String × Codec.OptionValue)) :
    let s' := ((ofOp (Codec.Facade.create L a role given) >>= fun f =>
      keep L (some name) (.codec f) >>= fun _ => pure f).run s).2
    Orderly [] s' ∧ s'.owned.Perm (s'.leasesOf name ++ s.owned) ∧
      ∀ f, s'.codec? name = some f → f.leases.length = Codec.Facade.kept a given := by
  intro s'
  have hyields := Codec.Facade.yields_create (L := L) a role given s.world hs.holding
  have hgives := Codec.Facade.gives_create (L := L) a role given s.world
  rcases hr : (Codec.Facade.create L a role given).run s.world with ⟨e | f, w⟩
  · rw [hr] at hyields
    have hcreate : (ofOp (Codec.Facade.create L a role given)).run s =
        (.error e, { s with world := w }) := by
      rw [run_ofOp, hr]
    have hrun : s' = { s with world := w } := congrArg Prod.snd (run_bind_error hcreate _)
    have hnone : s'.names.lookup name = none := by
      rw [hrun]
      exact hfree
    rw [leasesOf_of_lookup_eq_none hnone]
    refine ⟨?_, ?_, ?_⟩
    · rw [hrun]
      exact ⟨hs.named.of_eq rfl rfl, hyields⟩
    · rw [hrun]
      exact .refl _
    · intro f hf
      rw [codec?_of_lookup_eq_none hnone] at hf
      exact absurd hf (by simp)
  · rw [hr] at hyields hgives
    have hcreate : (ofOp (Codec.Facade.create L a role given)).run s =
        (.ok f, { s with world := w }) := by
      rw [run_ofOp, hr]
    let s₁ : Session σ := { s with world := w, things := s.things ++ [.codec f] }
    have hrun : s' = s₁.assign L name s.things.length :=
      congrArg Prod.snd (run_bind_ok hcreate _)
    have hfree₁ : s₁.names.lookup name = none := hfree
    rw [assign_of_lookup_eq_none hfree₁] at hrun
    obtain ⟨hnamed, hperm, hlookup, hthing⟩ := hs.named.owned_keep hfree (.codec f)
    have howned : s'.owned.Perm (f.leases ++ s.owned) := by
      rw [hrun]
      exact hperm
    have hcodec : s'.codec? name = some f := by
      rw [hrun]
      exact codec?_of_lookup hlookup hthing
    have hleases : s'.leasesOf name = f.leases := by
      unfold leasesOf
      rw [hcodec]
      rfl
    have horderly : Orderly [] s' := by
      have hafter : Op.Holding (f.leases ++ s.owned) w := hyields
      have hholding := hafter.congr howned.symm
      rw [hrun] at hholding ⊢
      exact ⟨hnamed.of_eq rfl rfl, hholding⟩
    rw [hleases]
    refine ⟨horderly, howned, ?_⟩
    intro f' hf'
    obtain rfl : f = f' := Option.some.inj (hcodec.symm.trans hf')
    exact hgives f rfl

/-- A new codec belongs to the session with what it owns, and what its name stood for does not. -/
theorem spec_newCodec (hs : Orderly [] s) (name : String) (a : Except Error Algorithm)
    (role : Codec.Role) (given : List (String × Codec.OptionValue)) :
    let s' := ((newCodec L name a role given).run s).2
    Orderly [] s' ∧ s'.owned.Perm (s'.leasesOf name ++ (s.without name).owned) ∧
      ∀ f, s'.codec? name = some f →
        ∃ a', a = .ok a' ∧ f.leases.length = Codec.Facade.kept a' given := by
  intro s'
  have hforgotten : Orderly [] (s.forget L name) := hs.forget hL name
  have hfree := lookup_forget (L := L) s name
  rw [← owned_forget (L := L)]
  cases a with
  | error e =>
    have hrun : s' = s.forget L name := rfl
    rw [hrun, leasesOf_of_lookup_eq_none hfree]
    refine ⟨hforgotten, .refl _, ?_⟩
    intro f hf
    rw [codec?_of_lookup_eq_none hfree] at hf
    exact absurd hf (by simp)
  | ok a =>
    obtain ⟨horderly, hperm, hkept⟩ := spec_addCodec (L := L) hforgotten hfree a role given
    exact ⟨horderly, hperm, fun f hf => ⟨a, rfl, hkept f hf⟩⟩

/-- What a name stood for does not belong to the session any more once it stands for another. -/
theorem spec_newObject (hs : Orderly [] s) (name : String) (d : Description) :
    let s' := ((newObject L name d).run s).2
    Orderly [] s' ∧ (s'.owned = s.owned ∨ s'.owned.Perm (s.without name).owned) := by
  intro s'
  have hmake := spec_make d s (Grown.refl hs)
  rcases hr : (make d).run s with ⟨e | place, s₁⟩
  · rw [hr] at hmake
    have hrun : s' = s₁ := by
      change ((newObject L name d).run s).2 = s₁
      unfold newObject
      rw [run_bind_error hr]
    rw [hrun]
    exact ⟨hmake.orderly, .inl hmake.owned_eq⟩
  · rw [hr] at hmake
    obtain ⟨hgrown, hplaced, hspare⟩ := hmake
    have hrun : s' = s₁.assign L name place := by
      change ((newObject L name d).run s).2 = _
      unfold newObject
      rw [run_bind_ok hr]
      rfl
    have horderly : Orderly (s₁.spare place) s₁ := by
      rw [hspare]
      exact hgrown.orderly
    rw [hrun]
    refine ⟨horderly.assign hL hplaced name, ?_⟩
    by_cases hlookup : s₁.names.lookup name = some place
    · have hsame : s₁.assign L name place = s₁ := if_pos hlookup
      rw [hsame]
      exact .inl hgrown.owned_eq
    · have hperm := horderly.owned_assign hL hplaced hlookup
      rw [hspare, List.nil_append, hgrown.owned_without] at hperm
      exact .inr hperm

end NativeCodec.Act
