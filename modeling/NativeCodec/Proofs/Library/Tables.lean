import Mathlib.Data.List.Nodup
import Mathlib.Data.List.TakeWhile
import NativeCodec.Library.Binding

set_option autoImplicit false
set_option relaxedAutoImplicit false

namespace NativeCodec.Library

/-- A declaration declares a name: the name stands in it, a word begins or ends where it starts, and
blanks, if any, and an opening parenthesis come after it. -/
def Declared (declaration name : String) : Prop :=
  ∃ before blanks after, declaration.toList = before ++ (name.toList ++ blanks ++ '(' :: after) ∧
    (∀ c ∈ blanks, Text.blanks.contains c = true) ∧
    inWord before.getLast? ≠ inWord (name.toList ++ blanks ++ '(' :: after).head?

section Declarations

variable {name text : List Char}

private theorem opensArguments_iff :
    opensArguments text = true ↔
      ∃ blanks after, text = blanks ++ '(' :: after ∧
        ∀ c ∈ blanks, Text.blanks.contains c = true := by
  unfold opensArguments
  rw [beq_iff_eq]
  constructor
  · intro h
    obtain ⟨after, hafter⟩ := List.head?_eq_some_iff.mp h
    refine ⟨text.takeWhile fun c => Text.blanks.contains c, after, ?_, fun c hc => ?_⟩
    · rw [← hafter, List.takeWhile_append_dropWhile]
    · exact List.mem_takeWhile_imp (p := fun c => Text.blanks.contains c) hc
  · rintro ⟨blanks, after, rfl, hblanks⟩
    have hparenthesis : ¬Text.blanks.contains '(' = true := by decide
    rw [List.dropWhile_append_of_pos hblanks, List.dropWhile_cons_of_neg hparenthesis]
    rfl

private theorem startsCall_iff :
    startsCall name text = true ↔
      ∃ blanks after, text = name ++ blanks ++ '(' :: after ∧
        ∀ c ∈ blanks, Text.blanks.contains c = true := by
  unfold startsCall
  rw [Bool.and_eq_true, List.isPrefixOf_iff_prefix, opensArguments_iff]
  constructor
  · rintro ⟨⟨rest, rfl⟩, blanks, after, hrest, hblanks⟩
    rw [List.drop_left] at hrest
    exact ⟨blanks, after, by rw [hrest, List.append_assoc], hblanks⟩
  · rintro ⟨blanks, after, rfl, hblanks⟩
    rw [List.append_assoc, List.drop_left]
    exact ⟨List.prefix_append name _, blanks, after, rfl, hblanks⟩

private theorem declaresFrom_iff {previous : Option Char} :
    declaresFrom name previous text = true ↔
      ∃ before rest, text = before ++ rest ∧ startsCall name rest = true ∧
        inWord (before.getLast?.or previous) ≠ inWord rest.head? := by
  induction text generalizing previous with
  | nil =>
    refine ⟨fun h => absurd h Bool.false_ne_true, ?_⟩
    rintro ⟨before, rest, htext, hcall, -⟩
    obtain ⟨-, rfl⟩ := List.append_eq_nil_iff.mp htext.symm
    obtain ⟨blanks, after, hnil, -⟩ := startsCall_iff.mp hcall
    exact absurd hnil.symm (by simp)
  | cons c text ih =>
    rw [declaresFrom, Bool.or_eq_true, Bool.and_eq_true, bne_iff_ne, ih]
    -- the cut is before `c`, or it is further on and `c` is the last character so far
    have hlast (before : List Char) :
        (c :: before).getLast?.or previous = before.getLast?.or (some c) := by
      rw [List.getLast?_cons, Option.or_some, Option.some_or]
    constructor
    · rintro (⟨hedge, hcall⟩ | ⟨before, rest, rfl, hcall, hedge⟩)
      · exact ⟨[], c :: text, rfl, hcall, hedge⟩
      · exact ⟨c :: before, rest, rfl, hcall, by rwa [hlast]⟩
    · rintro ⟨before, rest, htext, hcall, hedge⟩
      cases before with
      | nil =>
        obtain rfl : c :: text = rest := htext
        exact .inl ⟨hedge, hcall⟩
      | cons d before =>
        obtain ⟨rfl, rfl⟩ := List.cons.inj htext
        rw [hlast] at hedge
        exact .inr ⟨before, rest, rfl, hcall, hedge⟩

end Declarations

theorem declares_iff {declaration name : String} :
    declares declaration name = true ↔ Declared declaration name := by
  unfold declares Declared
  rw [declaresFrom_iff]
  constructor
  · rintro ⟨before, rest, htext, hcall, hedge⟩
    obtain ⟨blanks, after, rfl, hblanks⟩ := startsCall_iff.mp hcall
    rw [Option.or_none] at hedge
    exact ⟨before, blanks, after, htext, hblanks, hedge⟩
  · rintro ⟨before, blanks, after, htext, hblanks, hedge⟩
    refine ⟨before, _, htext, startsCall_iff.mpr ⟨blanks, after, rfl, hblanks⟩, ?_⟩
    rwa [Option.or_none]

private theorem declares_eq_false_iff {declaration name : String} :
    declares declaration name = false ↔ ¬Declared declaration name := by
  rw [← declares_iff, Bool.not_eq_true]

instance (declaration name : String) : Decidable (Declared declaration name) :=
  decidable_of_iff _ declares_iff

namespace Table

/-- The ways in which binding a name goes: the outcome, the table after it, and the declaration that
was given to the reader of declarations, if it got so far. -/
inductive Binds (t : Table) (name declaration : String) :
    Except Error Bound → Table → Option String → Prop
  | undeclared (h : ¬Declared declaration name) :
    Binds t name declaration
      (.error (.undeclared (Text.quote declaration) (Text.quote name))) t none
  | again {b : Bound} (h : Declared declaration name) (hbound : b ∈ t.bound) (hb : b.name = name) :
    Binds t name declaration (.ok b) t none
  | first (h : Declared declaration name) (hnew : ∀ b ∈ t.bound, b.name ≠ name)
    (hexport : name ∈ t.exports) :
    Binds t name declaration (.ok ⟨t.library.number, name, declaration⟩)
      { t with bound := t.bound ++ [⟨t.library.number, name, declaration⟩] } (some declaration)
  | missing (h : Declared declaration name) (hnew : ∀ b ∈ t.bound, b.name ≠ name)
    (hexport : name ∉ t.exports) :
    Binds t name declaration
      (.error (.unresolved name t.library.name (showPath t.library.path))) t (some declaration)

/-- Names are bound once, with declarations that declare them, to symbols that are exported. -/
structure Sound (t : Table) : Prop where
  distinct : (t.bound.map (·.name)).Nodup
  declared : ∀ b ∈ t.bound, Declared b.declaration b.name
  exported : ∀ b ∈ t.bound, b.name ∈ t.exports

def Extends (t t' : Table) : Prop := ∃ more, t' = { t with bound := t.bound ++ more }

variable {t t' : Table} {name declaration : String} {outcome : Except Error Bound}
  {read : Option String}

theorem binds (t : Table) (name declaration : String) :
    Binds t name declaration (t.bind name declaration).outcome (t.bind name declaration).table
      (t.declared? name declaration) := by
  unfold bind declared?
  by_cases h : declares declaration name = true
  · rw [if_neg (by simp [h]), h, Bool.true_and]
    have hdeclared := declares_iff.mp h
    cases hbound : t.get? name with
    | some b =>
      have hb : b.name = name := by simpa using List.find?_some hbound
      exact .again hdeclared (List.mem_of_find?_eq_some hbound) hb
    | none =>
      have hnew : ∀ b ∈ t.bound, b.name ≠ name := by simpa using List.find?_eq_none.mp hbound
      dsimp only
      split
      · next hexport => exact .first hdeclared hnew (List.contains_iff_mem.mp hexport)
      · next hexport =>
        exact .missing hdeclared hnew fun hmem => hexport (List.contains_iff_mem.mpr hmem)
  · have hfalse := Bool.of_not_eq_true h
    rw [if_pos hfalse, hfalse]
    exact .undeclared (declares_eq_false_iff.mp hfalse)

theorem Extends.refl (t : Table) : t.Extends t := ⟨[], by rw [List.append_nil]⟩

theorem Extends.trans {t'' : Table} (h : t.Extends t') (h' : t'.Extends t'') : t.Extends t'' := by
  obtain ⟨more, rfl⟩ := h
  obtain ⟨more', rfl⟩ := h'
  exact ⟨more ++ more', by rw [List.append_assoc]⟩

theorem Extends.exports_eq (h : t.Extends t') : t'.exports = t.exports := by
  obtain ⟨more, rfl⟩ := h
  rfl

theorem Extends.bound_prefix (h : t.Extends t') : t.bound <+: t'.bound := by
  obtain ⟨more, rfl⟩ := h
  exact List.prefix_append t.bound more

theorem Binds.extends (h : t.Binds name declaration outcome t' read) : t.Extends t' := by
  cases h with
  | undeclared => exact .refl t
  | again => exact .refl t
  | first => exact ⟨_, rfl⟩
  | missing => exact .refl t

theorem sound_empty (library : Opened) (exports : List String) :
    Sound { library, exports } where
  distinct := List.nodup_nil
  declared _ hmem := absurd hmem List.not_mem_nil
  exported _ hmem := absurd hmem List.not_mem_nil

theorem Binds.sound (h : t.Binds name declaration outcome t' read) (ht : t.Sound) : t'.Sound := by
  cases h with
  | undeclared => exact ht
  | again => exact ht
  | missing => exact ht
  | first hdeclared hnew hexport =>
    refine ⟨?_, List.forall_mem_append.mpr ⟨ht.declared, ?_⟩,
      List.forall_mem_append.mpr ⟨ht.exported, ?_⟩⟩
    · rw [List.map_append, List.map_singleton, ← List.concat_eq_append]
      refine List.Nodup.concat (fun hmem => ?_) ht.distinct
      obtain ⟨b, hb, hname⟩ := List.mem_map.mp hmem
      exact hnew b hb hname
    · exact List.forall_mem_singleton.mpr hdeclared
    · exact List.forall_mem_singleton.mpr hexport

private theorem Sound.eq_of_name_eq {b b' : Bound} (h : t.Sound) (hb : b ∈ t.bound)
    (hb' : b' ∈ t.bound)
    (hname : b.name = b'.name) : b = b' :=
  List.inj_on_of_nodup_map h.distinct hb hb' hname

theorem Binds.mem_of_ok {b : Bound} (h : t.Binds name declaration (.ok b) t' read) :
    b ∈ t'.bound ∧ b.name = name := by
  cases h with
  | again _ hbound hb => exact ⟨hbound, hb⟩
  | first => exact ⟨List.mem_append_right _ List.mem_cons_self, rfl⟩

/-- Binding a name that is bound gives what is bound, whatever declaration declares it. -/
theorem Binds.of_mem {b : Bound} (h : t.Binds name declaration outcome t' read) (ht : t.Sound)
    (hdeclared : Declared declaration name) (hbound : b ∈ t.bound) (hb : b.name = name) :
    outcome = .ok b ∧ t' = t ∧ read = none := by
  cases h with
  | undeclared hno => exact absurd hdeclared hno
  | again _ hbound' hb' =>
    rw [ht.eq_of_name_eq hbound hbound' (hb.trans hb'.symm)]
    exact ⟨rfl, rfl, rfl⟩
  | first _ hnew => exact absurd hb (hnew b hbound)
  | missing _ hnew => exact absurd hb (hnew b hbound)

/-- The kind of the error that binding ends in hangs on the declaration, the name and the symbols
that are exported, and not on what is bound. A binding that ends in an error changes no table. -/
theorem Binds.error {e : Error} (h : t.Binds name declaration (.error e) t' read) :
    t' = t ∧ ((¬Declared declaration name ∧ e.kind = .value) ∨
      (Declared declaration name ∧ name ∉ t.exports ∧ e.kind = .symbolResolution)) := by
  cases h with
  | undeclared hno => exact ⟨rfl, .inl ⟨hno, rfl⟩⟩
  | missing hdeclared _ hexport => exact ⟨rfl, .inr ⟨hdeclared, hexport, rfl⟩⟩

/-- What was refused on a library is refused whatever else is bound there, with the same kind of
error. -/
theorem Binds.refused_again {e : Error} {t₁ t₂ t₃ : Table}
    (h : t.Binds name declaration (.error e) t₁ read) {read' : Option String}
    (h' : t₂.Binds name declaration outcome t₃ read') (ht : t₂.Sound)
    (hexports : t₂.exports = t.exports) : ∃ e', outcome = .error e' ∧ e'.kind = e.kind := by
  obtain ⟨-, ⟨hno, hkind⟩ | ⟨hdeclared, hexport, hkind⟩⟩ := h.error
  · rw [hkind]
    cases h' with
    | undeclared => exact ⟨_, rfl, rfl⟩
    | again hyes => exact absurd hyes hno
    | first hyes => exact absurd hyes hno
    | missing hyes => exact absurd hyes hno
  · rw [hkind]
    rw [← hexports] at hexport
    cases h' with
    | undeclared hno => exact absurd hdeclared hno
    | again _ hbound hb =>
      rw [← hb] at hexport
      exact absurd (ht.exported _ hbound) hexport
    | first _ _ hyes => exact absurd hyes hexport
    | missing => exact ⟨_, rfl, rfl⟩

end Table

theorem Declarations.prefix_add (d : Declarations) (declaration : String) :
    d.read <+: (d.add declaration).read := by
  unfold add
  split
  · exact List.prefix_rfl
  · exact List.prefix_append _ _

theorem Declarations.nodup_add {d : Declarations} (h : d.read.Nodup) (declaration : String) :
    (d.add declaration).read.Nodup := by
  unfold add
  split
  · exact h
  · next hnew =>
    rw [List.contains_iff_mem] at hnew
    rw [← List.concat_eq_append]
    exact List.Nodup.concat hnew h

end NativeCodec.Library
