import Mathlib.Data.List.Induction
import NativeCodec.Library.Loader

/-!
Names that a loader settles once.

Requests come one after another, each on the host as it is then. What a loader keeps of them is the
first trial of each name that ended in a library or in an error of loading (`Remembers`); so every
later request for the name repeats that trial, whatever the host is like, and requests for other
names make no difference (`load_settled_once`).
-/

set_option autoImplicit false
set_option relaxedAutoImplicit false

namespace NativeCodec.Library

/-- A request for a library, on the host as it is then; an opening would have the number. -/
structure Request where
  host : Host
  number : Nat
  name : String

/-- Whether a loading ended in a library or in an error of loading. -/
def Loading.settles (l : Loading) : Bool :=
  match l.outcome with
  | .ok _ => true
  | .error e => e.kind == .libraryLoad

/-- A loading gives the outcome of an earlier one again: the same library, or an error of loading
with the text of the earlier error, which is behind it. No path is opened and nothing is noted. -/
inductive Loading.Repeats : Loading → Loading → Prop
  | library {first : Loading} {library : Opened} (outcome : first.outcome = .ok library) :
      Repeats first { outcome := .ok library, again := true }
  | error {first : Loading} {e said : Error} (outcome : first.outcome = .error e)
      (kind : said.kind = .libraryLoad) (text : said.text = e.text) :
      Repeats first { outcome := .error said, behind := some e, again := true }

def Loading.repeated (first : Loading) : Loading :=
  match first.outcome with
  | .ok library => .known library
  | .error e => .refused e

private theorem Loading.repeats_repeated (first : Loading) : first.Repeats first.repeated := by
  unfold Loading.repeated
  cases houtcome : first.outcome with
  | ok library => exact .library houtcome
  | error e => exact .error houtcome rfl (Error.text_made ..)

private theorem Loading.again_repeated (first : Loading) : first.repeated.again = true := by
  unfold Loading.repeated
  cases first.outcome with
  | ok library => rfl
  | error e => rfl

namespace Request

/-- What a loader does that a request is made to. -/
def load (l : Loader) (q : Request) : Loading × Loader := l.load q.host q.number q.name

/-- What a request comes to where nothing is settled. -/
def trial (c : Configuration) (package : String) (q : Request) : Loading :=
  (({ configuration := c, package } : Loader).attempt q.host q.number q.name).1

def settling (c : Configuration) (package name : String) (q : Request) : Bool :=
  q.name == name && (q.trial c package).settles

def answer (c : Configuration) (package : String) (before : List Request) (q : Request) :
    Loading :=
  match before.find? (settling c package q.name) with
  | some first => (first.trial c package).repeated
  | none => q.trial c package

/-- Whether the library of a name was looked for at a request, and the name was settled by that. -/
def resolved (name : String) : Request × Loading → Bool
  | (q, loading) => q.name == name && (!loading.again && loading.settles)

section

variable {c : Configuration} {package name : String} {q : Request}

private theorem find?_other (hname : q.name ≠ name) :
    [q].find? (settling c package name) = none := by
  simp [settling, hname]

private theorem find?_self (q : Request) :
    [q].find? (settling c package q.name) =
      if (q.trial c package).settles then some q else none := by
  rw [List.find?_cons]
  simp only [settling, beq_self_eq_true, Bool.true_and, List.find?_nil]
  cases (q.trial c package).settles with
  | true => rfl
  | false => rfl

private theorem find?_filter (before : List Request) (name : String) :
    (before.filter (·.name == name)).find? (settling c package name) =
      before.find? (settling c package name) := by
  rw [List.find?_filter]
  refine congrArg (before.find? ·) (funext fun q => ?_)
  cases hname : q.name == name with
  | true => simp [settling, hname]
  | false => simp [settling, hname]

end

end Request

namespace Loader

/-- Makes requests to a loader in turn: what they came to, and the loader then. -/
def loads (l : Loader) : List Request → List Loading × Loader
  | [] => ([], l)
  | q :: rest =>
    let (loading, l) := q.load l
    let (loadings, l) := l.loads rest
    (loading :: loadings, l)

/-- The loader after a loading of a name that was not known: it keeps a library, and an error of
loading. -/
def keeping (l : Loader) (name : String) (first : Loading) : Loader :=
  match first.outcome with
  | .ok library => { l with libraries := (name, library) :: l.libraries }
  | .error e =>
    if e.kind = .libraryLoad then { l with failures := (name, e) :: l.failures } else l

/-- What a loader keeps of a name: the library or the error of the first loading that settled it. -/
def Knows (l : Loader) (name : String) : Option Loading → Prop
  | none => l.libraries.lookup name = none ∧ l.failures.lookup name = none
  | some first =>
    match first.outcome with
    | .ok library => l.libraries.lookup name = some library ∧ l.failures.lookup name = none
    | .error e => l.libraries.lookup name = none ∧ l.failures.lookup name = some e

/-- A loader of a configuration keeps of every name what the first request that settled it came
to. -/
structure Remembers (c : Configuration) (package : String) (before : List Request)
    (l : Loader) : Prop where
  configuration_eq : l.configuration = c
  package_eq : l.package = package
  knows : ∀ name, l.Knows name
    ((before.find? (Request.settling c package name)).map (Request.trial c package))

variable {c : Configuration} {package : String} {l : Loader}

private theorem loads_cons (l : Loader) (q : Request) (rest : List Request) :
    l.loads (q :: rest) =
      ((q.load l).1 :: ((q.load l).2.loads rest).1, ((q.load l).2.loads rest).2) := rfl

private theorem loads_append (l : Loader) (first second : List Request) :
    l.loads (first ++ second) =
      ((l.loads first).1 ++ ((l.loads first).2.loads second).1,
        ((l.loads first).2.loads second).2) := by
  induction first generalizing l with
  | nil => rfl
  | cons q rest ih => rw [List.cons_append, loads_cons, loads_cons, ih, List.cons_append]

private theorem length_loads (l : Loader) (requests : List Request) :
    (l.loads requests).1.length = requests.length := by
  induction requests generalizing l with
  | nil => rfl
  | cons q rest ih => rw [loads_cons, List.length_cons, List.length_cons, ih]

private theorem attempt_eq (hc : l.configuration = c) (hp : l.package = package) (q : Request) :
    l.attempt q.host q.number q.name =
      (q.trial c package, l.keeping q.name (q.trial c package)) := by
  subst hc hp
  unfold Request.trial attempt keeping
  dsimp only
  rcases resolve q.host l.configuration l.package q.name with ⟨opened, e | candidate⟩
  · by_cases hkind : e.kind = .libraryLoad
    · simp only [if_pos hkind]
    · simp only [if_neg hkind]
  · rfl

private theorem again_trial (q : Request) : (q.trial c package).again = false := by
  unfold Request.trial attempt
  dsimp only
  rcases resolve q.host c package q.name with ⟨opened, e | candidate⟩
  · by_cases hkind : e.kind = .libraryLoad
    · simp only [if_pos hkind]
    · simp only [if_neg hkind]
  · rfl

private theorem keeping_cases (l : Loader) (name : String) (first : Loading) :
    (∃ library, first.outcome = .ok library ∧ first.settles = true ∧
      l.keeping name first = { l with libraries := (name, library) :: l.libraries }) ∨
    (∃ e, first.outcome = .error e ∧ e.kind = .libraryLoad ∧ first.settles = true ∧
      l.keeping name first = { l with failures := (name, e) :: l.failures }) ∨
    (first.settles = false ∧ l.keeping name first = l) := by
  rcases first with ⟨e | library, behind, again, opened, notes⟩
  · by_cases hkind : e.kind = .libraryLoad
    · exact .inr (.inl ⟨e, rfl, hkind, by simp [Loading.settles, hkind], if_pos hkind⟩)
    · exact .inr (.inr ⟨by simp [Loading.settles, hkind], if_neg hkind⟩)
  · exact .inl ⟨library, rfl, rfl, rfl⟩

private theorem keeping_unsettled {name : String} {first : Loading} (h : first.settles = false) :
    l.keeping name first = l := by
  rcases l.keeping_cases name first with ⟨_, -, hs, -⟩ | ⟨_, -, -, hs, -⟩ | ⟨-, hk⟩
  · simp [h] at hs
  · simp [h] at hs
  · exact hk

private theorem configuration_keeping (name : String) (first : Loading) :
    (l.keeping name first).configuration = l.configuration := by
  rcases l.keeping_cases name first with ⟨_, -, -, h⟩ | ⟨_, -, -, -, h⟩ | ⟨-, h⟩ <;> rw [h]

private theorem package_keeping (name : String) (first : Loading) :
    (l.keeping name first).package = l.package := by
  rcases l.keeping_cases name first with ⟨_, -, -, h⟩ | ⟨_, -, -, -, h⟩ | ⟨-, h⟩ <;> rw [h]

private theorem Knows.keeping {name : String} {first : Loading} (h : l.Knows name none)
    (hs : first.settles = true) : (l.keeping name first).Knows name (some first) := by
  rcases l.keeping_cases name first with
    ⟨library, houtcome, -, hk⟩ | ⟨e, houtcome, -, -, hk⟩ | ⟨hs', -⟩
  · rw [hk, Knows, houtcome]
    exact ⟨List.lookup_cons_self, h.2⟩
  · rw [hk, Knows, houtcome]
    exact ⟨h.1, List.lookup_cons_self⟩
  · simp [hs] at hs'

private theorem knows_keeping_other {name other : String} {first : Loading} (hne : name ≠ other)
    (known : Option Loading) : (l.keeping other first).Knows name known ↔ l.Knows name known := by
  have hlookup : ∀ {β : Type} (b : β) (table : List (String × β)),
      ((other, b) :: table).lookup name = table.lookup name := by
    intro β b table
    rw [List.lookup_cons, beq_eq_false_iff_ne.mpr hne]
  rcases l.keeping_cases other first with
    ⟨library, -, -, hk⟩ | ⟨e, -, -, -, hk⟩ | ⟨-, hk⟩
  · rw [hk]
    unfold Knows
    rw [hlookup]
  · rw [hk]
    unfold Knows
    rw [hlookup]
  · rw [hk]

private theorem load_of_knows {name : String} {first : Loading} (h : l.Knows name (some first))
    (host : Host) (number : Nat) : l.load host number name = (first.repeated, l) := by
  unfold Knows at h
  unfold load Loading.repeated
  cases houtcome : first.outcome with
  | ok library =>
    simp only [houtcome] at h
    rw [h.1]
  | error e =>
    simp only [houtcome] at h
    rw [h.1, h.2]

namespace Remembers

variable {before : List Request}

private theorem start (c : Configuration) (package : String) :
    Remembers c package [] { configuration := c, package } :=
  ⟨rfl, rfl, fun _ => ⟨rfl, rfl⟩⟩

private theorem load_eq (h : Remembers c package before l) {q : Request}
    (hnone : before.find? (Request.settling c package q.name) = none) :
    q.load l = (q.trial c package, l.keeping q.name (q.trial c package)) := by
  obtain ⟨hlibrary, hfailure⟩ : l.Knows q.name none := by
    simpa [hnone] using h.knows q.name
  rw [Request.load, load, hlibrary, hfailure]
  exact attempt_eq h.configuration_eq h.package_eq q

private theorem load_again (h : Remembers c package before l) {name : String} {first : Request}
    (hfirst : before.find? (Request.settling c package name) = some first)
    (host : Host) (number : Nat) :
    l.load host number name = ((first.trial c package).repeated, l) := by
  have hknows := h.knows name
  rw [hfirst] at hknows
  exact load_of_knows hknows host number

private theorem load_fst (h : Remembers c package before l) (q : Request) :
    (q.load l).1 = q.answer c package before := by
  unfold Request.answer
  cases hfind : before.find? (Request.settling c package q.name) with
  | some first => exact congrArg Prod.fst (h.load_again hfind q.host q.number)
  | none => rw [h.load_eq hfind]

private theorem load_snd (h : Remembers c package before l) {q : Request}
    (hs : (q.load l).1.settles = false) : (q.load l).2 = l := by
  cases hfind : before.find? (Request.settling c package q.name) with
  | some first => exact congrArg Prod.snd (h.load_again hfind q.host q.number)
  | none =>
    rw [h.load_eq hfind] at hs ⊢
    exact keeping_unsettled hs

private theorem one_table (h : Remembers c package before l) (name : String) :
    l.libraries.lookup name = none ∨ l.failures.lookup name = none := by
  have hknows := h.knows name
  unfold Knows at hknows
  split at hknows
  · exact .inl hknows.1
  · split at hknows
    · exact .inr hknows.2
    · exact .inl hknows.1

theorem step (h : Remembers c package before l) (q : Request) :
    Remembers c package (before ++ [q]) (q.load l).2 := by
  -- a name that is settled changes no table; any other request is a trial, and may settle its name
  cases hfind : before.find? (Request.settling c package q.name) with
  | some first =>
    have hsame : (q.load l).2 = l := congrArg Prod.snd (h.load_again hfind q.host q.number)
    rw [hsame]
    refine ⟨h.configuration_eq, h.package_eq, fun name => ?_⟩
    have hkept : (before ++ [q]).find? (Request.settling c package name) =
        before.find? (Request.settling c package name) := by
      rw [List.find?_append]
      by_cases hname : q.name = name
      · rw [← hname, hfind, Option.some_or]
      · rw [Request.find?_other hname, Option.or_none]
    rw [hkept]
    exact h.knows name
  | none =>
    rw [h.load_eq hfind]
    refine ⟨?_, ?_, fun name => ?_⟩
    · exact (configuration_keeping ..).trans h.configuration_eq
    · exact (package_keeping ..).trans h.package_eq
    · rw [List.find?_append]
      by_cases hname : q.name = name
      · subst hname
        have hknows : l.Knows q.name none := by simpa [hfind] using h.knows q.name
        rw [hfind, Option.none_or, Request.find?_self]
        cases hs : (q.trial c package).settles with
        | true => exact hknows.keeping hs
        | false => rw [keeping_unsettled hs]; exact hknows
      · rw [Request.find?_other hname, Option.or_none]
        exact (knows_keeping_other (Ne.symm hname) _).mpr (h.knows name)

private theorem loads (c : Configuration) (package : String) (requests : List Request) :
    Remembers c package requests
      (({ configuration := c, package } : Loader).loads requests).2 := by
  -- on the last request: the invariant speaks of all requests before it
  induction requests using List.reverseRecOn with
  | nil => exact start c package
  | append_singleton before q ih =>
    rw [loads_append]
    exact ih.step q

end Remembers

/-- The requests that were made to a new loader, with what they came to. -/
def history (c : Configuration) (package : String) (requests : List Request) :
    List (Request × Loading) :=
  requests.zip (({ configuration := c, package } : Loader).loads requests).1

private theorem history_append (c : Configuration) (package : String) (before : List Request)
    (q : Request) :
    history c package (before ++ [q]) =
      history c package before ++ [(q, q.answer c package before)] := by
  unfold history
  rw [loads_append, List.zip_append (length_loads _ _).symm, loads_cons,
    (Remembers.loads c package before).load_fst q]
  rfl

private theorem resolved_answer (c : Configuration) (package : String) (before : List Request)
    (q : Request) (name : String) :
    Request.resolved name (q, q.answer c package before) =
      ((before.find? (Request.settling c package name)).isNone &&
        Request.settling c package name q) := by
  by_cases hname : q.name = name
  · subst hname
    unfold Request.answer
    cases before.find? (Request.settling c package q.name) with
    | some first => simp [Request.resolved, Loading.again_repeated]
    | none => simp [Request.resolved, Request.settling, again_trial]
  · have hother : (q.name == name) = false := beq_eq_false_iff_ne.mpr hname
    simp [Request.resolved, Request.settling, hother]

/-- Of all requests for a name, the first that would settle it looked for the library and settled
it, and no other did. -/
private theorem filter_resolved_history (c : Configuration) (package name : String)
    (requests : List Request) :
    (history c package requests).filter (Request.resolved name) =
      ((requests.find? (Request.settling c package name)).map
        fun first => (first, first.trial c package)).toList := by
  induction requests using List.reverseRecOn with
  | nil => rfl
  | append_singleton before q ih =>
    have hresolved := resolved_answer c package before q name
    rw [history_append, List.filter_append, ih, List.find?_append]
    cases hfind : before.find? (Request.settling c package name) with
    | some first =>
      rw [hfind] at hresolved
      rw [List.filter_cons_of_neg (by simp [hresolved])]
      rfl
    | none =>
      rw [hfind] at hresolved
      cases hs : Request.settling c package name q with
      | true =>
        rw [List.filter_cons_of_pos (by simp [hresolved, hs]), List.find?_cons_of_pos hs]
        have hanswer : q.answer c package before = q.trial c package := by
          obtain ⟨rfl, -⟩ : q.name = name ∧ _ := by simpa [Request.settling] using hs
          simp [Request.answer, hfind]
        rw [hanswer]
        rfl
      | false =>
        rw [List.filter_cons_of_neg (by simp [hresolved, hs]), List.find?_cons_of_neg (by simp [hs])]
        rfl

end Loader

open Loader

/-- A loader settles each name once, whatever becomes of the host. Of all requests for a name, one
at most looked for the library and ended in one or in an error of loading. Every later request for
the name repeats that one and changes nothing; where there is none, a request is tried on the host
as it is. A request that ends in any other error leaves the loader as it was, no name is in both
tables, and requests for other names make no difference. -/
theorem load_settled_once (c : Configuration) (package : String) (requests : List Request)
    (q : Request) :
    let l := (({ configuration := c, package } : Loader).loads requests).2
    ((history c package requests).filter (Request.resolved q.name)).length ≤ 1 ∧
    (∀ first ∈ history c package requests, Request.resolved q.name first = true →
      first.2.Repeats (q.load l).1 ∧
        ∀ host number, l.load host number q.name = ((q.load l).1, l)) ∧
    ((∀ first ∈ history c package requests, Request.resolved q.name first = false) →
      (q.load l).1 = q.trial c package ∧
        ((q.load l).1.settles = false → (q.load l).2 = l)) ∧
    (∀ name, l.libraries.lookup name = none ∨ l.failures.lookup name = none) ∧
    ∀ requests' : List Request,
      requests'.filter (·.name == q.name) = requests.filter (·.name == q.name) →
        (q.load (({ configuration := c, package } : Loader).loads requests').2).1 =
          (q.load l).1 := by
  intro l
  have hl : Remembers c package requests l := Remembers.loads c package requests
  have hfilter := filter_resolved_history c package q.name requests
  refine ⟨?_, ?_, ?_, hl.one_table, ?_⟩
  · rw [hfilter]
    cases requests.find? (Request.settling c package q.name) with
    | none => exact Nat.zero_le 1
    | some first => exact Nat.le_refl 1
  · intro first hmem hfirst
    have hmem' := List.mem_filter.mpr ⟨hmem, hfirst⟩
    rw [hfilter, Option.mem_toList, Option.map_eq_some_iff] at hmem'
    obtain ⟨first, hfind, rfl⟩ := hmem'
    have hload := fun host number => hl.load_again hfind host number
    have hanswer : (q.load l).1 = (first.trial c package).repeated :=
      congrArg Prod.fst (hload q.host q.number)
    rw [hanswer]
    exact ⟨Loading.repeats_repeated _, hload⟩
  · intro hnone
    rw [List.filter_eq_nil_iff.mpr (by simpa using hnone)] at hfilter
    have hfind : requests.find? (Request.settling c package q.name) = none := by
      cases hfind : requests.find? (Request.settling c package q.name) with
      | none => rfl
      | some first => simp [hfind] at hfilter
    refine ⟨?_, hl.load_snd⟩
    rw [hl.load_eq hfind]
  · intro requests' hsame
    rw [(Remembers.loads c package requests').load_fst q, hl.load_fst q]
    unfold Request.answer
    rw [← Request.find?_filter requests', ← Request.find?_filter requests, hsame]

/-- A library that the host does not have at first stays missing when it has come. -/
theorem load_settled_once_missing :
    let c : Configuration := { useSystem := true }
    let bare : Host := { marker := "__init__.py", moduleSuffix := ".py" }
    let missing : Request := ⟨bare, 0, "snappy"⟩
    let later : Request :=
      ⟨{ bare with systemLibraries := [("snappy", "libsnappy.so.1")] }, 0, "snappy"⟩
    let l := (({ configuration := c, package := "native" } : Loader).loads [missing]).2
    (later.trial c "native").outcome = .ok ⟨0, "snappy", some "libsnappy.so.1", .system⟩ ∧
      (missing.trial c "native").Repeats (later.load l).1 ∧ (later.load l).2 = l := by
  intro c bare missing later l
  obtain ⟨-, hrepeat, -⟩ := load_settled_once c "native" [missing] later
  obtain ⟨hrepeats, hload⟩ :=
    hrepeat (missing, missing.trial c "native") (List.mem_singleton.mpr rfl) (by decide +kernel)
  have hsame : later.load l = ((later.load l).1, l) := hload later.host later.number
  refine ⟨by decide +kernel, hrepeats, ?_⟩
  rw [hsame]

end NativeCodec.Library
