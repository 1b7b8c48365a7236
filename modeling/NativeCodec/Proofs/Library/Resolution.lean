import NativeCodec.Library.Loader

/-!
The one file that is opened for a library.

What a library can be is a list (`candidates`): the file that is configured for it and nothing
else, or the files in the directories to search, the file that a package brings, and the library of
the system. The first of the list that is there is opened (`Opening`). What becomes of it is what
becomes of the loading, and what comes after it in the list makes no difference
(`attempt_first_candidate`).
-/

set_option autoImplicit false
set_option relaxedAutoImplicit false

namespace NativeCodec.Library

def broughtBy (h : Host) (package file : String) : Option Candidate :=
  match h.package package with
  | .directory place => some ⟨resourceAt h place file, .bundled⟩
  | _ => none

def foundBySystem (h : Host) (c : Configuration) (name : String) : Option Candidate :=
  if c.useSystem then (h.systemLibraries.lookup name).map fun path => ⟨path, .system⟩ else none

/-- What a library can be, in the order in which it is considered. -/
def candidates (h : Host) (c : Configuration) (package name : String) : List Candidate :=
  match c.overrides.lookup (Text.lower name) with
  | some path => [⟨path, .override⟩]
  | none =>
    searchCandidates h c (h.fileName name) ++
      ((broughtBy h package (h.fileName name)).toList ++ (foundBySystem h c name).toList)

/-- Whether a candidate is there; what the system finds is. -/
def Candidate.isThere (h : Host) (candidate : Candidate) : Bool :=
  candidate.origin == .system || h.isFile candidate.path

def Host.Package.error? (name : String) : Host.Package → Option Error
  | .plain => some (.notPackage name)
  | .failing e => some e
  | _ => none

/-- A package that cannot be asked would have to bring the file of a library: none is configured for
it, and none is in the directories to search. -/
structure AsksInVain (h : Host) (c : Configuration) (package name : String) (e : Error) : Prop where
  error?_eq : (h.package package).error? package = some e
  override_eq : c.overrides.lookup (Text.lower name) = none
  missing : (searchCandidates h c (h.fileName name)).find? (·.isThere h) = none

/-- What becomes of one candidate: the paths that are given to the dynamic linker, and the library
or the error. -/
inductive Opening (h : Host) (number : Nat) (name : String) (candidate : Candidate) :
    List String → Except Error Opened → Prop
  | opened (extracted : candidate.origin = .bundled → h.extractionError = none)
      (accepted : h.refused.lookup candidate.path = none) :
      Opening h number name candidate [candidate.path]
        (.ok ⟨number, name, some candidate.path, candidate.origin⟩)
  | refused {reason : String} (extracted : candidate.origin = .bundled → h.extractionError = none)
      (failed : h.refused.lookup candidate.path = some reason) :
      Opening h number name candidate [candidate.path]
        (.error (.openingFailed candidate.path reason))
  | notExtracted {reason : String} (brought : candidate.origin = .bundled)
      (failed : h.extractionError = some reason) :
      Opening h number name candidate [] (.error (.extractionFailed (Text.quote name) reason))

/-- A loading that opens the first candidate that is there, and no other whatever becomes of it, or
that ends in an error of loading if none is there. A library says which candidate it is. -/
structure OpensFirst (h : Host) (number : Nat) (name : String) (first : Option Candidate)
    (loading : Loading) : Prop where
  opening : ∀ candidate, first = some candidate →
    Opening h number name candidate loading.opened loading.outcome
  opened_eq_nil : first = none → loading.opened = []
  of_ok : ∀ library, loading.outcome = .ok library → ∃ candidate, first = some candidate ∧
    loading.opened = [candidate.path] ∧ library.path = some candidate.path ∧
    library.origin = candidate.origin
  kind_eq : ∀ e, loading.outcome = .error e → e.kind = .libraryLoad

/-- Two hosts have the same candidates for a library up to one that is there and the first on both,
and the same becomes of that one. What comes after it may be anything. -/
structure Host.SameUpTo (h h' : Host) (c : Configuration) (package name : String)
    (chosen : Candidate) : Prop where
  listed : ∃ before after after', candidates h c package name = before ++ chosen :: after ∧
    candidates h' c package name = before ++ chosen :: after' ∧
    ∀ earlier ∈ before, earlier.isThere h = false ∧ earlier.isThere h' = false
  isThere : chosen.isThere h = true ∧ chosen.isThere h' = true
  packaged : chosen.origin = .system → (h.package package).error? package = none ∧
    (h'.package package).error? package = none
  extractionError_eq : h'.extractionError = h.extractionError
  refused_eq : h'.refused.lookup chosen.path = h.refused.lookup chosen.path

variable {h h' : Host} {c : Configuration} {package name : String} {candidate : Candidate}

private theorem find?_searchCandidates (h : Host) (c : Configuration) (file : String) :
    (searchCandidates h c file).find? (fun candidate => h.isFile candidate.path) =
      (searchCandidates h c file).find? (·.isThere h) := by
  unfold searchCandidates
  rw [List.find?_map, List.find?_map]
  rfl

private theorem find?_toList (found : Option Candidate) (p : Candidate → Bool) :
    found.toList.find? p = found.filter p := by
  rw [← List.head?_filter, ← Option.toList_filter]
  cases found.filter p with
  | none => rfl
  | some candidate => rfl

private theorem bundled_eq {file : String} (hnone : (h.package package).error? package = none) :
    bundled h package file = .ok ((broughtBy h package file).filter (·.isThere h)) := by
  unfold bundled broughtBy
  cases hpackage : h.package package with
  | absent => rfl
  | directory place =>
    have hthere : (⟨resourceAt h place file, .bundled⟩ : Candidate).isThere h =
        h.isFile (resourceAt h place file) := Bool.false_or _
    dsimp only
    rw [Option.filter_some, hthere]
  | plain =>
    rw [hpackage] at hnone
    exact absurd hnone (by simp [Host.Package.error?])
  | failing e =>
    rw [hpackage] at hnone
    exact absurd hnone (by simp [Host.Package.error?])

private theorem bundled_eq_error {file : String} {e : Error}
    (herror : (h.package package).error? package = some e) :
    bundled h package file = .error e ∧ broughtBy h package file = none := by
  unfold bundled broughtBy
  cases hpackage : h.package package with
  | absent =>
    rw [hpackage] at herror
    exact absurd herror (by simp [Host.Package.error?])
  | directory place =>
    rw [hpackage] at herror
    exact absurd herror (by simp [Host.Package.error?])
  | plain =>
    rw [hpackage] at herror
    exact ⟨congrArg Except.error (Option.some.inj herror), rfl⟩
  | failing e' =>
    rw [hpackage] at herror
    exact ⟨congrArg Except.error (Option.some.inj herror), rfl⟩

private theorem systemCandidate_eq (h : Host) (c : Configuration) (name missing : String) :
    match foundBySystem h c name with
    | some candidate => systemCandidate h c name missing = .ok candidate
    | none => ∃ e, systemCandidate h c name missing = .error e ∧ e.kind = .libraryLoad := by
  unfold foundBySystem systemCandidate
  by_cases huse : c.useSystem = true
  · rw [if_pos huse, if_pos huse]
    cases h.systemLibraries.lookup name with
    | none => exact ⟨_, rfl, rfl⟩
    | some path => rfl
  · rw [if_neg huse, if_neg huse]
    exact ⟨_, rfl, rfl⟩

private theorem origin_of_foundBySystem (hfound : foundBySystem h c name = some candidate) :
    candidate.origin = .system := by
  unfold foundBySystem at hfound
  by_cases huse : c.useSystem = true
  · rw [if_pos huse] at hfound
    obtain ⟨path, -, rfl⟩ := Option.map_eq_some_iff.mp hfound
    rfl
  · rw [if_neg huse] at hfound
    exact absurd hfound (by simp)

private theorem isThere_of_foundBySystem (hfound : foundBySystem h c name = some candidate) :
    candidate.isThere h = true := by
  unfold Candidate.isThere
  rw [origin_of_foundBySystem hfound]
  rfl

private theorem not_asksInVain {e : Error} (hmem : candidate ∈ candidates h c package name)
    (hthere : candidate.isThere h = true)
    (hsystem : candidate.origin = .system → (h.package package).error? package = none) :
    ¬AsksInVain h c package name e := by
  intro ha
  unfold candidates at hmem
  rw [ha.override_eq, (bundled_eq_error ha.error?_eq).2] at hmem
  rcases List.mem_append.mp hmem with hsearch | hfound
  · exact List.find?_eq_none.mp ha.missing candidate hsearch hthere
  · have horigin := origin_of_foundBySystem (Option.mem_toList.mp hfound)
    exact absurd (ha.error?_eq.symm.trans (hsystem horigin)) (by simp)

private theorem choose_of_asksInVain {e : Error} (ha : AsksInVain h c package name e) :
    choose h c package name = .error e := by
  have hoverride : c.overrideFor name = none := ha.override_eq
  unfold choose
  rw [hoverride]
  dsimp only
  rw [find?_searchCandidates, ha.missing, (bundled_eq_error ha.error?_eq).1]

private theorem choose_eq_first (ha : ∀ e, ¬AsksInVain h c package name e) :
    match (candidates h c package name).find? (·.isThere h) with
    | some candidate => choose h c package name = .ok candidate
    | none => ∃ e, choose h c package name = .error e ∧ e.kind = .libraryLoad := by
  unfold candidates choose Configuration.overrideFor
  cases hoverride : c.overrides.lookup (Text.lower name) with
  | some path =>
    have hthere : (⟨path, .override⟩ : Candidate).isThere h = h.isFile path := rfl
    dsimp only
    cases hfile : h.isFile path with
    | true =>
      rw [List.find?_cons_of_pos (hthere.trans hfile)]
      rfl
    | false =>
      rw [List.find?_cons_of_neg (by simp [hthere, hfile])]
      exact ⟨_, rfl, rfl⟩
  | none =>
    dsimp only
    rw [List.find?_append, find?_searchCandidates]
    cases hsearch : (searchCandidates h c (h.fileName name)).find? (·.isThere h) with
    | some candidate => rfl
    | none =>
      have hnone : (h.package package).error? package = none :=
        Option.eq_none_iff_forall_ne_some.mpr fun e he => ha e ⟨he, hoverride, hsearch⟩
      rw [Option.none_or, List.find?_append, find?_toList, bundled_eq hnone]
      cases (broughtBy h package (h.fileName name)).filter (·.isThere h) with
      | some candidate => rfl
      | none =>
        rw [Option.none_or]
        have hsystem :=
          systemCandidate_eq h c name (resourcePath h package (h.fileName name))
        cases hfound : foundBySystem h c name with
        | none =>
          rw [hfound] at hsystem
          exact hsystem
        | some candidate =>
          rw [hfound] at hsystem
          rw [Option.toList_some, List.find?_cons_of_pos (isThere_of_foundBySystem hfound)]
          exact hsystem

namespace Opening

variable {number : Nat} {opened : List String} {outcome : Except Error Opened}

private theorem of_openCandidate (h : Host) (number : Nat) (name : String) (candidate : Candidate) :
    Opening h number name candidate (openCandidate h name candidate).1
      ((openCandidate h name candidate).2.map fun candidate =>
        ⟨number, name, some candidate.path, candidate.origin⟩) := by
  have hlinked (hextracted : candidate.origin = .bundled → h.extractionError = none) :
      openCandidate h name candidate = match h.refused.lookup candidate.path with
        | some reason => ([candidate.path], .error (.openingFailed candidate.path reason))
        | none => ([candidate.path], .ok candidate) := by
    unfold openCandidate
    split
    · next reason horigin hreason =>
      rw [hextracted horigin] at hreason
      exact absurd hreason (by simp)
    · rfl
  by_cases hextracted : candidate.origin = .bundled → h.extractionError = none
  · rw [hlinked hextracted]
    cases hrefused : h.refused.lookup candidate.path with
    | none => exact .opened hextracted hrefused
    | some reason => exact .refused hextracted hrefused
  · obtain ⟨horigin, herror⟩ := Classical.not_imp.mp hextracted
    obtain ⟨reason, hreason⟩ := Option.ne_none_iff_exists'.mp herror
    unfold openCandidate
    rw [horigin, hreason]
    exact .notExtracted horigin hreason

private theorem length_le_one (ho : Opening h number name candidate opened outcome) :
    opened.length ≤ 1 := by
  cases ho with
  | opened => exact Nat.le_refl 1
  | refused => exact Nat.le_refl 1
  | notExtracted => exact Nat.zero_le 1

private theorem kind_eq {e : Error} (ho : Opening h number name candidate opened (.error e)) :
    e.kind = .libraryLoad := by
  cases ho with
  | refused => rfl
  | notExtracted => rfl

private theorem names_candidate {library : Opened}
    (ho : Opening h number name candidate opened (.ok library)) :
    opened = [candidate.path] ∧ library.path = some candidate.path ∧
      library.origin = candidate.origin := by
  cases ho with
  | opened => exact ⟨rfl, rfl, rfl⟩

private theorem eq_of_refused {reason : String}
    (ho : Opening h number name candidate opened outcome) (hbundled : candidate.origin ≠ .bundled)
    (hrefused : h.refused.lookup candidate.path = some reason) :
    opened = [candidate.path] ∧ outcome = .error (.openingFailed candidate.path reason) := by
  cases ho with
  | opened _ haccepted => exact absurd (haccepted.symm.trans hrefused) (by simp)
  | refused _ hfailed =>
    rw [Option.some.inj (hfailed.symm.trans hrefused)]
    exact ⟨rfl, rfl⟩
  | notExtracted hbrought => exact absurd hbrought hbundled

end Opening

namespace Loader

variable {l : Loader} {number : Nat}

private theorem opened_attempt (l : Loader) (h : Host) (number : Nat) (name : String) :
    (l.attempt h number name).1.opened = (resolve h l.configuration l.package name).1 := by
  unfold attempt
  rcases resolve h l.configuration l.package name with ⟨opened, e | candidate⟩
  · dsimp only
    split
    · rfl
    · rfl
  · rfl

private theorem outcome_attempt (l : Loader) (h : Host) (number : Nat) (name : String) :
    (l.attempt h number name).1.outcome =
      (resolve h l.configuration l.package name).2.map fun candidate =>
        ⟨number, name, some candidate.path, candidate.origin⟩ := by
  unfold attempt
  rcases resolve h l.configuration l.package name with ⟨opened, e | candidate⟩
  · dsimp only
    split
    · rfl
    · rfl
  · rfl

private theorem attempt_congr
    (hsame : resolve h' l.configuration l.package name =
      resolve h l.configuration l.package name) :
    l.attempt h' number name = l.attempt h number name := by
  unfold attempt
  rw [hsame]

private theorem attempt_of_choose (number : Nat)
    (hchoose : choose h l.configuration l.package name = .ok candidate) :
    Opening h number name candidate (l.attempt h number name).1.opened
      (l.attempt h number name).1.outcome := by
  have hresolve : resolve h l.configuration l.package name = openCandidate h name candidate := by
    unfold resolve
    rw [hchoose]
  rw [opened_attempt, outcome_attempt, hresolve]
  exact Opening.of_openCandidate h number name candidate

private theorem attempt_of_choose_error (number : Nat) {e : Error}
    (hchoose : choose h l.configuration l.package name = .error e) :
    (l.attempt h number name).1.opened = [] ∧ (l.attempt h number name).1.outcome = .error e := by
  have hresolve : resolve h l.configuration l.package name = ([], .error e) := by
    unfold resolve
    rw [hchoose]
  rw [opened_attempt, outcome_attempt, hresolve]
  exact ⟨rfl, rfl⟩

private theorem attempt_cases (number : Nat)
    (ha : ∀ e, ¬AsksInVain h l.configuration l.package name e) :
    (∃ candidate,
      (candidates h l.configuration l.package name).find? (·.isThere h) = some candidate ∧
        Opening h number name candidate (l.attempt h number name).1.opened
          (l.attempt h number name).1.outcome) ∨
    ((candidates h l.configuration l.package name).find? (·.isThere h) = none ∧
      (l.attempt h number name).1.opened = [] ∧
      ∃ e, (l.attempt h number name).1.outcome = .error e ∧ e.kind = .libraryLoad) := by
  have hchoose := choose_eq_first ha
  cases hfirst : (candidates h l.configuration l.package name).find? (·.isThere h) with
  | some candidate =>
    rw [hfirst] at hchoose
    exact Or.inl ⟨candidate, rfl, attempt_of_choose number hchoose⟩
  | none =>
    rw [hfirst] at hchoose
    obtain ⟨e, he, hkind⟩ := hchoose
    obtain ⟨hopened, houtcome⟩ := attempt_of_choose_error number he
    exact Or.inr ⟨rfl, hopened, e, houtcome, hkind⟩

end Loader

private theorem Host.SameUpTo.first (hs : h.SameUpTo h' c package name candidate) :
    (candidates h c package name).find? (·.isThere h) = some candidate ∧
      (candidates h' c package name).find? (·.isThere h') = some candidate := by
  obtain ⟨before, after, after', hlist, hlist', hbefore⟩ := hs.listed
  have hnone : before.find? (·.isThere h) = none :=
    List.find?_eq_none.mpr fun earlier hmem => by simp [(hbefore earlier hmem).1]
  have hnone' : before.find? (·.isThere h') = none :=
    List.find?_eq_none.mpr fun earlier hmem => by simp [(hbefore earlier hmem).2]
  rw [hlist, hlist', List.find?_append, List.find?_append, hnone, hnone', Option.none_or,
    Option.none_or, List.find?_cons_of_pos hs.isThere.1, List.find?_cons_of_pos hs.isThere.2]
  exact ⟨rfl, rfl⟩

private theorem Host.SameUpTo.not_asksInVain (hs : h.SameUpTo h' c package name candidate) :
    (∀ e, ¬AsksInVain h c package name e) ∧ ∀ e, ¬AsksInVain h' c package name e := by
  have hmem := List.mem_of_find?_eq_some hs.first.1
  have hmem' := List.mem_of_find?_eq_some hs.first.2
  constructor
  · exact fun e => Library.not_asksInVain hmem hs.isThere.1 fun horigin => (hs.packaged horigin).1
  · exact fun e => Library.not_asksInVain hmem' hs.isThere.2 fun horigin => (hs.packaged horigin).2

private theorem Host.SameUpTo.resolve_eq (hs : h.SameUpTo h' c package name candidate) :
    resolve h' c package name = resolve h c package name := by
  have hchoose := choose_eq_first hs.not_asksInVain.1
  have hchoose' := choose_eq_first hs.not_asksInVain.2
  rw [hs.first.1] at hchoose
  rw [hs.first.2] at hchoose'
  unfold resolve
  rw [hchoose, hchoose']
  change openCandidate h' name candidate = openCandidate h name candidate
  unfold openCandidate
  rw [hs.extractionError_eq, hs.refused_eq]

private theorem OpensFirst.of_opening {number : Nat} {loading : Loading}
    (ho : Opening h number name candidate loading.opened loading.outcome) :
    OpensFirst h number name (some candidate) loading where
  opening candidate' hcandidate := by
    rw [← Option.some.inj hcandidate]
    exact ho
  opened_eq_nil hnone := absurd hnone (by simp)
  of_ok library hlibrary := by
    rw [hlibrary] at ho
    exact ⟨candidate, rfl, ho.names_candidate⟩
  kind_eq e he := by
    rw [he] at ho
    exact ho.kind_eq

private theorem OpensFirst.of_error {number : Nat} {loading : Loading} {e : Error}
    (hopened : loading.opened = []) (houtcome : loading.outcome = .error e)
    (hkind : e.kind = .libraryLoad) : OpensFirst h number name none loading where
  opening candidate' hcandidate := absurd hcandidate (by simp)
  opened_eq_nil _ := hopened
  of_ok library hlibrary := absurd (houtcome.symm.trans hlibrary) (by simp)
  kind_eq e' he' := by
    rw [← Except.error.inj (houtcome.symm.trans he')]
    exact hkind

end NativeCodec.Library
