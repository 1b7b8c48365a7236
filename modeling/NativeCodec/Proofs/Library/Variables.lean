import Mathlib.Data.List.Induction
import Mathlib.Data.String.Basic
import NativeCodec.Library.Configuration

/-!
The variables that configure loading.

A variable gives the file of a library if it has a value, and its name is the stem, the name of the
library in letters of any case, and the ending (`GivesFile`). Of the files for one library the last
counts (`overrideFor_eq_some_iff`). The directories to search are the pieces of one other variable
(`searchPaths_of_joins`). Nothing else is read but the leave to use libraries of the system
(`variables_read_exactly`).
-/

set_option autoImplicit false
set_option relaxedAutoImplicit false

namespace NativeCodec

namespace Text

open String

private theorem splitOnAux_singleton (c : Char) (l m r : List Char) (acc : List String) :
    splitOnAux (ofList (l ++ m ++ r)) (singleton c) ⟨utf8Len l⟩ ⟨utf8Len (l ++ m)⟩ 0 acc =
      acc.reverse ++ (List.splitOnPPrepend (· == c) r m.reverse).map ofList := by
  have hfirst : Pos.Raw.get (singleton c) 0 = c := get_of_valid [] [c]
  have hnext : Pos.Raw.next (singleton c) 0 = ⟨utf8Len [c]⟩ := next_of_valid [] c []
  have hend : Pos.Raw.atEnd (singleton c) ⟨utf8Len [c]⟩ = true := (atEnd_of_valid [c] []).mpr rfl
  have hpiece (l m r : List Char) :
      Pos.Raw.extract (ofList (l ++ m ++ r)) ⟨utf8Len l⟩ ⟨utf8Len (l ++ m)⟩ = ofList m := by
    rw [utf8Len_append]
    exact extract_of_valid l m r
  -- `l` is behind the last cut, `m` is the piece so far, and `r` is ahead
  induction r generalizing l m acc with
  | nil =>
    have hlast : List.splitOnPPrepend (· == c) [] m.reverse = [m] := by simp
    rw [splitOnAux, if_pos ((atEnd_of_valid (l ++ m) []).mpr rfl), hpiece, hlast,
      List.reverse_cons]
    rfl
  | cons d r ih =>
    have hmore : ¬Pos.Raw.atEnd (ofList (l ++ m ++ d :: r)) ⟨utf8Len (l ++ m)⟩ = true := by
      rw [atEnd_of_valid]
      exact List.cons_ne_nil d r
    have hchar : Pos.Raw.get (ofList (l ++ m ++ d :: r)) ⟨utf8Len (l ++ m)⟩ = d :=
      get_of_valid (l ++ m) (d :: r)
    have hstep : Pos.Raw.next (ofList (l ++ m ++ d :: r)) ⟨utf8Len (l ++ m)⟩ =
        ⟨utf8Len (l ++ m ++ [d])⟩ := by
      rw [next_of_valid, utf8Len_append _ [d]]
      simp
    rw [splitOnAux, if_neg hmore, hfirst, hchar, List.splitOnPPrepend_cons_eq_if]
    by_cases hd : d = c
    · subst hd
      have hback : Pos.Raw.unoffsetBy ⟨utf8Len (l ++ m ++ [d])⟩ ⟨utf8Len [d]⟩ =
          ⟨utf8Len (l ++ m)⟩ := by
        rw [utf8Len_append _ [d]]
        simp [Pos.Raw.unoffsetBy]
      have hrest := ih (l ++ m ++ [d]) [] (ofList m :: acc)
      rw [List.append_nil, List.append_assoc _ [d] r, List.singleton_append, List.reverse_nil,
        ← List.splitOnP_eq_splitOnPPrepend] at hrest
      rw [if_pos (beq_self_eq_true d), if_pos (beq_self_eq_true d), hnext, hstep, if_pos hend,
        hback, hpiece, hrest, List.reverse_reverse, List.map_cons, List.reverse_cons,
        List.append_assoc, List.singleton_append]
    · have hne : ¬(d == c) = true := by simpa using hd
      have hback : Pos.Raw.unoffsetBy ⟨utf8Len (l ++ m)⟩ 0 = ⟨utf8Len (l ++ m)⟩ := by
        simp [Pos.Raw.unoffsetBy]
      have hrest := ih l (m ++ [d]) acc
      rw [← List.append_assoc l m [d], List.append_assoc _ [d] r, List.singleton_append,
        List.reverse_concat] at hrest
      rw [if_neg hne, if_neg hne, hback, hstep, hrest]

private theorem splitOn_singleton (text : String) (c : Char) :
    text.splitOn (singleton c) = (text.toList.splitOn c).map ofList := by
  have hne : ¬(singleton c == "") = true := by simp
  have haux := splitOnAux_singleton c [] [] text.toList []
  rw [List.nil_append, List.nil_append, String.ofList_toList, List.reverse_nil, List.reverse_nil,
    List.nil_append, ← List.splitOnP_eq_splitOnPPrepend] at haux
  unfold String.splitOn
  rw [if_neg hne]
  exact haux

private theorem not_mem_of_mem_splitOn {c : Char} {piece : List Char} {text : List Char}
    (h : piece ∈ text.splitOn c) : c ∉ piece := by
  induction text generalizing piece with
  | nil =>
    rw [List.splitOn_nil, List.mem_singleton] at h
    rw [h]
    exact List.not_mem_nil
  | cons d rest ih =>
    rw [List.splitOn_cons_eq_if_modifyHead] at h
    split at h
    · rcases List.mem_cons.mp h with rfl | hrest
      · exact List.not_mem_nil
      · exact ih hrest
    · next hd =>
      obtain ⟨first, others, hcut⟩ := List.exists_cons_of_ne_nil (List.splitOn_ne_nil c rest)
      rw [hcut] at h ih
      rcases List.mem_cons.mp h with rfl | hothers
      · have hne : c ≠ d := fun heq => hd (beq_iff_eq.mpr heq.symm)
        exact List.not_mem_cons_of_ne_of_not_mem hne (ih List.mem_cons_self)
      · exact ih (List.mem_cons_of_mem first hothers)

/-- A text is made of pieces, empty ones among them, with a separator between each two. -/
structure Joins (separator : Char) (pieces : List String) (text : String) : Prop where
  apart : ∀ piece ∈ pieces, separator ∉ piece.toList
  joined : text = (singleton separator).intercalate pieces

variable {separator : Char} {pieces : List String} {text : String}

private theorem toList_comp_ofList : String.toList ∘ String.ofList = id :=
  funext fun _ => String.toList_ofList

private theorem ofList_comp_toList : String.ofList ∘ String.toList = id :=
  funext fun _ => String.ofList_toList

private theorem joins_splitOn (separator : Char) (text : String) :
    Joins separator (text.splitOn (singleton separator)) text where
  apart piece hmem := by
    rw [splitOn_singleton] at hmem
    obtain ⟨chars, hchars, rfl⟩ := List.mem_map.mp hmem
    rw [String.toList_ofList]
    exact not_mem_of_mem_splitOn hchars
  joined := by
    rw [← String.toList_inj, String.toList_intercalate, splitOn_singleton, List.map_map,
      toList_comp_ofList, List.map_id, String.toList_singleton, List.intercalate_splitOn]

private theorem Joins.filter_splitOn (h : Joins separator pieces text) :
    (text.splitOn (singleton separator)).filter (!·.isEmpty) = pieces.filter (!·.isEmpty) := by
  rw [h.joined, splitOn_singleton, String.toList_intercalate, String.toList_singleton]
  cases pieces with
  | nil => simp [List.intercalate]
  | cons piece rest =>
    have hne : (piece :: rest).map String.toList ≠ [] := List.cons_ne_nil _ _
    have hapart : ∀ chars ∈ (piece :: rest).map String.toList, separator ∉ chars := by
      intro chars hmem
      obtain ⟨piece, hpiece, rfl⟩ := List.mem_map.mp hmem
      exact h.apart piece hpiece
    rw [List.splitOn_intercalate separator hapart hne, List.map_map, ofList_comp_toList, List.map_id]

end Text

namespace Environment

variable {e : Environment} {name key value : String}

private theorem lookup_set (e : Environment) (name value key : String) :
    (e.set name value).lookup key = if key = name then some value else e.lookup key := by
  induction e with
  | nil =>
    rw [set, List.lookup_singleton]
    simp
  | cons entry rest ih =>
    obtain ⟨n, v⟩ := entry
    unfold set
    by_cases hn : n = name
    · subst hn
      rw [if_pos rfl, List.lookup_cons, List.lookup_cons]
      by_cases hkey : key = n
      · simp [hkey]
      · simp [hkey, beq_eq_false_iff_ne.mpr hkey]
    · rw [if_neg hn, List.lookup_cons, List.lookup_cons, ih]
      by_cases hkey : key = n
      · simp [hkey, hn]
      · simp [beq_eq_false_iff_ne.mpr hkey]

private theorem ofPairs_concat (pairs : List (String × String)) (name value : String) :
    ofPairs (pairs ++ [(name, value)]) = (ofPairs pairs).set name value := by
  unfold ofPairs
  rw [List.foldl_append]
  rfl

private theorem value_of_mem (h : (e.map Prod.fst).Nodup) (hmem : (name, value) ∈ e) :
    e.value name = value := by
  obtain ⟨before, after, rfl⟩ := List.append_of_mem hmem
  have hlookup : (before ++ (name, value) :: after).lookup name = some value := by
    refine List.lookup_eq_some_iff.mpr ⟨before, after, rfl, fun entry hentry => ?_⟩
    rw [List.map_append, List.nodup_append] at h
    have hne := h.2.2 entry.1 (List.mem_map_of_mem hentry) name List.mem_cons_self
    exact bne_iff_ne.mpr hne.symm
  rw [Environment.value, hlookup, Option.getD_some]

private theorem value_of_not_mem (h : name ∉ e.map Prod.fst) : e.value name = "" := by
  have hlookup : e.lookup name = none := by
    refine List.lookup_eq_none_iff.mpr fun entry hentry => ?_
    refine bne_iff_ne.mpr fun heq => h ?_
    rw [heq]
    exact List.mem_map_of_mem hentry
  rw [Environment.value, hlookup, Option.getD_none]

end Environment

namespace Library.Configuration

variable {stem name file key library : String} {e : Environment}

/-- An entry gives the file of a library: it has a value, and its name is the stem, the name of the
library in letters of any case, and the ending. The variable that lets libraries of the system be
used has the same ending and gives none. -/
structure GivesFile (stem name : String) (entry : String × String) : Prop where
  valued : entry.2 ≠ ""
  named : ∃ inner, inner ≠ "" ∧ entry.1 = stem ++ inner ++ fileSuffix ∧
    Text.lower inner = Text.lower name
  notSystem : entry.1 ≠ stem ++ systemVariable

/-- The last entry that gives the file of a library gives this one. -/
def LastGives (stem name file : String) (e : Environment) : Prop :=
  ∃ before key after, e = before ++ (key, file) :: after ∧ GivesFile stem name (key, file) ∧
    ∀ entry ∈ after, ¬GivesFile stem name entry

/-- What stands between the beginning and the end of a list that starts with the one and ends in the
other, so far as they leave room for it. -/
private theorem between_eq {first last whole inner : List Char} (hne : inner ≠ [])
    (hfirst : first <+: whole) (hlast : last <:+ whole) :
    (whole.take (whole.length - last.length)).drop first.length = inner ↔
      whole = first ++ inner ++ last := by
  obtain ⟨init, rfl⟩ := hlast
  have hinit : (init ++ last).length - last.length = init.length := by
    rw [List.length_append, Nat.add_sub_cancel]
  rw [hinit, List.take_left]
  constructor
  · rintro rfl
    have hle : first.length ≤ init.length := by
      by_contra hlt
      exact hne (List.drop_eq_nil_of_le (Nat.le_of_not_le hlt))
    have hprefix : first <+: init :=
      List.prefix_of_prefix_length_le hfirst (List.prefix_append init last) hle
    obtain ⟨rest, rfl⟩ := hprefix
    rw [List.drop_left]
  · intro hwhole
    rw [List.append_cancel_right hwhole, List.drop_left]

private theorem libraryOf?_eq_some_iff :
    libraryOf? stem key = some library ↔
      ∃ inner, inner ≠ "" ∧ key = stem ++ inner ++ fileSuffix ∧ key ≠ stem ++ systemVariable ∧
        Text.lower inner = library := by
  have hsystem :
      key.toList ≠ stem.toList ++ systemVariable.toList ↔ key ≠ stem ++ systemVariable := by
    rw [← String.toList_append, ne_eq, String.toList_inj]
  have hkey (inner : List Char) :
      key.toList = stem.toList ++ inner ++ fileSuffix.toList ↔
        key = stem ++ String.ofList inner ++ fileSuffix := by
    rw [← String.toList_inj, String.toList_append, String.toList_append, String.toList_ofList]
  unfold libraryOf?
  dsimp only
  constructor
  · intro h
    rw [Option.ite_none_right_eq_some, Bool.and_eq_true, Bool.and_eq_true, List.isPrefixOf_iff_prefix,
      List.isSuffixOf_iff_suffix, bne_iff_ne] at h
    obtain ⟨⟨⟨hstem, hsuffix⟩, hother⟩, h⟩ := h
    rw [Option.ite_none_left_eq_some, List.isEmpty_iff] at h
    obtain ⟨hne, h⟩ := h
    refine ⟨_, ?_, (hkey _).mp ((between_eq hne hstem hsuffix).mp rfl), hsystem.mp hother,
      Option.some.inj h⟩
    intro hempty
    exact hne (String.ofList_eq_empty_iff.mp hempty)
  · rintro ⟨inner, hne, hwhole, hother, rfl⟩
    have hlist : key.toList = stem.toList ++ inner.toList ++ fileSuffix.toList := by
      rw [hkey, String.ofList_toList]
      exact hwhole
    have hstem : stem.toList <+: key.toList := by
      rw [hlist, List.append_assoc]
      exact List.prefix_append _ _
    have hsuffix : fileSuffix.toList <:+ key.toList := by
      rw [hlist]
      exact List.suffix_append _ _
    have hinner : inner.toList ≠ [] := fun hnil => hne (String.toList_eq_nil_iff.mp hnil)
    have hbetween := (between_eq hinner hstem hsuffix).mpr hlist
    rw [if_pos, hbetween, if_neg, String.ofList_toList]
    · rw [List.isEmpty_iff]
      exact hinner
    · rw [Bool.and_eq_true, Bool.and_eq_true, List.isPrefixOf_iff_prefix,
        List.isSuffixOf_iff_suffix, bne_iff_ne]
      exact ⟨⟨hstem, hsuffix⟩, hsystem.mpr hother⟩

private theorem filesOf_concat (stem : String) (e : Environment) (entry : String × String) :
    filesOf stem (e ++ [entry]) = filesOf stem e ++ filesOf stem [entry] :=
  List.filterMap_append

private theorem filesOf_singleton {entry : String × String} (h : GivesFile stem name entry) :
    filesOf stem [entry] = [(Text.lower name, entry.2)] := by
  obtain ⟨inner, hne, hkey, hname⟩ := h.named
  have hlibrary : libraryOf? stem entry.1 = some (Text.lower name) :=
    libraryOf?_eq_some_iff.mpr ⟨inner, hne, hkey, h.notSystem, hname⟩
  have hvalued : ¬entry.2.isEmpty = true := by
    rw [String.isEmpty_iff]
    exact h.valued
  simp only [filesOf, List.filterMap_cons, List.filterMap_nil, hlibrary, if_neg hvalued,
    Option.map_some]

private theorem givesFile_of_mem_filesOf {entry given : String × String}
    (h : given ∈ filesOf stem [entry]) :
    ∃ name, GivesFile stem name entry ∧ Text.lower name = given.1 := by
  obtain ⟨entry', hentry, hgiven⟩ := List.mem_filterMap.mp h
  obtain rfl := List.mem_singleton.mp hentry
  dsimp only at hgiven
  rw [Option.ite_none_left_eq_some, String.isEmpty_iff] at hgiven
  obtain ⟨hvalued, hgiven⟩ := hgiven
  obtain ⟨library, hlibrary, rfl⟩ := Option.map_eq_some_iff.mp hgiven
  obtain ⟨inner, hne, hkey, hother, hlower⟩ := libraryOf?_eq_some_iff.mp hlibrary
  exact ⟨inner, ⟨hvalued, ⟨inner, hne, hkey, rfl⟩, hother⟩, hlower⟩

private theorem GivesFile.of_lower_eq {entry : String × String} {name' : String}
    (h : GivesFile stem name entry) (hlower : Text.lower name = Text.lower name') :
    GivesFile stem name' entry := by
  obtain ⟨inner, hne, hkey, hname⟩ := h.named
  exact ⟨h.valued, ⟨inner, hne, hkey, hname.trans hlower⟩, h.notSystem⟩

section Overrides

variable {separator : String}

private theorem overrideFor_concat (stem separator name : String) (e : Environment)
    (entry : String × String) :
    (GivesFile stem name entry →
      (ofEnvironment stem separator (e ++ [entry])).overrideFor name = some entry.2) ∧
    (¬GivesFile stem name entry →
      (ofEnvironment stem separator (e ++ [entry])).overrideFor name =
        (ofEnvironment stem separator e).overrideFor name) := by
  have hoverride (e : Environment) : (ofEnvironment stem separator e).overrideFor name =
      (Environment.ofPairs (filesOf stem e)).lookup (Text.lower name) := rfl
  rw [hoverride, hoverride, filesOf_concat]
  constructor
  · intro h
    rw [filesOf_singleton h, Environment.ofPairs_concat, Environment.lookup_set, if_pos rfl]
  · intro h
    cases hgiven : filesOf stem [entry] with
    | nil => rw [List.append_nil]
    | cons given rest =>
      have hrest : rest = [] := by
        have hle : (filesOf stem [entry]).length ≤ 1 := List.length_filterMap_le _ [entry]
        rw [hgiven, List.length_cons] at hle
        exact List.length_eq_zero_iff.mp (by omega)
      have hne : Text.lower name ≠ given.1 := by
        intro heq
        obtain ⟨other, hother, hlower⟩ :=
          givesFile_of_mem_filesOf (by rw [hgiven]; exact List.mem_cons_self)
        exact h (hother.of_lower_eq (hlower.trans heq.symm))
      rw [hrest, Environment.ofPairs_concat, Environment.lookup_set, if_neg hne]

private theorem concat_cases {α : Type} {list before after : List α} {last x : α}
    (h : list ++ [last] = before ++ x :: after) :
    (last = x ∧ after = []) ∨
      ∃ after', after = after' ++ [last] ∧ list = before ++ x :: after' := by
  rcases List.eq_nil_or_concat after with rfl | ⟨after', other, rfl⟩
  · exact Or.inl ⟨List.singleton_inj.mp (List.append_inj_right' h rfl), rfl⟩
  · rw [List.concat_eq_append, ← List.cons_append, ← List.append_assoc] at h
    obtain ⟨hlist, hlast⟩ := List.append_inj' h rfl
    exact Or.inr ⟨after', by rw [List.concat_eq_append, List.singleton_inj.mp hlast], hlist⟩

private theorem lastGives_concat (stem name file : String) (e : Environment)
    (entry : String × String) :
    (GivesFile stem name entry → (LastGives stem name file (e ++ [entry]) ↔ entry.2 = file)) ∧
    (¬GivesFile stem name entry →
      (LastGives stem name file (e ++ [entry]) ↔ LastGives stem name file e)) := by
  constructor
  · intro h
    constructor
    · rintro ⟨before, key, after, he, -, hafter⟩
      rcases concat_cases he with ⟨rfl, -⟩ | ⟨after', rfl, -⟩
      · rfl
      · exact absurd h (hafter entry (by simp))
    · rintro rfl
      exact ⟨e, entry.1, [], rfl, h, fun _ hmem => absurd hmem List.not_mem_nil⟩
  · intro h
    constructor
    · rintro ⟨before, key, after, he, hgives, hafter⟩
      rcases concat_cases he with ⟨rfl, -⟩ | ⟨after', rfl, rfl⟩
      · exact absurd hgives h
      · exact ⟨before, key, after', rfl, hgives, fun other hother =>
          hafter other (List.mem_append_left _ hother)⟩
    · rintro ⟨before, key, after, rfl, hgives, hafter⟩
      exact ⟨before, key, after ++ [entry], by simp, hgives,
        List.forall_mem_append.mpr ⟨hafter, List.forall_mem_singleton.mpr h⟩⟩

theorem overrideFor_eq_some_iff (stem separator name file : String) (e : Environment) :
    (ofEnvironment stem separator e).overrideFor name = some file ↔ LastGives stem name file e := by
  induction e using List.reverseRecOn with
  | nil =>
    have hnone : (ofEnvironment stem separator []).overrideFor name = none := rfl
    rw [hnone]
    constructor
    · intro h
      exact absurd h (by simp)
    · rintro ⟨before, key, after, he, -⟩
      exact absurd he (by simp)
  | append_singleton e entry ih =>
    obtain ⟨hgives, hother⟩ := overrideFor_concat stem separator name e entry
    obtain ⟨hlast, hsame⟩ := lastGives_concat stem name file e entry
    by_cases h : GivesFile stem name entry
    · rw [hgives h, hlast h, Option.some.injEq]
    · rw [hother h, hsame h, ih]

private theorem overrideFor_eq_none_iff (stem separator name : String) (e : Environment) :
    (ofEnvironment stem separator e).overrideFor name = none ↔
      ∀ entry ∈ e, ¬GivesFile stem name entry := by
  induction e using List.reverseRecOn with
  | nil => exact ⟨fun _ _ hmem => absurd hmem List.not_mem_nil, fun _ => rfl⟩
  | append_singleton e entry ih =>
    obtain ⟨hgives, hother⟩ := overrideFor_concat stem separator name e entry
    by_cases h : GivesFile stem name entry
    · rw [hgives h]
      exact ⟨fun hnone => absurd hnone (by simp), fun hall => absurd h (hall entry (by simp))⟩
    · rw [hother h, ih, List.forall_mem_append, List.forall_mem_singleton, and_iff_left h]

private theorem not_givesFile (stem name value : String) :
    ¬GivesFile stem name (stem ++ "LIBRARY", value) ∧
      ¬GivesFile stem name (stem ++ fileSuffix, value) ∧
      ¬GivesFile stem name (stem ++ pathVariable, value) := by
  have hrest {rest : String} (h : GivesFile stem name (stem ++ rest, value)) :
      ∃ inner, inner ≠ "" ∧ rest.toList = inner.toList ++ fileSuffix.toList := by
    obtain ⟨inner, hne, hkey, -⟩ := h.named
    refine ⟨inner, hne, ?_⟩
    rw [← String.toList_inj, String.append_assoc, String.toList_append, String.toList_append,
      String.toList_append] at hkey
    exact List.append_cancel_left hkey
  have hsuffix : fileSuffix.toList.length = 8 := rfl
  refine ⟨fun h => ?_, fun h => ?_, fun h => ?_⟩
  · obtain ⟨inner, hne, hlist⟩ := hrest h
    have hlength := congrArg List.length hlist
    have hlibrary : "LIBRARY".toList.length = 7 := rfl
    rw [List.length_append] at hlength
    omega
  · obtain ⟨inner, hne, hlist⟩ := hrest h
    have hlength := congrArg List.length hlist
    rw [List.length_append] at hlength
    exact hne (String.toList_eq_nil_iff.mp (List.length_eq_zero_iff.mp (by omega)))
  · obtain ⟨inner, hne, hlist⟩ := hrest h
    have hlast := congrArg List.getLast? hlist
    have hpath : pathVariable.toList.getLast? = some 'H' := rfl
    have hfile : fileSuffix.toList.getLast? = some 'Y' := rfl
    rw [List.getLast?_append, hpath, hfile] at hlast
    exact absurd hlast (by simp)

end Overrides

/-- The directories to search are the pieces of one variable that are not empty; where it is not set
there are none. -/
theorem searchPaths_of_joins {separator : Char} {text : String} {pieces : List String}
    (h : (e.map Prod.fst).Nodup) (hmem : (stem ++ pathVariable, text) ∈ e)
    (hjoins : Text.Joins separator pieces text) :
    (ofEnvironment stem (.singleton separator) e).searchPaths = pieces.filter (!·.isEmpty) := by
  change ((e.value (stem ++ pathVariable)).splitOn (.singleton separator)).filter _ = _
  rw [Environment.value_of_mem h hmem]
  exact hjoins.filter_splitOn

private theorem searchPaths_of_not_mem {separator : Char}
    (h : stem ++ pathVariable ∉ e.map Prod.fst) :
    (ofEnvironment stem (.singleton separator) e).searchPaths = [] := by
  change ((e.value (stem ++ pathVariable)).splitOn (.singleton separator)).filter _ = _
  rw [Environment.value_of_not_mem h]
  have hempty : Text.Joins separator [] "" := ⟨fun _ hmem => absurd hmem List.not_mem_nil, rfl⟩
  exact hempty.filter_splitOn

open Classical in
/-- Two environments have the same entries that give files, in the same order, and the same list of
directories. All else that is in them may differ. -/
structure ReadAlike (stem : String) (e e' : Environment) : Prop where
  files : e.filter (fun entry => ∃ name, GivesFile stem name entry) =
    e'.filter fun entry => ∃ name, GivesFile stem name entry
  directories : ∀ text, (stem ++ pathVariable, text) ∈ e ↔ (stem ++ pathVariable, text) ∈ e'

private theorem value_congr {e' : Environment} {key : String} (h : (e.map Prod.fst).Nodup)
    (h' : (e'.map Prod.fst).Nodup) (hsame : ∀ value, (key, value) ∈ e ↔ (key, value) ∈ e') :
    e.value key = e'.value key := by
  by_cases hset : key ∈ e.map Prod.fst
  · obtain ⟨⟨name, value⟩, hmem, rfl⟩ := List.mem_map.mp hset
    rw [Environment.value_of_mem h hmem, Environment.value_of_mem h' ((hsame value).mp hmem)]
  · have hset' : key ∉ e'.map Prod.fst := by
      intro hmem
      obtain ⟨⟨name, value⟩, hmem', rfl⟩ := List.mem_map.mp hmem
      exact hset (List.mem_map_of_mem ((hsame value).mpr hmem'))
    rw [Environment.value_of_not_mem hset, Environment.value_of_not_mem hset']

open Classical in
private theorem filesOf_filter (stem : String) (e : Environment) :
    filesOf stem (e.filter fun entry => ∃ name, GivesFile stem name entry) = filesOf stem e := by
  induction e with
  | nil => rfl
  | cons entry rest ih =>
    have hcons (e : Environment) :
        filesOf stem (entry :: e) = filesOf stem [entry] ++ filesOf stem e :=
      List.filterMap_append (l := [entry])
    by_cases h : ∃ name, GivesFile stem name entry
    · rw [List.filter_cons_of_pos (by simpa using h), hcons, ih, ← hcons]
    · have hnone : filesOf stem [entry] = [] := by
        refine List.eq_nil_iff_forall_not_mem.mpr fun given hmem => h ?_
        obtain ⟨name, hgives, -⟩ := givesFile_of_mem_filesOf hmem
        exact ⟨name, hgives⟩
      rw [List.filter_cons_of_neg (by simpa using h), ih, hcons, hnone, List.nil_append]

private theorem ReadAlike.concat {entry : String × String} (e : Environment)
    (hfile : ∀ name, ¬GivesFile stem name entry) (hpath : entry.1 ≠ stem ++ pathVariable) :
    ReadAlike stem e (e ++ [entry]) where
  files := by
    have hnone : ¬∃ name, GivesFile stem name entry := fun ⟨name, h⟩ => hfile name h
    rw [List.filter_append, List.filter_cons_of_neg (by simpa using hnone), List.filter_nil,
      List.append_nil]
  directories text := by
    have hne : (stem ++ pathVariable, text) ≠ entry := fun heq => hpath (congrArg Prod.fst heq).symm
    rw [List.mem_append, List.mem_singleton, or_iff_left hne]

private theorem ReadAlike.configuration_eq {separator : String} {e' : Environment}
    (hsame : ReadAlike stem e e') (h : (e.map Prod.fst).Nodup) (h' : (e'.map Prod.fst).Nodup) :
    ofEnvironment stem separator e =
      { ofEnvironment stem separator e' with
        useSystem := (ofEnvironment stem separator e).useSystem } := by
  have hfiles : filesOf stem e = filesOf stem e' := by
    rw [← filesOf_filter, hsame.files, filesOf_filter]
  unfold ofEnvironment
  rw [value_congr h h' hsame.directories, hfiles]

private theorem eq_of_useSystem_eq {c c' : Configuration}
    (h : c = { c' with useSystem := c.useSystem })
    (huse : c.useSystem = c'.useSystem) : c = c' := by
  rw [h, huse]

private theorem useSystem_congr {separator : String} {e' : Environment}
    (h : e.value (stem ++ systemVariable) = e'.value (stem ++ systemVariable)) :
    (ofEnvironment stem separator e).useSystem = (ofEnvironment stem separator e').useSystem := by
  unfold ofEnvironment
  rw [h]

/-- An environment whose variables have distinct names configures loading by these and no others.
The file of a library is what the last entry gives that gives one for it; neither a name in which
the stem and the ending overlap or meet nor the variable that lists directories gives any. The
directories to search are the pieces of that one variable, without those that are empty, so that a
list of directories which is written with any number of separators between them is read back. Where
the system may not be used in the one environment and may in the other, there is no further
difference. -/
theorem variables_read_exactly (stem : String) (separator : Char) (e : Environment)
    (h : (e.map Prod.fst).Nodup) :
    let c := ofEnvironment stem (.singleton separator) e
    (∀ name,
      (∀ file, c.overrideFor name = some file ↔ LastGives stem name file e) ∧
      (c.overrideFor name = none ↔ ∀ entry ∈ e, ¬GivesFile stem name entry) ∧
      ∀ value, ¬GivesFile stem name (stem ++ "LIBRARY", value) ∧
        ¬GivesFile stem name (stem ++ "_LIBRARY", value) ∧
        ¬GivesFile stem name (stem ++ "LIBRARY_PATH", value)) ∧
    (stem ++ "LIBRARY_PATH" ∉ e.map Prod.fst → c.searchPaths = []) ∧
    (∀ text, (stem ++ "LIBRARY_PATH", text) ∈ e →
      (∃ pieces, Text.Joins separator pieces text) ∧
      ∀ pieces, Text.Joins separator pieces text → c.searchPaths = pieces.filter (!·.isEmpty)) ∧
    ∀ e' : Environment, (e'.map Prod.fst).Nodup → ReadAlike stem e e' →
      let c' := ofEnvironment stem (.singleton separator) e'
      c = { c' with useSystem := c.useSystem } ∧
      ((∀ value, (stem ++ "USE_SYSTEM_LIBRARY", value) ∈ e ↔
          (stem ++ "USE_SYSTEM_LIBRARY", value) ∈ e') → c = c') := by
  intro c
  refine ⟨fun name => ⟨fun file => overrideFor_eq_some_iff stem _ name file e,
    overrideFor_eq_none_iff stem _ name e, fun value => not_givesFile stem name value⟩,
    searchPaths_of_not_mem, ?_, ?_⟩
  · intro text hmem
    exact ⟨⟨_, Text.joins_splitOn separator text⟩, fun pieces hjoins =>
      searchPaths_of_joins h hmem hjoins⟩
  · intro e' h' hsame c'
    have hconfiguration : c = { c' with useSystem := c.useSystem } := hsame.configuration_eq h h'
    refine ⟨hconfiguration, fun hsystem => ?_⟩
    exact eq_of_useSystem_eq hconfiguration (useSystem_congr (value_congr h h' hsystem))

/-- Two variables give files of one library, in letters of different case, and directories are
listed with a separator too many in two places; a variable with another stem is added. -/
theorem variables_read_exactly_merged :
    let e : Environment := [("NATIVE_LIBRARY_PATH", "/opt/a::/opt/b:"),
      ("NATIVE_ZSTD_LIBRARY", "/opt/zstd"), ("NATIVE_USE_SYSTEM_LIBRARY", "yes"),
      ("NATIVE_zstd_LIBRARY", "/opt/other")]
    let e' : Environment := e ++ [("OTHER_LIBRARY", "/opt/lib")]
    let c := ofEnvironment "NATIVE_" (.singleton ':') e
    (e.map Prod.fst).Nodup ∧ (e'.map Prod.fst).Nodup ∧ ReadAlike "NATIVE_" e e' ∧
      c.overrideFor "Zstd" = some "/opt/other" ∧ c.searchPaths = ["/opt/a", "/opt/b"] ∧
      c = ofEnvironment "NATIVE_" (.singleton ':') e' := by
  intro e e' c
  have hdistinct : (e.map Prod.fst).Nodup := by decide
  have hdistinct' : (e'.map Prod.fst).Nodup := by decide
  have hlast : GivesFile "NATIVE_" "Zstd" ("NATIVE_zstd_LIBRARY", "/opt/other") :=
    ⟨by decide, ⟨"zstd", by decide, rfl, rfl⟩, by decide⟩
  have hnone (name : String) : ¬GivesFile "NATIVE_" name ("OTHER_LIBRARY", "/opt/lib") := by
    intro h
    obtain ⟨inner, -, hkey, -⟩ := h.named
    have hfirst := congrArg (fun text => text.toList.head?) hkey
    simp at hfirst
  have hsame : ReadAlike "NATIVE_" e e' := ReadAlike.concat e hnone (by decide)
  have hpieces : Text.Joins ':' ["/opt/a", "", "/opt/b", ""] "/opt/a::/opt/b:" :=
    ⟨by decide, rfl⟩
  obtain ⟨hfiles, -, hpaths, hothers⟩ := variables_read_exactly "NATIVE_" ':' e hdistinct
  refine ⟨hdistinct, hdistinct', hsame, ?_, ?_, ?_⟩
  · exact ((hfiles "Zstd").1 "/opt/other").mpr
      ⟨e.take 3, "NATIVE_zstd_LIBRARY", [], rfl, hlast, fun _ hmem => absurd hmem List.not_mem_nil⟩
  · exact (hpaths _ List.mem_cons_self).2 _ hpieces
  · refine (hothers e' hdistinct' hsame).2 fun value => ?_
    have hkey : ("NATIVE_USE_SYSTEM_LIBRARY", value) ≠ ("OTHER_LIBRARY", "/opt/lib") := by
      simp
    exact (List.mem_append.trans (or_iff_left fun hmem => hkey (List.mem_singleton.mp hmem))).symm

end Library.Configuration

end NativeCodec
