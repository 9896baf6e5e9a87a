import Provision.Proofs.Document.Rearranged

/-!
# What one directive adds

A unit that is read without one of its directives has lost what this directive says. Only a list
without items and a repository that the unit has from another directive can be missing without a
trace.
-/

namespace Provision.Document

open Text

/-! ## A directive among others -/

section Insert

variable {above below : Directives} {key : Key} {value : List Char}

theorem valuesOf_insert (other : Key) : valuesOf other (above ++ (key, value) :: below) =
    valuesOf other above ++ ((if key = other then [value] else []) ++ valuesOf other below) := by
  by_cases h : key = other <;> simp [valuesOf, h]

theorem valuesOf_append (other : Key) :
    valuesOf other (above ++ below) = valuesOf other above ++ valuesOf other below := by
  simp [valuesOf]

theorem itemsOf_insert (other : Key) : itemsOf other (above ++ (key, value) :: below) =
    itemsOf other above ++ ((if key = other then items value else []) ++ itemsOf other below) := by
  simp [itemsOf]

theorem itemsOf_append (other : Key) :
    itemsOf other (above ++ below) = itemsOf other above ++ itemsOf other below := by
  simp [itemsOf]

theorem valuesOf_insert_of_ne {other : Key} (h : key ≠ other) :
    valuesOf other (above ++ (key, value) :: below) = valuesOf other (above ++ below) := by
  rw [valuesOf_insert, valuesOf_append, if_neg h, List.nil_append]

theorem itemsOf_insert_of_ne {other : Key} (h : key ≠ other) :
    itemsOf other (above ++ (key, value) :: below) = itemsOf other (above ++ below) := by
  rw [itemsOf_insert, itemsOf_append, if_neg h, List.nil_append]

variable (above below key value) in
theorem length_valuesOf_insert : (valuesOf key (above ++ (key, value) :: below)).length =
    (valuesOf key (above ++ below)).length + 1 := by
  rw [valuesOf_insert, valuesOf_append, if_pos rfl]
  simp only [List.length_append, List.length_singleton]
  omega

theorem Consistent.of_insert (h : Consistent (above ++ (key, value) :: below)) :
    Consistent (above ++ below) := by
  have hlast : (above ++ (key, value) :: below).Perm (above ++ below ++ [(key, value)]) :=
    List.perm_middle.trans (List.perm_append_singleton _ _).symm
  exact consistent_of_snoc (h.perm hlast)

end Insert

theorem not_mem_of_nodup_middle {α : Type} {front middle back : List α}
    (h : (front ++ (middle ++ back)).Nodup) {a : α} (ha : a ∈ middle) : a ∉ front ++ back := by
  intro hmem
  have hperm : (front ++ (middle ++ back)).Perm (middle ++ (front ++ back)) :=
    List.perm_append_comm_assoc front middle back
  exact List.disjoint_of_nodup_append (hperm.nodup_iff.mp h) ha hmem

/-- An item that is put among others is no new one if it stands before its place, or after it with
only such items in between as stand before it. -/
theorem eraseDups_insert_iff {α : Type} [DecidableEq α] {front back : List α} {a : α} :
    (front ++ a :: back).eraseDups = (front ++ back).eraseDups ↔
      a ∈ front ∨ ∃ between rest, back = between ++ a :: rest ∧ ∀ b ∈ between, b ∈ front := by
  rw [List.eraseDups_append, List.eraseDups_append, List.append_cancel_left_eq]
  by_cases ha : a ∈ front
  · have hsame : (a :: back).removeAll front = back.removeAll front := by
      simp [List.removeAll, ha]
    simp [hsame, ha]
  have hcons : (a :: back).removeAll front = a :: back.removeAll front := by
    simp [List.removeAll, ha]
  have hfirst : (back.removeAll front).head? = some a ↔
      ∃ between rest, back = between ++ a :: rest ∧ ∀ b ∈ between, b ∈ front := by
    rw [List.removeAll, List.head?_filter, List.find?_eq_some_iff_append]
    simp [ha]
  rw [hcons, List.eraseDups_cons, or_iff_right ha, ← hfirst]
  cases hback : back.removeAll front with
  | nil => simp
  | cons b more =>
    rw [List.eraseDups_cons, List.head?_cons, Option.some_inj]
    constructor
    · intro h
      exact (List.cons.inj h).1.symm
    · rintro rfl
      simp

/-! ## Units with and without a directive -/

/-- A directive that a unit does not miss: a list without items, or a repository that another
directive gives. This one comes first, or without a new repository in between. -/
def IsRedundant (above below : Directives) (value : List Char) : Key → Prop
  | .hosts | .flags => items value = []
  | .repo => String.ofList value ∈ textsOf .repo above ∨
      ∃ between rest, textsOf .repo below = between ++ String.ofList value :: rest ∧
        ∀ other ∈ between, other ∈ textsOf .repo above
  | .deb | .source | .pre | .post | .package => False

section Combine

variable {sourcesDir : Path} {above below : Directives} {key : Key} {value : List Char}
  {unit less : Installable}

/-- The fields of a unit depend on these parts of its directives only. -/
theorem Combines.ext {directives others : Directives} (hunit : Combines sourcesDir directives unit)
    (hless : Combines sourcesDir others less) (hname : less.name = unit.name)
    (hitems : ∀ key ∈ [.hosts, .flags], itemsOf key directives = itemsOf key others)
    (hrepositories : (textsOf .repo directives).eraseDups = (textsOf .repo others).eraseDups)
    (hvalues : ∀ key ∈ [.deb, .source, .pre, .post, .package],
      valuesOf key directives = valuesOf key others) : less = unit := by
  have hfield : ∀ (key : Key) {field other : Option String},
      key ∈ [.deb, .source, .pre, .post, .package] → field.toList = textsOf key directives →
        other.toList = textsOf key others → other = field := by
    intro key field other hkey hfield hother
    rw [textsOf, hvalues key hkey] at hfield
    refine eq_of_toList_perm ?_
    rw [hother, hfield, textsOf]
  have hsources : less.sources = unit.sources := by
    have hthere := hunit.sources
    rw [hvalues .source (by simp)] at hthere
    exact List.right_unique_forall₂' (isSourceFile_rightUnique sourcesDir) hless.sources hthere
  have hflags : less.flags = unit.flags := by
    rw [hless.flags, hunit.flags, flagsOf, flagsOf, hitems .flags (by simp)]
  have hhosts : less.hosts = unit.hosts := by
    rw [hless.hosts, hunit.hosts, hitems .hosts (by simp)]
  have hrepos : less.repositories = unit.repositories := by
    rw [hless.repositories, hunit.repositories, hrepositories]
  have hway : less.delivery = unit.delivery := by
    rw [hless.delivery, hunit.delivery, hvalues .deb (by simp)]
  have hurl := hfield .deb (by simp) hunit.url hless.url
  have hpre := hfield .pre (by simp) hunit.preScript hless.preScript
  have hpost := hfield .post (by simp) hunit.postScript hless.postScript
  have hpackage := hfield .package (by simp) hunit.package hless.package
  have harchive : less.archive? = unit.archive? := by rw [hless.archive, hunit.archive]
  have hrefresh : less.refreshDue = unit.refreshDue := by rw [hless.refresh, hunit.refresh]
  cases unit
  cases less
  simp_all

theorem hosts_of_insert (hunit : Combines sourcesDir (above ++ (.hosts, value) :: below) unit)
    (hless : Combines sourcesDir (above ++ below) less)
    (h : Consistent (above ++ (.hosts, value) :: below)) {item : List Char} (hitem : item ∈ items value) :
    String.ofList (lower item) ∈ unit.hosts ∧ String.ofList (lower item) ∉ less.hosts := by
  have hnodup := h.hosts
  rw [itemsOf_insert, if_pos rfl, List.map_append, List.map_append] at hnodup
  have hnew := not_mem_of_nodup_middle hnodup (List.mem_map_of_mem hitem)
  rw [← List.map_append, ← itemsOf_append] at hnew
  constructor
  · rw [hunit.hosts, Sorted.mem_ofList, itemsOf_insert, if_pos rfl]
    simp only [List.map_append, List.mem_append, List.mem_map]
    exact .inr (.inl ⟨item, hitem, rfl⟩)
  · rw [hless.hosts, Sorted.mem_ofList]
    intro hmem
    obtain ⟨other, hother, hsame⟩ := List.mem_map.mp hmem
    exact hnew (List.mem_map.mpr ⟨other, hother, String.ofList_inj.mp hsame⟩)

theorem flags_of_insert (hunit : Combines sourcesDir (above ++ (.flags, value) :: below) unit)
    (hless : Combines sourcesDir (above ++ below) less)
    (h : Consistent (above ++ (.flags, value) :: below)) {item : List Char} (hitem : item ∈ items value) :
    ∃ flag, Flag.ofToken? item = some flag ∧ unit.has flag = true ∧ less.has flag = false := by
  have hmem : item ∈ itemsOf .flags (above ++ (.flags, value) :: below) := by
    rw [itemsOf_insert, if_pos rfl]
    simp [hitem]
  obtain ⟨flag, hflag⟩ := Option.isSome_iff_exists.mp (h.known item hmem)
  have hnodup := h.flags
  rw [flagsOf, itemsOf_insert, if_pos rfl, List.filterMap_append, List.filterMap_append] at hnodup
  have hnew := not_mem_of_nodup_middle hnodup (List.mem_filterMap.mpr ⟨item, hitem, hflag⟩)
  rw [← List.filterMap_append, ← itemsOf_append] at hnew
  change flag ∉ flagsOf (above ++ below) at hnew
  refine ⟨flag, hflag, ?_, ?_⟩
  · simp only [Installable.has, List.contains_iff_mem, hunit.flags, Sorted.mem_ofList]
    exact List.mem_filterMap.mpr ⟨item, hmem, hflag⟩
  · rw [Bool.eq_false_iff]
    simpa only [Installable.has, ne_eq, List.contains_iff_mem, hless.flags, Sorted.mem_ofList]
      using hnew

theorem isRedundant_of_eq (hunit : Combines sourcesDir (above ++ (key, value) :: below) unit)
    (hless : Combines sourcesDir (above ++ below) less)
    (h : Consistent (above ++ (key, value) :: below)) (hsame : less = unit) :
    IsRedundant above below value key := by
  subst hsame
  have hlonger := length_valuesOf_insert above below key value
  have hfield : ∀ {field : Option String}, field.toList = textsOf key (above ++ below) →
      field.toList ≠ textsOf key (above ++ (key, value) :: below) := by
    intro field hshort hlong
    have hlength := congrArg List.length (hshort.symm.trans hlong)
    rw [textsOf, textsOf, List.length_map, List.length_map] at hlength
    omega
  cases key with
  | hosts =>
    refine List.eq_nil_iff_forall_not_mem.mpr fun item hitem => ?_
    obtain ⟨hthere, hmissing⟩ := hosts_of_insert hunit hless h hitem
    exact hmissing hthere
  | flags =>
    refine List.eq_nil_iff_forall_not_mem.mpr fun item hitem => ?_
    obtain ⟨flag, -, hthere, hmissing⟩ := flags_of_insert hunit hless h hitem
    rw [hthere] at hmissing
    cases hmissing
  | repo =>
    have hrepos := hunit.repositories.symm.trans hless.repositories
    rw [textsOf, textsOf, valuesOf_insert, valuesOf_append, if_pos rfl, List.map_append,
      List.map_append, List.map_append, List.map_singleton, List.singleton_append] at hrepos
    exact eraseDups_insert_iff.mp hrepos
  | source =>
    have hlength := hunit.sources.length_eq.trans hless.sources.length_eq.symm
    omega
  | deb => exact hfield hless.url hunit.url
  | pre => exact hfield hless.preScript hunit.preScript
  | post => exact hfield hless.postScript hunit.postScript
  | package => exact hfield hless.package hunit.package

theorem eq_of_isRedundant (hunit : Combines sourcesDir (above ++ (key, value) :: below) unit)
    (hless : Combines sourcesDir (above ++ below) less) (hname : less.name = unit.name)
    (h : IsRedundant above below value key) : less = unit := by
  have hempty : key = .hosts ∨ key = .flags → items value = [] := by
    rintro (rfl | rfl) <;> exact h
  have hlists : key = .hosts ∨ key = .flags ∨ key = .repo := by
    cases key <;> first | exact h.elim | simp
  refine hunit.ext hless hname ?_ ?_ ?_
  · intro other hother
    by_cases hkey : key = other
    · subst hkey
      rw [itemsOf_insert, itemsOf_append, if_pos rfl, hempty (by simpa using hother),
        List.nil_append]
    · exact itemsOf_insert_of_ne hkey
  · by_cases hkey : key = .repo
    · subst hkey
      rw [textsOf, textsOf, valuesOf_insert, valuesOf_append, if_pos rfl, List.map_append,
        List.map_append, List.map_append, List.map_singleton, List.singleton_append]
      exact eraseDups_insert_iff.mpr h
    · rw [textsOf, textsOf, valuesOf_insert_of_ne hkey]
  · intro other hother
    refine valuesOf_insert_of_ne ?_
    rintro rfl
    rcases hlists with rfl | rfl | rfl <;> simp at hother

end Combine

end Provision.Document
