import Mathlib.Data.List.Nodup
import Mathlib.Data.List.Induction
import Mathlib.Data.List.TakeWhile
import Provision.Proofs.Document.WellFormed

/-!
# Consistent directives

Directives are read one by one, and each is checked against those before it. Whether all of them are
accepted depends on the directives taken together only, and not on their order.
-/

namespace Provision.Document

open Text

abbrev Directives := List (Key × List Char)

/-- The items of all lists under a key. -/
def itemsOf (key : Key) (directives : Directives) : List (List Char) :=
  directives.flatMap fun (other, value) => if other = key then items value else []

/-- The flags that are given, as far as they are known. -/
def flagsOf (directives : Directives) : List Flag :=
  (itemsOf .flags directives).filterMap Flag.ofToken?

def keysOf (directives : Directives) : List Key := directives.map Prod.fst

/-- A value that has a blank after a first word with a file name. -/
def IsSource (value : List Char) : Prop :=
  ∃ word c rest, value = word ++ c :: rest ∧ isBlank c = true ∧ (∀ x ∈ word, isBlank x = false) ∧
    (Path.mk (String.ofList word)).fileName?.isSome

def singleKeys : List Key := [.deb, .pre, .post, .package]

/-- What must hold of the directives of a unit, in any order. -/
structure Consistent (directives : Directives) : Prop where
  known : ∀ item ∈ itemsOf .flags directives, (Flag.ofToken? item).isSome
  flags : (flagsOf directives).Nodup
  exclusive : ∀ pair ∈ exclusiveFlags, ¬ (pair.1 ∈ flagsOf directives ∧ pair.2 ∈ flagsOf directives)
  hosts : ((itemsOf .hosts directives).map lower).Nodup
  single : ∀ key ∈ singleKeys, (keysOf directives).count key ≤ 1
  origin : ¬ (.repo ∈ keysOf directives ∧ .source ∈ keysOf directives)
  source : ∀ value, (.source, value) ∈ directives → IsSource value

theorem itemsOf_perm {directives others : Directives} (h : directives.Perm others) (key : Key) :
    (itemsOf key directives).Perm (itemsOf key others) :=
  h.flatMap_right _

theorem Consistent.perm {directives others : Directives} (hdirectives : Consistent directives)
    (h : directives.Perm others) : Consistent others := by
  obtain ⟨hknown, hflags, hexclusive, hhosts, hsingle, horigin, hsource⟩ := hdirectives
  have hitems := itemsOf_perm h
  have hflagsOf : (flagsOf directives).Perm (flagsOf others) := (hitems .flags).filterMap _
  have hkeys : (keysOf directives).Perm (keysOf others) := h.map _
  refine ⟨?_, hflagsOf.nodup_iff.mp hflags, ?_, ?_, ?_, ?_, ?_⟩
  · exact fun item hitem => hknown item ((hitems .flags).mem_iff.mpr hitem)
  · intro pair hpair
    rw [← hflagsOf.mem_iff, ← hflagsOf.mem_iff]
    exact hexclusive pair hpair
  · exact ((hitems .hosts).map lower).nodup_iff.mp hhosts
  · intro key hkey
    rw [← hkeys.count_eq]
    exact hsingle key hkey
  · rw [← hkeys.mem_iff, ← hkeys.mem_iff]
    exact horigin
  · exact fun value hvalue => hsource value (h.mem_iff.mpr hvalue)

/-! ## One more directive -/

section Snoc

variable {directives : Directives} {key : Key} {value : List Char}

theorem itemsOf_snoc (other : Key) :
    itemsOf other (directives ++ [(key, value)]) =
      itemsOf other directives ++ if key = other then items value else [] := by
  simp [itemsOf]

theorem flagsOf_snoc : flagsOf (directives ++ [(key, value)]) =
    flagsOf directives ++ if key = .flags then (items value).filterMap Flag.ofToken? else [] := by
  unfold flagsOf
  rw [itemsOf_snoc]
  split <;> simp

theorem keysOf_snoc : keysOf (directives ++ [(key, value)]) = keysOf directives ++ [key] := by
  simp [keysOf]

theorem count_snoc_le_one_iff {keys : List Key} {other : Key} :
    (keys ++ [key]).count other ≤ 1 ↔ keys.count other ≤ 1 ∧ (key = other → other ∉ keys) := by
  rw [List.count_append, List.count_singleton, ← List.count_eq_zero]
  by_cases h : key = other
  · simp [h]
    omega
  · simp [h]

/-- How one more directive must fit to those before it. -/
def Fits (directives : Directives) (value : List Char) : Key → Prop
  | .hosts => ((itemsOf .hosts directives ++ items value).map lower).Nodup
  | .flags => (∀ item ∈ items value, (Flag.ofToken? item).isSome) ∧
      (flagsOf directives ++ (items value).filterMap Flag.ofToken?).Nodup ∧
      ∀ pair ∈ exclusiveFlags,
        ¬ (pair.1 ∈ flagsOf directives ++ (items value).filterMap Flag.ofToken? ∧
          pair.2 ∈ flagsOf directives ++ (items value).filterMap Flag.ofToken?)
  | .repo => .source ∉ keysOf directives
  | .source => .repo ∉ keysOf directives ∧ IsSource value
  | .deb => .deb ∉ keysOf directives
  | .pre => .pre ∉ keysOf directives
  | .post => .post ∉ keysOf directives
  | .package => .package ∉ keysOf directives

theorem fits_of_consistent (h : Consistent (directives ++ [(key, value)])) :
    Fits directives value key := by
  obtain ⟨hknown, hflags, hexclusive, hhosts, hsingle, horigin, hsource⟩ := h
  simp only [itemsOf_snoc, keysOf_snoc, flagsOf_snoc, count_snoc_le_one_iff] at *
  cases key with
  | hosts => exact hhosts
  | flags => exact ⟨fun item hmem => hknown item (List.mem_append_right _ hmem), hflags, hexclusive⟩
  | repo => exact fun hmem => horigin (by simp [hmem])
  | source => exact ⟨fun hmem => horigin (by simp [hmem]), hsource value (by simp)⟩
  | deb => exact (hsingle .deb (by decide)).2 rfl
  | pre => exact (hsingle .pre (by decide)).2 rfl
  | post => exact (hsingle .post (by decide)).2 rfl
  | package => exact (hsingle .package (by decide)).2 rfl

theorem consistent_of_snoc (h : Consistent (directives ++ [(key, value)])) :
    Consistent directives := by
  obtain ⟨hknown, hflags, hexclusive, hhosts, hsingle, horigin, hsource⟩ := h
  simp only [itemsOf_snoc, keysOf_snoc, flagsOf_snoc, count_snoc_le_one_iff] at *
  refine ⟨?_, hflags.of_append_left, ?_, ?_, ?_, ?_, ?_⟩
  · exact fun item hmem => hknown item (List.mem_append_left _ hmem)
  · exact fun pair hpair hboth =>
      hexclusive pair hpair (hboth.imp (List.mem_append_left _) (List.mem_append_left _))
  · rw [List.map_append] at hhosts
    exact hhosts.of_append_left
  · exact fun other hother => (hsingle other hother).1
  · exact fun hboth => horigin (hboth.imp (List.mem_append_left _) (List.mem_append_left _))
  · exact fun other hother => hsource other (List.mem_append_left _ hother)

theorem consistent_snoc (h : Consistent directives) (hfits : Fits directives value key) :
    Consistent (directives ++ [(key, value)]) := by
  obtain ⟨hknown, hflags, hexclusive, hhosts, hsingle, horigin, hsource⟩ := h
  constructor
  · rw [itemsOf_snoc]
    by_cases hkey : key = .flags
    · subst hkey
      simpa [or_imp, forall_and] using ⟨hknown, hfits.1⟩
    · simpa [hkey] using hknown
  · rw [flagsOf_snoc]
    by_cases hkey : key = .flags
    · subst hkey
      exact hfits.2.1
    · simpa [hkey] using hflags
  · rw [flagsOf_snoc]
    by_cases hkey : key = .flags
    · subst hkey
      exact hfits.2.2
    · simpa [hkey] using hexclusive
  · rw [itemsOf_snoc]
    by_cases hkey : key = .hosts
    · subst hkey
      exact hfits
    · simpa [hkey] using hhosts
  · intro other hother
    rw [keysOf_snoc, count_snoc_le_one_iff]
    refine ⟨hsingle other hother, ?_⟩
    rintro rfl
    cases key with
    | deb | pre | post | package => exact hfits
    | _ => simp [singleKeys] at hother
  · rw [keysOf_snoc]
    cases key with
    | repo | source => simp_all [Fits]
    | _ => simpa using horigin
  · intro other hother
    rcases List.mem_append.mp hother with hother | hother
    · exact hsource other hother
    · obtain ⟨rfl, rfl⟩ : .source = key ∧ other = value := by simpa using hother
      exact hfits.2

end Snoc

/-! ## Reading the directives -/

section Insert

variable {U I K ε : Type} {f : U → I → Except ε U} {key? : I → Option K} {mem : U → K → Prop}

/-- Items that are added to a set one by one are known, and new to the set and to each other. -/
theorem foldlM_insert_eq_ok
    (hf : ∀ u i next, f u i = .ok next → ∃ k, key? i = some k ∧ ¬ mem u k ∧
      ∀ x, mem next x ↔ mem u x ∨ x = k) {items : List I} {u final : U}
    (h : items.foldlM f u = .ok final) :
    (∀ i ∈ items, (key? i).isSome) ∧ (items.filterMap key?).Nodup ∧
      (∀ k ∈ items.filterMap key?, ¬ mem u k) ∧
      ∀ x, mem final x ↔ mem u x ∨ x ∈ items.filterMap key? := by
  induction items generalizing u with
  | nil =>
    obtain rfl := Except.ok.inj h
    simp
  | cons i rest ih =>
    obtain ⟨next, hnext, hrest⟩ := foldlM_cons_eq_ok_iff.mp h
    obtain ⟨k, hkey, hnew, hmem⟩ := hf u i next hnext
    obtain ⟨hknown, hnodup, hfresh, hfinal⟩ := ih hrest
    rw [List.filterMap_cons_some hkey]
    refine ⟨?_, ?_, ?_, ?_⟩
    · exact List.forall_mem_cons.mpr ⟨by simp [hkey], hknown⟩
    · exact List.nodup_cons.mpr ⟨fun hk => hfresh k hk ((hmem k).mpr (.inr rfl)), hnodup⟩
    · refine List.forall_mem_cons.mpr ⟨hnew, fun x hx hu => ?_⟩
      exact hfresh x hx ((hmem x).mpr (.inl hu))
    · intro x
      rw [hfinal, hmem, List.mem_cons, or_assoc]

theorem exists_foldlM_insert
    (hf : ∀ u i next, f u i = .ok next → ∃ k, key? i = some k ∧ ¬ mem u k ∧
      ∀ x, mem next x ↔ mem u x ∨ x = k)
    (hok : ∀ u i k, key? i = some k → ¬ mem u k → ∃ next, f u i = .ok next) {items : List I} {u : U}
    (hknown : ∀ i ∈ items, (key? i).isSome) (hnodup : (items.filterMap key?).Nodup)
    (hfresh : ∀ k ∈ items.filterMap key?, ¬ mem u k) : ∃ final, items.foldlM f u = .ok final := by
  induction items generalizing u with
  | nil => exact ⟨u, rfl⟩
  | cons i rest ih =>
    rw [List.forall_mem_cons] at hknown
    obtain ⟨k, hkey⟩ := Option.isSome_iff_exists.mp hknown.1
    rw [List.filterMap_cons_some hkey] at hnodup hfresh
    rw [List.forall_mem_cons] at hfresh
    rw [List.nodup_cons] at hnodup
    obtain ⟨next, hnext⟩ := hok u i k hkey hfresh.1
    obtain ⟨other, hother, -, hmem⟩ := hf u i next hnext
    obtain rfl : k = other := by simpa [hkey] using hother
    have hrest : ∀ x ∈ rest.filterMap key?, ¬ mem next x := by
      intro x hx hnx
      rcases (hmem x).mp hnx with hu | rfl
      · exact hfresh.2 x hx hu
      · exact hnodup.1 hx
    obtain ⟨final, hfinal⟩ := ih hknown.2 hnodup.2 hrest
    exact ⟨final, foldlM_cons_eq_ok_iff.mpr ⟨next, hnext, hfinal⟩⟩

end Insert

/-- What the fields of a unit say about the directives it was read from. -/
structure Sums (directives : Directives) (unit : Installable) : Prop where
  flags : ∀ flag, unit.has flag = true ↔ flag ∈ flagsOf directives
  hosts : ∀ pattern, String.ofList pattern ∈ unit.hosts ↔
    pattern ∈ (itemsOf .hosts directives).map lower
  url : unit.url?.isSome ↔ .deb ∈ keysOf directives
  pre : unit.preScript?.isSome ↔ .pre ∈ keysOf directives
  post : unit.postScript?.isSome ↔ .post ∈ keysOf directives
  package : unit.package?.isSome ↔ .package ∈ keysOf directives
  repositories : unit.repositories ≠ [] ↔ .repo ∈ keysOf directives
  sources : unit.sources ≠ [] ↔ .source ∈ keysOf directives

section Apply

variable {sourcesDir : Path} {unit next : Installable} {directives : Directives}
  {value : List Char}

theorem addFlag_inserts (unit : Installable) (item : List Char) (next : Installable)
    (h : addFlag unit item = .ok next) : ∃ flag, Flag.ofToken? item = some flag ∧
      ¬ unit.has flag = true ∧ ∀ other, next.has other = true ↔ unit.has other = true ∨ other = flag := by
  obtain ⟨flag, hflag, hnew, rfl⟩ := addFlag_eq_ok h
  refine ⟨flag, hflag, by simp [hnew], fun other => ?_⟩
  simp [Installable.has, Sorted.mem_insert, or_comm]

theorem exists_addFlag (unit : Installable) (item : List Char) (flag : Flag)
    (hflag : Flag.ofToken? item = some flag) (hnew : ¬ unit.has flag = true) :
    ∃ next, addFlag unit item = .ok next := by
  unfold addFlag
  rw [hflag]
  simp only
  rw [if_neg hnew]
  exact ⟨_, rfl⟩

theorem addHost_inserts (unit : Installable) (item : List Char) (next : Installable)
    (h : addHost unit item = .ok next) : ∃ pattern, some (lower item) = some pattern ∧
      ¬ String.ofList pattern ∈ unit.hosts ∧
      ∀ other, String.ofList other ∈ next.hosts ↔
        String.ofList other ∈ unit.hosts ∨ other = pattern := by
  obtain ⟨hnew, rfl⟩ := addHost_eq_ok h
  refine ⟨lower item, rfl, hnew, fun other => ?_⟩
  simp [Sorted.mem_insert, String.ofList_inj, or_comm]

theorem exists_addHost (unit : Installable) (item pattern : List Char)
    (hpattern : some (lower item) = some pattern) (hnew : ¬ String.ofList pattern ∈ unit.hosts) :
    ∃ next, addHost unit item = .ok next := by
  obtain rfl := Option.some.inj hpattern
  unfold addHost
  simp [hnew]

theorem applyHosts_inserts (h : applyDirective sourcesDir unit .hosts value = .ok next) :
    ((items value).map lower).Nodup ∧
      (∀ pattern ∈ (items value).map lower, String.ofList pattern ∉ unit.hosts) ∧
      ∀ pattern, String.ofList pattern ∈ next.hosts ↔
        String.ofList pattern ∈ unit.hosts ∨ pattern ∈ (items value).map lower := by
  have hset := foldlM_insert_eq_ok addHost_inserts h
  rw [← List.filterMap_eq_map]
  exact hset.2

theorem applyFlags_inserts (h : applyDirective sourcesDir unit .flags value = .ok next) :
    (∀ item ∈ items value, (Flag.ofToken? item).isSome) ∧
      ((items value).filterMap Flag.ofToken?).Nodup ∧
      (∀ flag ∈ (items value).filterMap Flag.ofToken?, ¬ unit.has flag = true) ∧
      ∀ flag, next.has flag = true ↔
        unit.has flag = true ∨ flag ∈ (items value).filterMap Flag.ofToken? := by
  unfold applyDirective at h
  simp only at h
  cases hfold : (items value).foldlM addFlag unit with
  | error cause => rw [hfold] at h; cases h
  | ok mid =>
    rw [hfold] at h
    obtain ⟨rfl, -⟩ := checkExclusive_eq_ok h
    exact foldlM_insert_eq_ok addFlag_inserts hfold

theorem sums_snoc {key : Key} (hsums : Sums directives unit)
    (h : applyDirective sourcesDir unit key value = .ok next) :
    Sums (directives ++ [(key, value)]) next := by
  obtain ⟨hflags, hhosts, hurl, hpre, hpost, hpackage, hrepositories, hsources⟩ := hsums
  cases key with
  | deb | pre | post | package =>
    obtain ⟨-, rfl⟩ := setOnce_eq_ok h
    constructor <;> simp_all [itemsOf_snoc, flagsOf_snoc, keysOf_snoc, Installable.has]
  | repo =>
    obtain ⟨-, ⟨hthere, rfl⟩ | rfl⟩ := applyDirective_repo h
    · have hne := List.ne_nil_of_mem hthere
      constructor <;> simp_all [itemsOf_snoc, flagsOf_snoc, keysOf_snoc, Installable.has]
    · constructor <;> simp_all [itemsOf_snoc, flagsOf_snoc, keysOf_snoc, Installable.has]
  | source =>
    obtain ⟨-, entry, -, rfl⟩ := applyDirective_source h
    constructor <;> simp_all [itemsOf_snoc, flagsOf_snoc, keysOf_snoc, Installable.has]
  | hosts =>
    have hset := (applyHosts_inserts h).2.2
    obtain ⟨patterns, rfl⟩ : ∃ patterns, next = { unit with hosts := patterns } :=
      ⟨_, applyDirective_hosts h⟩
    constructor
    case hosts =>
      intro pattern
      rw [hset, hhosts, itemsOf_snoc, if_pos rfl, List.map_append, List.mem_append]
    all_goals simp_all [flagsOf_snoc, keysOf_snoc, Installable.has]
  | flags =>
    have hset := (applyFlags_inserts h).2.2.2
    obtain ⟨flags, rfl⟩ : ∃ flags, next = { unit with flags := flags } :=
      ⟨_, (applyDirective_flags h).1⟩
    constructor
    case flags =>
      intro flag
      rw [hset, hflags, flagsOf_snoc, if_pos rfl, List.mem_append]
    all_goals simp_all [itemsOf_snoc, keysOf_snoc, Installable.has]

theorem isSource_of_sourceEntry? {entry : SourceFile}
    (h : sourceEntry? sourcesDir value = some entry) : IsSource value := by
  obtain ⟨word, after, file, hcut, hfile, -, -⟩ := sourceEntry?_eq_some h
  obtain ⟨c, hblank, rfl, hfree⟩ := cut?_eq_some hcut
  exact ⟨word, c, after, rfl, hblank, hfree, by simp [hfile]⟩

variable (sourcesDir) in
/-- There is a text after the blank, as the value does not end in blanks. -/
theorem exists_sourceEntry? (htrim : trimEnd value = value) (h : IsSource value) :
    ∃ entry, sourceEntry? sourcesDir value = some entry := by
  obtain ⟨word, c, rest, rfl, hblank, hfree, hfile⟩ := h
  obtain ⟨file, hfile⟩ := Option.isSome_iff_exists.mp hfile
  have hrest : trimStart rest ≠ [] := by
    intro hnil
    have hblanks : ∀ x ∈ c :: rest, isBlank x = true := by
      simpa [hblank] using List.dropWhile_eq_nil_iff.mp hnil
    rw [trimEnd_append_blank _ _ hblanks] at htrim
    obtain ⟨tail, hword, -⟩ := exists_trimEnd_append word
    have hword := congrArg List.length hword
    have htrim := congrArg List.length htrim
    simp only [List.length_append, List.length_cons] at hword htrim
    omega
  refine ⟨⟨sourcesDir.join file, String.ofList (trimStart rest)⟩, ?_⟩
  simp only [ sourceEntry?, cut?_append_cons hfree hblank, hfile, Option.bind_eq_bind, Option.bind_some]
  simp [hrest]

theorem fits_of_applyDirective {key : Key} (hsums : Sums directives unit)
    (hconsistent : Consistent directives)
    (h : applyDirective sourcesDir unit key value = .ok next) : Fits directives value key := by
  cases key with
  | deb =>
    obtain ⟨hnone, -⟩ := setOnce_eq_ok h
    simpa [Fits, hnone] using hsums.url
  | pre =>
    obtain ⟨hnone, -⟩ := setOnce_eq_ok h
    simpa [Fits, hnone] using hsums.pre
  | post =>
    obtain ⟨hnone, -⟩ := setOnce_eq_ok h
    simpa [Fits, hnone] using hsums.post
  | package =>
    obtain ⟨hnone, -⟩ := setOnce_eq_ok h
    simpa [Fits, hnone] using hsums.package
  | repo =>
    obtain ⟨hnil, -⟩ := applyDirective_repo h
    exact fun hmem => hsums.sources.mpr hmem hnil
  | source =>
    obtain ⟨hnil, entry, hentry, -⟩ := applyDirective_source h
    exact ⟨fun hmem => hsums.repositories.mpr hmem hnil, isSource_of_sourceEntry? hentry⟩
  | hosts =>
    obtain ⟨hnodup, hnew, -⟩ := applyHosts_inserts h
    unfold Fits
    rw [List.map_append]
    refine List.Nodup.append hconsistent.hosts hnodup fun pattern hold hadded => ?_
    exact hnew pattern hadded ((hsums.hosts pattern).mpr hold)
  | flags =>
    obtain ⟨hknown, hnodup, hnew, hset⟩ := applyFlags_inserts h
    have hflags : ∀ flag, next.has flag = true ↔
        flag ∈ flagsOf directives ++ (items value).filterMap Flag.ofToken? := by
      intro flag
      rw [hset, hsums.flags, List.mem_append]
    refine ⟨hknown, ?_, ?_⟩
    · refine List.Nodup.append hconsistent.flags hnodup fun flag hold hadded => ?_
      exact hnew flag hadded ((hsums.flags flag).mpr hold)
    · intro pair hpair
      rw [← hflags, ← hflags]
      rw [not_and_or, Bool.not_eq_true, Bool.not_eq_true]
      exact (applyDirective_flags h).2 pair hpair

theorem checkExclusive_of_not
    (h : ∀ pair ∈ exclusiveFlags, ¬ (unit.has pair.1 = true ∧ unit.has pair.2 = true)) :
    checkExclusive unit = .ok unit := by
  unfold checkExclusive
  split
  · next first second hfind =>
    have hboth := List.find?_some hfind
    rw [Bool.and_eq_true] at hboth
    exact absurd hboth (h _ (List.mem_of_find?_eq_some hfind))
  · rfl

theorem setOnce_of_none {key : Key} {field : Option String} {set : Installable}
    (h : ¬ field.isSome) : setOnce unit key field set = .ok set := by
  simp [setOnce, h]

variable (sourcesDir) in
theorem exists_applyDirective {key : Key} (hsums : Sums directives unit)
    (htrim : trimEnd value = value) (hfits : Fits directives value key) :
    ∃ next, applyDirective sourcesDir unit key value = .ok next := by
  cases key with
  | deb => exact ⟨_, setOnce_of_none fun h => hfits (hsums.url.mp h)⟩
  | pre => exact ⟨_, setOnce_of_none fun h => hfits (hsums.pre.mp h)⟩
  | post => exact ⟨_, setOnce_of_none fun h => hfits (hsums.post.mp h)⟩
  | package => exact ⟨_, setOnce_of_none fun h => hfits (hsums.package.mp h)⟩
  | repo =>
    have hnil : unit.sources = [] := by
      by_contra hne
      exact hfits (hsums.sources.mp hne)
    by_cases hthere : String.ofList value ∈ unit.repositories <;>
      simp [applyDirective, hnil, hthere]
  | source =>
    obtain ⟨hrepo, hsource⟩ := hfits
    have hnil : unit.repositories = [] := by
      by_contra hne
      exact hrepo (hsums.repositories.mp hne)
    obtain ⟨entry, hentry⟩ := exists_sourceEntry? sourcesDir htrim hsource
    simp [applyDirective, hnil, hentry]
  | hosts =>
    unfold Fits at hfits
    rw [List.map_append, List.nodup_append] at hfits
    obtain ⟨-, hnodup, hnew⟩ := hfits
    refine exists_foldlM_insert addHost_inserts exists_addHost (by simp) ?_ ?_
    · simpa [List.filterMap_eq_map'] using hnodup
    · intro pattern hadded hold
      rw [List.filterMap_eq_map'] at hadded
      exact hnew pattern ((hsums.hosts pattern).mp hold) pattern hadded rfl
  | flags =>
    obtain ⟨hknown, hnodup, hexclusive⟩ := hfits
    rw [List.nodup_append] at hnodup
    obtain ⟨final, hfold⟩ := exists_foldlM_insert addFlag_inserts exists_addFlag hknown hnodup.2.1
      fun flag hadded hold => hnodup.2.2 flag ((hsums.flags flag).mp hold) flag hadded rfl
    refine ⟨final, ?_⟩
    have hset := (foldlM_insert_eq_ok addFlag_inserts hfold).2.2.2
    have happly : applyDirective sourcesDir unit .flags value = checkExclusive final := by
      simp only [applyDirective, hfold]
      rfl
    rw [happly]
    refine checkExclusive_of_not fun pair hpair => ?_
    simpa only [hset, hsums.flags, List.mem_append] using hexclusive pair hpair

/-! ## Reading them all -/

def applyAll (sourcesDir : Path) (unit : Installable) (directives : Directives) :
    Except Cause Installable :=
  directives.foldlM (fun mid (key, value) => applyDirective sourcesDir mid key value) unit

theorem applyAll_snoc_eq_ok_iff {key : Key} :
    applyAll sourcesDir unit (directives ++ [(key, value)]) = .ok next ↔
      ∃ mid, applyAll sourcesDir unit directives = .ok mid ∧
        applyDirective sourcesDir mid key value = .ok next := by
  unfold applyAll
  rw [foldlM_append_eq_ok_iff]
  refine exists_congr fun mid => and_congr_right fun _ => ?_
  rw [foldlM_cons_eq_ok_iff]
  simp [pure, Except.pure]

theorem consistent_nil : Consistent [] :=
  ⟨by simp [itemsOf], by simp [flagsOf, itemsOf], by simp [flagsOf, itemsOf], by simp [itemsOf],
    by simp [keysOf], by simp [keysOf], by simp⟩

theorem sums_fresh (name : String) : Sums [] { name } := by
  constructor <;> simp [itemsOf, flagsOf, keysOf, Installable.has]

theorem consistent_of_applyAll {name : String}
    (h : applyAll sourcesDir { name } directives = .ok next) :
    Consistent directives ∧ Sums directives next := by
  induction directives using List.reverseRecOn generalizing next with
  | nil =>
    obtain rfl := Except.ok.inj h
    exact ⟨consistent_nil, sums_fresh name⟩
  | append_singleton earlier last ih =>
    obtain ⟨mid, hmid, hlast⟩ := applyAll_snoc_eq_ok_iff.mp h
    obtain ⟨hconsistent, hsums⟩ := ih hmid
    exact ⟨consistent_snoc hconsistent (fits_of_applyDirective hsums hconsistent hlast),
      sums_snoc hsums hlast⟩

variable (sourcesDir) in
theorem exists_applyAll (name : String) (htrim : ∀ pair ∈ directives, trimEnd pair.2 = pair.2)
    (h : Consistent directives) : ∃ final, applyAll sourcesDir { name } directives = .ok final := by
  induction directives using List.reverseRecOn with
  | nil => exact ⟨_, rfl⟩
  | append_singleton earlier last ih =>
    have hearlier : ∀ pair ∈ earlier, trimEnd pair.2 = pair.2 :=
      fun pair hpair => htrim pair (List.mem_append_left _ hpair)
    obtain ⟨mid, hmid⟩ := ih hearlier (consistent_of_snoc h)
    have hsums := (consistent_of_applyAll hmid).2
    obtain ⟨final, hfinal⟩ :=
      exists_applyDirective sourcesDir hsums (htrim last (by simp)) (fits_of_consistent h)
    exact ⟨final, applyAll_snoc_eq_ok_iff.mpr ⟨mid, hmid, hfinal⟩⟩

end Apply

end Provision.Document
