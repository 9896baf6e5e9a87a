import Mathlib.Logic.Basic
import Provision.Proofs.Document.Step
import Provision.Proofs.Files.Place

/-!
# What a document declares

Every unit that is read from a document is well formed: its name can be the name of a file, it is in
one bucket, its source files stand directly in the sources directory, and nothing in it says that
it has run. No two units of a document have the same name.
-/

namespace Provision

open Text

/-! ## The file name of a source -/

namespace Path

theorem step_eq_name {part : List Char} {name : String} (h : step part = .name name) :
    name = String.ofList part ∧ part ≠ ['.'] ∧ part ≠ ['.', '.'] := by
  unfold step at h
  split at h
  · cases h
  · next hhere =>
    split at h
    · cases h
    · next hup => exact ⟨(Component.name.inj h).symm, hhere, hup⟩

theorem isName_ofList {part : List Char} (hslash : '/' ∉ part) (hne : part ≠ [])
    (hhere : part ≠ ['.']) (hup : part ≠ ['.', '.']) : IsName (String.ofList part) := by
  refine ⟨?_, ?_, ?_, by simpa using hslash⟩ <;> intro h
  · exact hne (by simpa using congrArg String.toList h)
  · exact hhere (by simpa using congrArg String.toList h)
  · exact hup (by simpa using congrArg String.toList h)

theorem isName_of_mem_components {p : Path} {name : String} (h : .name name ∈ p.components) :
    IsName name := by
  unfold components at h
  cases hpieces : pieces '/' p.text.toList with
  | nil => simp [hpieces] at h
  | cons first rest =>
    have hslash : ∀ piece ∈ first :: rest, '/' ∉ piece :=
      fun piece hmem => not_mem_of_mem_pieces (by rw [hpieces]; exact hmem)
    simp only [hpieces, List.mem_append, List.mem_map, List.mem_filter] at h
    rcases h with h | ⟨part, ⟨hmem, hidle⟩, hstep⟩
    · cases first with
      | nil =>
        cases rest with
        | nil => simp at h
        | cons _ _ => simp at h
      | cons c cs =>
        simp only [List.isEmpty_cons, Bool.not_false, if_true, List.mem_singleton] at h
        obtain ⟨rfl, hhere, hup⟩ := step_eq_name h.symm
        exact isName_ofList (hslash _ List.mem_cons_self) (by simp) hhere hup
    · obtain ⟨rfl, hhere, hup⟩ := step_eq_name hstep
      have hne : part ≠ [] := by
        rintro rfl
        simp [idle] at hidle
      exact isName_ofList (hslash _ (List.mem_cons_of_mem _ hmem)) hne hhere hup

theorem isName_of_fileName? {p : Path} {name : String} (h : p.fileName? = some name) :
    IsName name := by
  unfold fileName? at h
  split at h
  · next last hlast =>
    obtain rfl := Option.some.inj h
    exact isName_of_mem_components (List.mem_of_getLast? hlast)
  · cases h

end Path

/-- What holds of every unit that is read from a document. -/
structure Installable.WellFormed (sourcesDir : Path) (unit : Installable) : Prop where
  no_slash : '/' ∉ unit.name.toList
  one_bucket : unit.has .lead = false ∨ unit.has .trail = false
  sources : ∀ source ∈ unit.sources, ∃ name, Path.IsName name ∧ source.path = sourcesDir.join name
  no_archive : unit.archive? = none
  no_refresh : unit.refreshDue = false

namespace Document

/-! ## One directive -/

section Apply

variable {sourcesDir : Path} {unit next : Installable} {value : List Char}

theorem setOnce_eq_ok {key : Key} {field : Option String} {set : Installable}
    (h : setOnce unit key field set = .ok next) : field = none ∧ next = set := by
  unfold setOnce at h
  split at h
  · cases h
  · next hnone => exact ⟨by simpa using hnone, (Except.ok.inj h).symm⟩

theorem addHost_eq_ok {item : List Char} (h : addHost unit item = .ok next) :
    String.ofList (lower item) ∉ unit.hosts ∧
      next = { unit with hosts := Sorted.insert (String.ofList (lower item)) unit.hosts } := by
  unfold addHost at h
  simp only at h
  split at h
  · cases h
  · next hnew => exact ⟨by simpa using hnew, (Except.ok.inj h).symm⟩

theorem addFlag_eq_ok {item : List Char} (h : addFlag unit item = .ok next) :
    ∃ flag, Flag.ofToken? item = some flag ∧ unit.has flag = false ∧
      next = { unit with flags := Sorted.insert flag unit.flags } := by
  unfold addFlag at h
  split at h
  · cases h
  · next flag hflag =>
    split at h
    · cases h
    · next hnew => exact ⟨flag, hflag, by simpa using hnew, (Except.ok.inj h).symm⟩

theorem checkExclusive_eq_ok (h : checkExclusive unit = .ok next) :
    next = unit ∧ ∀ pair ∈ exclusiveFlags, unit.has pair.1 = false ∨ unit.has pair.2 = false := by
  unfold checkExclusive at h
  split at h
  · cases h
  · next hnone =>
    refine ⟨(Except.ok.inj h).symm, fun pair hpair => ?_⟩
    have hboth := List.find?_eq_none.mp hnone pair hpair
    rw [Bool.and_eq_true, not_and_or] at hboth
    exact hboth.imp Bool.eq_false_iff.mpr Bool.eq_false_iff.mpr

theorem sourceEntry?_eq_some {entry : SourceFile} (h : sourceEntry? sourcesDir value = some entry) :
    ∃ word after file, cut? isBlank value = some (word, after) ∧
      (Path.mk (String.ofList word)).fileName? = some file ∧ trimStart after ≠ [] ∧
      entry = ⟨sourcesDir.join file, String.ofList (trimStart after)⟩ := by
  simp only [ sourceEntry?, Option.bind_eq_bind, Option.bind_eq_some_iff, Prod.exists] at h
  obtain ⟨word, after, hcut, file, hfile, h⟩ := h
  split at h
  · cases h
  · next hne =>
    exact ⟨word, after, file, hcut, hfile, by simpa using hne, (Option.some.inj h).symm⟩

theorem applyDirective_hosts (h : applyDirective sourcesDir unit .hosts value = .ok next) :
    next = { unit with hosts := next.hosts } := by
  refine foldlM_preserves (P := fun mid => mid = { unit with hosts := mid.hosts }) ?_ rfl h
  intro mid item after hmid hstep
  rw [(addHost_eq_ok hstep).2, hmid]

theorem applyDirective_flags (h : applyDirective sourcesDir unit .flags value = .ok next) :
    next = { unit with flags := next.flags } ∧
      ∀ pair ∈ exclusiveFlags, next.has pair.1 = false ∨ next.has pair.2 = false := by
  unfold applyDirective at h
  simp only at h
  cases hfold : (items value).foldlM addFlag unit with
  | error cause => rw [hfold] at h; cases h
  | ok mid =>
    rw [hfold] at h
    obtain ⟨rfl, hexclusive⟩ := checkExclusive_eq_ok h
    refine ⟨?_, hexclusive⟩
    refine foldlM_preserves (P := fun mid => mid = { unit with flags := mid.flags }) ?_ rfl hfold
    intro mid item after hmid hstep
    obtain ⟨flag, -, -, hafter⟩ := addFlag_eq_ok hstep
    rw [hafter, hmid]

theorem applyDirective_repo (h : applyDirective sourcesDir unit .repo value = .ok next) :
    unit.sources = [] ∧ (String.ofList value ∈ unit.repositories ∧ next = unit ∨
      next = { unit with repositories := unit.repositories ++ [String.ofList value] }) := by
  simp only [applyDirective] at h
  split at h
  · cases h
  · next hnil =>
    refine ⟨by simpa using hnil, ?_⟩
    split at h
    · next hthere => exact .inl ⟨by simpa using hthere, (Except.ok.inj h).symm⟩
    · exact .inr (Except.ok.inj h).symm

theorem applyDirective_source (h : applyDirective sourcesDir unit .source value = .ok next) :
    unit.repositories = [] ∧ ∃ entry, sourceEntry? sourcesDir value = some entry ∧
      next = { unit with sources := unit.sources ++ [entry] } := by
  simp only [applyDirective] at h
  split at h
  · cases h
  · next hnil =>
    split at h
    · cases h
    · next entry hentry => exact ⟨by simpa using hnil, entry, hentry, (Except.ok.inj h).symm⟩

theorem wellFormed_applyDirective {key : Key} (hunit : unit.WellFormed sourcesDir)
    (h : applyDirective sourcesDir unit key value = .ok next) : next.WellFormed sourcesDir := by
  obtain ⟨hslash, hbucket, hsources, harchive, hrefresh⟩ := hunit
  cases key with
  | hosts =>
    rw [applyDirective_hosts h]
    exact ⟨hslash, hbucket, hsources, harchive, hrefresh⟩
  | flags =>
    obtain ⟨hnext, hexclusive⟩ := applyDirective_flags h
    have hlead := hexclusive (.lead, .trail) (by decide)
    rw [hnext] at hlead ⊢
    exact ⟨hslash, hlead, hsources, harchive, hrefresh⟩
  | deb | pre | post | package =>
    rw [(setOnce_eq_ok h).2]
    exact ⟨hslash, hbucket, hsources, harchive, hrefresh⟩
  | repo =>
    obtain ⟨-, ⟨-, rfl⟩ | rfl⟩ := applyDirective_repo h
    · exact ⟨hslash, hbucket, hsources, harchive, hrefresh⟩
    · exact ⟨hslash, hbucket, hsources, harchive, hrefresh⟩
  | source =>
    obtain ⟨-, entry, hentry, rfl⟩ := applyDirective_source h
    refine ⟨hslash, hbucket, ?_, harchive, hrefresh⟩
    intro source hsource
    rw [List.mem_append, List.mem_singleton] at hsource
    rcases hsource with hsource | rfl
    · exact hsources source hsource
    · obtain ⟨_, _, file, -, hfile, -, rfl⟩ := sourceEntry?_eq_some hentry
      exact ⟨file, Path.isName_of_fileName? hfile, rfl⟩

end Apply

/-! ## Whole documents -/

theorem wellFormed_fresh (sourcesDir : Path) {name : List Char} (h : IsUnitName name) :
    Installable.WellFormed sourcesDir { name := String.ofList name } where
  no_slash := by simpa using h.no_slash
  one_bucket := .inl rfl
  sources := by simp
  no_archive := rfl
  no_refresh := rfl

end Document

def Catalog.names (catalog : Catalog) : List String :=
  catalog.entries.map fun entry => entry.unit.name

structure Catalog.WellFormed (sourcesDir : Path) (catalog : Catalog) : Prop where
  units : ∀ entry ∈ catalog.entries, entry.unit.WellFormed sourcesDir
  distinct : catalog.names.Nodup

theorem Catalog.entry?_eq_none_iff {catalog : Catalog} {name : String} :
    catalog.entry? name = none ↔ name ∉ catalog.names := by
  simp [ entry?, names]

theorem Catalog.entry?_eq_some {catalog : Catalog} {name : String} {entry : Entry}
    (h : catalog.entry? name = some entry) : entry ∈ catalog.entries ∧ entry.unit.name = name := by
  unfold entry? at h
  have hname := List.find?_some h
  exact ⟨List.mem_of_find?_eq_some h, of_decide_eq_true hname⟩

theorem Catalog.names_snoc {entries : List Entry} {entry : Entry} :
    Catalog.names ⟨entries ++ [entry]⟩ = Catalog.names ⟨entries⟩ ++ [entry.unit.name] := by
  simp [names]

namespace Document

/-- What has been read so far is well formed, and so is the open unit. -/
structure Reading.WellFormed (sourcesDir : Path) (reading : Reading) : Prop where
  catalog : reading.catalog.WellFormed sourcesDir
  draft : ∀ draft, reading.draft? = some draft → draft.unit.WellFormed sourcesDir

theorem Reading.WellFormed.close {sourcesDir : Path} {reading closed : Reading}
    (hreading : reading.WellFormed sourcesDir) (h : reading.close = .ok closed) :
    closed.WellFormed sourcesDir := by
  rcases close_eq_ok_iff.mp h with ⟨-, rfl⟩ | ⟨draft, hdraft, -, hentry, rfl⟩
  · exact hreading
  · refine ⟨⟨?_, ?_⟩, by simp⟩
    · intro entry hmem
      rw [List.mem_append, List.mem_singleton] at hmem
      rcases hmem with hmem | rfl
      · exact hreading.catalog.units entry hmem
      · exact hreading.draft draft hdraft
    · rw [Catalog.names_snoc, List.nodup_append]
      refine ⟨hreading.catalog.distinct, by simp, ?_⟩
      rintro name hname _ hother rfl
      exact Catalog.entry?_eq_none_iff.mp hentry (List.mem_singleton.mp hother ▸ hname)

theorem Reading.WellFormed.feed {sourcesDir : Path} {reading next : Reading} {line : Line}
    (hreading : reading.WellFormed sourcesDir) (h : reading.feed sourcesDir line = .ok next) :
    next.WellFormed sourcesDir := by
  rcases feed_eq_ok h with ⟨-, rfl⟩ | ⟨-, -, h⟩ | ⟨-, -, h⟩
  · exact hreading
  · obtain ⟨key, value, draft, unit, -, hdraft, -, happly, rfl⟩ := directiveLine_eq_ok_iff.mp h
    refine ⟨hreading.catalog, ?_⟩
    rintro _ ⟨rfl⟩
    exact wellFormed_applyDirective (hreading.draft draft hdraft) happly
  · obtain ⟨hname, closed, hclose, -, rfl⟩ := unitLine_eq_ok_iff.mp h
    refine ⟨(hreading.close hclose).catalog, ?_⟩
    rintro _ ⟨rfl⟩
    exact wellFormed_fresh sourcesDir hname

/-- Every document that is accepted declares well-formed units under distinct names. -/
theorem wellFormed_of_parse {sourcesDir : Path} {text : List Char} {catalog : Catalog}
    (h : parse sourcesDir text = .ok catalog) : catalog.WellFormed sourcesDir := by
  obtain ⟨reading, closed, hfold, hclose, rfl⟩ := ofLines_eq_ok_iff.mp h
  have hstart : Reading.WellFormed sourcesDir {} := ⟨⟨by simp, List.nodup_nil⟩, by simp⟩
  have hreading := foldlM_preserves (fun _ _ _ hb hf => Reading.WellFormed.feed hb hf) hstart hfold
  exact (hreading.close hclose).catalog

end Document

end Provision
