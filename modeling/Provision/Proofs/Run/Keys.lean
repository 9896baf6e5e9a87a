import Provision.Proofs.Files.Components
import Provision.Proofs.Run.Marker

/-!
# Markers as a set of keys

What has been marked is a set of units and phases. Making a marker that goes well adds its key, one
that fails adds none, and no file but the markers changes. So a directory of markers that was not
there holds just those that were made.
-/

namespace Provision.MarkerStore

open Files

/-- What a marker stands for. -/
@[ext]
structure Key where
  unit : String
  phase : Phase
  no_slash : '/' ∉ unit.toList
deriving DecidableEq

/-- Makes one marker after the other, and tells for which of them that went well. -/
def createAll (store : MarkerStore) (files : Files) : List Key → Files × List Key
  | [] => (files, [])
  | key :: rest =>
    let (made, result) := store.create files key.unit key.phase
    let (after, done) := store.createAll made rest
    (after, if result.isOk then key :: done else done)

/-- The keys are marked now, and all else that was asked for or written is as it was. -/
structure Adds (store : MarkerStore) (before after : Files) (keys : List Key) : Prop where
  tree : after.IsTree
  lasts : before.Lasts after
  has : ∀ key : Key, store.has after key.unit key.phase = true ↔
    store.has before key.unit key.phase = true ∨ key ∈ keys
  file : ∀ l content, (∀ key ∈ keys, l ≠ store.place before.cwd key.unit key.phase) →
    (after.at? l = some (.file content) ↔ before.at? l = some (.file content))

namespace Adds

variable {store : MarkerStore} {a b c : Files} {keys more : List Key}

theorem refl (htree : a.IsTree) : store.Adds a a [] where
  tree := htree
  lasts := .refl a
  has _ := by simp
  file _ _ _ := Iff.rfl

theorem trans (hab : store.Adds a b keys) (hbc : store.Adds b c more) :
    store.Adds a c (keys ++ more) where
  tree := hbc.tree
  lasts := hab.lasts.trans hbc.lasts
  has key := by rw [hbc.has, hab.has, List.mem_append, or_assoc]
  file l content hl := by
    rw [List.forall_mem_append] at hl
    rw [hbc.file l content (by rw [hab.lasts.cwd]; exact hl.2), hab.file l content hl.1]

end Adds

variable {store : MarkerStore} {files : Files} {key : Key}

theorem file_create (hroot : store.root.IsStraight) (l : Location) (content : ByteArray)
    (hl : (store.create files key.unit key.phase).2.isOk = true →
      l ≠ store.place files.cwd key.unit key.phase) :
    (store.create files key.unit key.phase).1.at? l = some (.file content) ↔
      files.at? l = some (.file content) := by
  have hgrows := makeDirectories_grows files hroot
  have hcreated := store.created files key.unit key.phase
  generalize store.create files key.unit key.phase = result at hcreated hl ⊢
  cases hcreated with
  | @done made _ making writing =>
    rw [making] at hgrows
    have hcwd : made.cwd = files.cwd := hgrows.cwd
    obtain ⟨-, -, hfree, rfl⟩ :=
      write_join_eq_ok hroot (isName_markName key.no_slash key.phase) writing
    rw [hcwd, ← place] at hfree ⊢
    rw [at?_put _ _ _ _ (not_isPrefixOf_cwd hfree), if_neg (hl rfl)]
    exact file_iff_of_grows hgrows l content
  | unwritten making | unmade making =>
    rw [making] at hgrows
    exact file_iff_of_grows hgrows l content

theorem adds_create (htree : files.IsTree) (hroot : store.root.IsStraight) (key : Key) :
    store.Adds files (store.create files key.unit key.phase).1
      (if (store.create files key.unit key.phase).2.isOk then [key] else []) := by
  have hmade := create_made htree hroot key.no_slash key.phase
  constructor
  case tree => exact hmade.tree
  case lasts => exact create_lasts store files key.unit key.phase
  case has =>
    intro other
    rw [hmade.has other.unit other.phase other.no_slash]
    -- Keys with one name and one phase are the same key.
    have hsame : key.unit = other.unit ∧ key.phase = other.phase ↔ other = key := by
      rw [← Key.ext_iff, eq_comm]
    cases (store.create files key.unit key.phase).2.isOk <;> simp [hsame]
  case file =>
    intro l content hl
    refine file_create hroot l content fun hok => ?_
    rw [hok] at hl
    exact hl key List.mem_cons_self

theorem adds_createAll (htree : files.IsTree) (hroot : store.root.IsStraight) (keys : List Key) :
    store.Adds files (store.createAll files keys).1 (store.createAll files keys).2 := by
  induction keys generalizing files with
  | nil => exact .refl htree
  | cons key rest ih =>
    have hfirst := adds_create htree hroot key
    have hboth := hfirst.trans (ih hfirst.tree)
    unfold createAll
    simp only
    cases hok : (store.create files key.unit key.phase).2.isOk <;> rw [hok] at hboth <;> exact hboth

/-- A store is a set of keys: each has an entry of the directory to itself, a marker that is made
adds its key, one that is not made adds none, and from no directory come just the markers that were
made. -/
theorem store_is_set (hroot : store.root.IsStraight) :
    (∀ key other : Key,
      store.path key.unit key.phase = store.path other.unit other.phase ↔ key = other) ∧
    (∀ key : Key, Path.IsName (markName key.unit key.phase) ∧
      (store.path key.unit key.phase).components =
        store.root.components ++ [.name (markName key.unit key.phase)]) ∧
    ∀ files : Files, files.IsTree →
      (∀ (key : Key) path, (store.create files key.unit key.phase).2 = .ok path →
        path = store.path key.unit key.phase ∧
          store.Adds files (store.create files key.unit key.phase).1 [key]) ∧
      (∀ (key : Key) failure, (store.create files key.unit key.phase).2 = .error failure →
        store.Adds files (store.create files key.unit key.phase).1 []) ∧
      ∀ keys, store.Adds files (store.createAll files keys).1 (store.createAll files keys).2 ∧
        (files.at? (store.root.place files.cwd) ≠ some .directory → ∀ key : Key,
          (store.has (store.createAll files keys).1 key.unit key.phase = true ↔
            key ∈ (store.createAll files keys).2)) := by
  refine ⟨fun key other => ?_, fun key => ?_, fun files htree => ⟨?_, ?_, fun keys => ?_⟩⟩
  · rw [path_inj key.no_slash other.no_slash, Key.ext_iff]
  · have hname := isName_markName key.no_slash key.phase
    exact ⟨hname, Path.components_join store.root hname⟩
  · intro key path hcreate
    have hadds := adds_create htree hroot key
    rw [hcreate] at hadds
    exact ⟨create_snd_eq_ok hcreate, hadds⟩
  · intro key failure hcreate
    have hadds := adds_create htree hroot key
    rwa [hcreate] at hadds
  · have hadds := adds_createAll htree hroot keys
    refine ⟨hadds, fun hnone key => ?_⟩
    rw [hadds.has, has_of_no_directory htree hroot hnone key.no_slash]
    simp

def nestedStore : MarkerStore := ⟨⟨"v/sem"⟩⟩

/-- A unit that is named like a marker of another, and one whose name no file can have. -/
def oddKeys : List Key :=
  [⟨"a", .pre, by decide⟩, ⟨"a.pre_once", .post, by decide⟩, ⟨"a\x00", .pre, by decide⟩,
    ⟨"a", .pre, by decide⟩]

def oddDone : List Key :=
  [⟨"a", .pre, by decide⟩, ⟨"a.pre_once", .post, by decide⟩, ⟨"a", .pre, by decide⟩]

theorem store_is_set_of_odd_keys :
    (nestedStore.create {} "a" .pre).2 = .ok ⟨"v/sem/a.pre_once"⟩ ∧
    nestedStore.Adds {} (nestedStore.create {} "a" .pre).1 [⟨"a", .pre, by decide⟩] ∧
    (nestedStore.create {} "a\x00" .pre).2 =
      .error ⟨"Failed to create semaphore v/sem/a\x00.pre_once",
        ["file name contained an unexpected NUL byte"]⟩ ∧
    nestedStore.Adds {} (nestedStore.create {} "a\x00" .pre).1 [] ∧
    (nestedStore.createAll {} oddKeys).2 = oddDone ∧
    ∀ key : Key, nestedStore.has (nestedStore.createAll {} oddKeys).1 key.unit key.phase = true ↔
      key ∈ oddDone := by
  have hroot : nestedStore.root.IsStraight := by
    unfold Path.IsStraight
    decide +kernel
  obtain ⟨-, -, hfiles⟩ := store_is_set hroot
  obtain ⟨hok, herror, hall⟩ := hfiles {} (isTree_of_no_nodes ["home"])
  have hmade : (nestedStore.create {} "a" .pre).2 = .ok ⟨"v/sem/a.pre_once"⟩ := by decide +kernel
  have hfailed : (nestedStore.create {} "a\x00" .pre).2 =
      .error ⟨"Failed to create semaphore v/sem/a\x00.pre_once",
        ["file name contained an unexpected NUL byte"]⟩ := by decide +kernel
  have hdone : (nestedStore.createAll {} oddKeys).2 = oddDone := by decide +kernel
  refine ⟨hmade, (hok ⟨"a", .pre, by decide⟩ _ hmade).2, hfailed,
    herror ⟨"a\x00", .pre, by decide⟩ _ hfailed, hdone, fun key => ?_⟩
  rw [← hdone]
  exact (hall oddKeys).2 (by decide +kernel) key

end Provision.MarkerStore
