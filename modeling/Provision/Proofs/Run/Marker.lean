import Provision.Proofs.Files.Lasting
import Provision.Run.Marker

/-!
# The store of markers

The markers of a directory are a set of units and phases. Each has an entry of the directory to
itself, and making one adds it to the set and takes none away.
-/

namespace Provision.MarkerStore

open Files

def markName (unit : String) (phase : Phase) : String := unit ++ "." ++ phase.onceFlag.token

theorem path_eq (store : MarkerStore) (unit : String) (phase : Phase) :
    store.path unit phase = store.root.join (markName unit phase) := rfl

/-- How a marker comes to be made, or not: first its directory, then the file in it. -/
inductive Created (store : MarkerStore) (files : Files) (unit : String) (phase : Phase) :
    Files × Except Failure Path → Prop
  | done {made written : Files} (making : files.makeDirectories store.root = (made, none))
      (writing : made.write (store.path unit phase) ByteArray.empty = .ok written) :
      Created store files unit phase (written, .ok (store.path unit phase))
  | unwritten {made : Files} {fault : Fault}
      (making : files.makeDirectories store.root = (made, none))
      (writing : made.write (store.path unit phase) ByteArray.empty = .error fault) :
      Created store files unit phase (made, .error
        ⟨s!"Failed to create semaphore {(store.path unit phase).text}", [fault.message]⟩)
  | unmade {made : Files} {fault : Fault}
      (making : files.makeDirectories store.root = (made, some fault)) :
      Created store files unit phase (made, .error
        ⟨s!"Failed to create semaphore directory {store.root.text}", [fault.message]⟩)

theorem created (store : MarkerStore) (files : Files) (unit : String) (phase : Phase) :
    store.Created files unit phase (store.create files unit phase) := by
  unfold create
  split
  · next made fault hmade => exact .unmade hmade
  · next made hmade =>
    simp only
    split
    · next written hwrite => exact .done hmade hwrite
    · next fault hwrite => exact .unwritten hmade hwrite

theorem isName_markName {unit : String} (h : '/' ∉ unit.toList) (phase : Phase) :
    Path.IsName (markName unit phase) := by
  have hlength : 2 < (markName unit phase).toList.length := by
    cases phase <;> simp [markName, Phase.onceFlag, Flag.token]
  have hslash : '/' ∉ (markName unit phase).toList := by
    cases phase <;> simp [markName, Phase.onceFlag, Flag.token, h]
  refine ⟨?_, ?_, ?_, hslash⟩ <;> intro he <;> rw [he] at hlength <;> simp at hlength

theorem markName_inj {unit other : String} {phase second : Phase} :
    markName unit phase = markName other second ↔ unit = other ∧ phase = second := by
  constructor
  · intro h
    -- Read from the end the two tokens differ before they reach the unit.
    have hreverse := congrArg (List.reverse ∘ String.toList) h
    cases phase <;> cases second <;>
      simp [markName, Phase.onceFlag, Flag.token, String.toList_inj] at hreverse ⊢ <;>
      exact hreverse
  · rintro ⟨rfl, rfl⟩
    rfl

def place (store : MarkerStore) (cwd : Location) (unit : String) (phase : Phase) : Location :=
  store.root.place cwd ++ [markName unit phase]

theorem has_iff {store : MarkerStore} {files : Files} (htree : files.IsTree)
    (hroot : store.root.IsStraight) {unit : String} (hunit : '/' ∉ unit.toList) (phase : Phase) :
    store.has files unit phase = true ↔ (store.path unit phase).Spellable ∧
      (files.at? (store.place files.cwd unit phase)).isSome :=
  exists?_join_iff htree hroot (isName_markName hunit phase)

theorem has_of_no_directory {store : MarkerStore} {files : Files} (htree : files.IsTree)
    (hroot : store.root.IsStraight)
    (h : files.at? (store.root.place files.cwd) ≠ some .directory) {unit : String}
    (hunit : '/' ∉ unit.toList) (phase : Phase) : store.has files unit phase = false := by
  rw [Bool.eq_false_iff, ne_eq, has_iff htree hroot hunit]
  rintro ⟨-, hsome⟩
  exact h (htree _ _ hsome)

theorem place_inj {store : MarkerStore} {cwd : Location} {unit other : String}
    {phase second : Phase} :
    store.place cwd unit phase = store.place cwd other second ↔ unit = other ∧ phase = second := by
  simp [place, markName_inj]

theorem path_inj {store : MarkerStore} {unit other : String} {phase second : Phase}
    (hunit : '/' ∉ unit.toList) (hother : '/' ∉ other.toList) :
    store.path unit phase = store.path other second ↔ unit = other ∧ phase = second := by
  constructor
  · intro h
    have hnames := congrArg Path.names h
    rw [path_eq, path_eq, Path.names_join _ (isName_markName hunit phase),
      Path.names_join _ (isName_markName hother second)] at hnames
    exact markName_inj.mp (by simpa using hnames)
  · rintro ⟨rfl, rfl⟩
    rfl

theorem has_of_at?_eq {store : MarkerStore} {before after : Files} (hbefore : before.IsTree)
    (hafter : after.IsTree) (hroot : store.root.IsStraight) (hcwd : after.cwd = before.cwd)
    {unit : String} (hunit : '/' ∉ unit.toList) {phase : Phase}
    (h : after.at? (store.place before.cwd unit phase) =
      before.at? (store.place before.cwd unit phase)) :
    store.has after unit phase = store.has before unit phase := by
  rw [Bool.eq_iff_iff, has_iff hbefore hroot hunit, has_iff hafter hroot hunit, hcwd, h]

theorem has_of_grows {store : MarkerStore} {fresh : Location → Node → Prop} {before after : Files}
    (htree : before.IsTree) (hroot : store.root.IsStraight) (h : Grows fresh before after)
    {unit : String} (hunit : '/' ∉ unit.toList) {phase : Phase}
    (hfresh : ∀ node, ¬ fresh (store.place before.cwd unit phase) node) :
    store.has after unit phase = store.has before unit phase :=
  has_of_at?_eq htree (h.tree htree) hroot h.cwd hunit (h.at?_of_not hfresh)

theorem place_not_prefix_root (store : MarkerStore) (cwd : Location) (unit : String)
    (phase : Phase) : ¬ store.place cwd unit phase <+: store.root.place cwd :=
  Path.not_snoc_prefix _ _

theorem has_makeDirectories {store : MarkerStore} {files : Files} (htree : files.IsTree)
    (hroot : store.root.IsStraight) {unit : String} (hunit : '/' ∉ unit.toList) (phase : Phase) :
    store.has (files.makeDirectories store.root).1 unit phase = store.has files unit phase :=
  has_of_grows htree hroot (makeDirectories_grows files hroot) hunit
    fun _ hfresh => place_not_prefix_root store files.cwd unit phase hfresh.1

theorem has_put {store : MarkerStore} {files : Files} (htree : files.IsTree)
    (hroot : store.root.IsStraight) {unit other : String} {phase second : Phase}
    (hother : '/' ∉ other.toList) (hspell : (store.path unit phase).Spellable)
    (hparent : files.at? (store.root.place files.cwd) = some .directory)
    (hfree : files.at? (store.place files.cwd unit phase) ≠ some .directory) (content : ByteArray) :
    store.has (files.put (store.place files.cwd unit phase) (.file content)) other second =
      (store.has files other second || decide (unit = other ∧ phase = second)) := by
  have hafter : (files.put (store.place files.cwd unit phase) (.file content)).IsTree :=
    htree.put (.file content) hparent hfree
  have hat := at?_put files _ (store.place files.cwd other second) (.file content)
    (not_isPrefixOf_cwd hfree)
  rw [Bool.eq_iff_iff, has_iff hafter hroot hother, Bool.or_eq_true, has_iff htree hroot hother,
    decide_eq_true_iff]
  by_cases hsame : unit = other ∧ phase = second
  · obtain ⟨rfl, rfl⟩ := hsame
    rw [if_pos rfl] at hat
    simp [hspell, hat]
  · rw [if_neg (by rwa [eq_comm, place_inj])] at hat
    simp [hat, hsame]

theorem create_snd_eq_ok {store : MarkerStore} {files : Files} {unit : String} {phase : Phase}
    {path : Path} (h : (store.create files unit phase).2 = .ok path) :
    path = store.path unit phase := by
  have hcreated := store.created files unit phase
  generalize store.create files unit phase = result at h hcreated
  cases hcreated with
  | done => exact (Except.ok.inj h).symm
  | unwritten | unmade => cases h

theorem create_lasts (store : MarkerStore) (files : Files) (unit : String) (phase : Phase) :
    Lasts files (store.create files unit phase).1 := by
  have hmade := makeDirectories_lasts files store.root
  have hcreated := store.created files unit phase
  generalize store.create files unit phase = result at hcreated ⊢
  cases hcreated with
  | done making writing =>
    rw [making] at hmade
    exact hmade.trans (write_lasts writing)
  | unwritten making | unmade making =>
    rw [making] at hmade
    exact hmade

/-- What comes of making a marker, as far as look-ups can tell. -/
structure Made (store : MarkerStore) (before after : Files) (unit : String) (phase : Phase)
    (made : Bool) : Prop where
  tree : after.IsTree
  cwd : after.cwd = before.cwd
  has : ∀ other second, '/' ∉ other.toList →
    store.has after other second =
      (store.has before other second || (made && decide (unit = other ∧ phase = second)))

theorem create_made {store : MarkerStore} {files : Files} (htree : files.IsTree)
    (hroot : store.root.IsStraight) {unit : String} (hunit : '/' ∉ unit.toList) (phase : Phase) :
    store.Made files (store.create files unit phase).1 unit phase
      (store.create files unit phase).2.isOk := by
  have hgrows := makeDirectories_grows files hroot
  have htree' := hgrows.tree htree
  have hhas (other : String) (second : Phase) (hother : '/' ∉ other.toList) :=
    has_makeDirectories htree hroot hother second
  have hfailed : store.Made files (files.makeDirectories store.root).1 unit phase false := by
    refine ⟨htree', hgrows.cwd, fun other second hother => ?_⟩
    rw [hhas other second hother, Bool.false_and, Bool.or_false]
  have hcreated := store.created files unit phase
  generalize store.create files unit phase = result at hcreated ⊢
  cases hcreated with
  | unmade making | unwritten making =>
    rw [making] at hfailed
    exact hfailed
  | done making writing =>
    rw [making] at hgrows htree' hhas
    obtain ⟨hspell, hparent, hfree, rfl⟩ :=
      write_join_eq_ok hroot (isName_markName hunit phase) writing
    refine ⟨htree'.put _ hparent hfree, hgrows.cwd, fun other second hother => ?_⟩
    rw [← hhas other second hother, ← place]
    exact has_put htree' hroot hother hspell hparent hfree ByteArray.empty

end Provision.MarkerStore
