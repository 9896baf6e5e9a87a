import Provision.Proofs.Run.Domain
import Provision.Proofs.Run.Strict

/-!
# Units in isolation

A run that goes on after failures does for every unit what it would do if the document had no other
one. So whatever becomes of a unit, it makes no difference to the others.
-/

namespace Provision

open Files

/-- What isolation relies on: two separate directories of a tree, which nobody else touches, and
collaborators that go by the call alone. Those that touch no file at all are an instance. -/
structure Secluded (setting : Setting) (sourcesDir : Path) (files : Files) : Prop where
  separate : Separate setting.markers sourcesDir files.cwd
  tree : files.IsTree
  root : setting.collaborators.Avoid setting.markers.root
  sources : setting.collaborators.Avoid sourcesDir
  byCall : setting.collaborators.ByCall

theorem Installable.Apart.symm {unit other : Installable} (h : unit.Apart other) :
    other.Apart unit :=
  ⟨h.name.symm, fun entry hentry second hsecond => (h.sources second hsecond entry hentry).symm⟩

/-! ## Tours -/

section Tour

variable {setting : Setting} {sourcesDir : Path} {start : Files} {unit : Installable}
  {units : List Installable} {session : Session}

/-- The tour of one unit from the beginning. -/
abbrev tourAlone (setting : Setting) (start : Files) (unit : Installable) : Tour :=
  tour setting false [unit] { files := start }

theorem tour_cons_of_ok {result : UnitResult}
    (h : (setting.visit session unit).result = .ok result) :
    tour setting false (unit :: units) session =
      (tour setting false units ((setting.visit session unit).session.note (.reported result))).cons
        ⟨unit, session⟩ := by
  simp [tour, h, abort?_of_lenient]

theorem free_of_tour (h : (tour setting false units session).session.interrupted = false) :
    session.interrupted = false := by
  by_contra harrived
  rw [Bool.not_eq_false] at harrived
  have hend : (tour setting false units session).session.interrupted = true :=
    tour_preserves (P := fun later => later.interrupted = true)
      (fun other _ later hlater => (visit_kept setting later other).interrupted hlater)
      (fun _ _ => id) harrived
  rw [h] at hend
  cases hend

theorem tour_eq_error {error : RunError}
    (h : (tour setting false units session).error? = some error) :
    error = .interrupted ∧ (tour setting false units session).session.interrupted = true ∨
      ∃ message, error = .environment message := by
  induction units generalizing session with
  | nil => simp [tour] at h
  | cons unit rest ih =>
    cases hvisit : (setting.visit session unit).result with
    | error own =>
      simp only [tour, hvisit] at h ⊢
      obtain rfl := Option.some.inj h
      exact visit_eq_error hvisit
    | ok result =>
      rw [tour_cons_of_ok hvisit] at h ⊢
      exact ih h

/-- The tour does for every unit what a tour of this unit alone does. -/
structure IsolatedTour (setting : Setting) (start : Files) (units : List Installable)
    (session : Session) : Prop where
  trace : (tour setting false units session).session.trace =
    session.trace ++ units.flatMap fun unit => (tourAlone setting start unit).session.trace
  results : (tour setting false units session).results setting =
    units.flatMap fun unit => (tourAlone setting start unit).results setting
  alone : ∀ unit ∈ units, (tourAlone setting start unit).error? = none ∧
    (tourAlone setting start unit).session.interrupted = false

theorem isolatedTour (hsecluded : Secluded setting sourcesDir start)
    (hunits : ∀ unit ∈ units, unit.WellFormed sourcesDir) (hpairs : units.Pairwise Installable.Apart)
    (hsame : ∀ unit ∈ units,
      SameFor setting.markers sourcesDir start.cwd unit session.files start)
    (herror : (tour setting false units session).error? = none)
    (hfree : (tour setting false units session).session.interrupted = false) :
    IsolatedTour setting start units session := by
  obtain ⟨hsep, htree, hroot, hsources, hcall⟩ := hsecluded
  induction units generalizing session with
  | nil => exact ⟨by simp [tour], by simp [tour, Tour.results], by simp⟩
  | cons unit rest ih =>
    rw [List.forall_mem_cons] at hunits hsame
    rw [List.pairwise_cons] at hpairs
    have hstart := free_of_tour hfree
    -- The unit cannot tell this session from the one of the run of this unit alone.
    have habreast : Separate.Abreast setting.markers sourcesDir start.cwd unit session.trace session
        { files := start } := ⟨hsame.1, hstart.symm, by simp⟩
    have hlock : Lockstep (Separate.Abreast setting.markers sourcesDir start.cwd unit session.trace)
        setting setting unit := hsep.lockstep rfl hroot hsources hcall hunits.1
    obtain ⟨⟨-, harrived, htrace⟩, hresult⟩ :=
      hlock.visit (fun h event => h.note event) (fun h => h.interrupted) habreast
    cases hvisit : (setting.visit session unit).result with
    | error error => simp [tour, hvisit] at herror
    | ok result =>
      rw [hvisit] at hresult
      have hwhole : tour setting false (unit :: rest) session = _ := tour_cons_of_ok hvisit
      have halone : tourAlone setting start unit = _ := tour_cons_of_ok hresult
      rw [hwhole] at herror hfree
      obtain ⟨hresttrace, hrestresults, hrestalone⟩ : IsolatedTour setting start rest
          ((setting.visit session unit).session.note (.reported result)) := by
        refine ih hunits.2 hpairs.2 (fun other hother => ?_) herror hfree
        have hvisited : SameFor setting.markers sourcesDir start.cwd other session.files
            (setting.visit session unit).session.files :=
          hsep.visit_apart rfl hroot hsources (hunits.2 other hother) hunits.1
            (hpairs.1 other hother).symm (hsame.2 other hother).left
        exact hvisited.symm.trans (hsame.2 other hother)
      have hown : (tourAlone setting start unit).results setting = [result] := by
        rw [halone]
        simp [Tour.results, Tour.cons, tour, Turn.result?_of_ok hresult]
      constructor
      case trace =>
        have hreported : ((setting.visit session unit).session.note (.reported result)).trace =
            session.trace ++ (tourAlone setting start unit).session.trace := by
          rw [halone]
          simp [tour, Tour.cons, Session.note, htrace]
        rw [List.flatMap_cons, ← List.append_assoc, ← hreported, ← hresttrace, hwhole]
        rfl
      case results =>
        rw [hwhole, List.flatMap_cons, hown, ← hrestresults]
        simp [Tour.results, Tour.cons, Turn.result?_of_ok hvisit]
      case alone =>
        refine List.forall_mem_cons.mpr ⟨?_, hrestalone⟩
        have hreported : ((setting.visit session unit).session.note
            (.reported result)).interrupted = false := free_of_tour hfree
        rw [halone]
        exact ⟨rfl, harrived.trans hreported⟩

end Tour

/-! ## Runs -/

/-- Units that all have source files of their own. -/
def Catalog.SharesNoSource (catalog : Catalog) : Prop :=
  catalog.entries.Pairwise fun entry other =>
    ∀ own ∈ entry.unit.sources, ∀ source ∈ other.unit.sources, own.path ≠ source.path

/-- The run of a catalog that holds this unit only. -/
def runAlone (setting : Setting) (files : Files) (entry : Entry) :
    RunState × Except RunError Report :=
  RunState.run setting false { catalog := ⟨[entry]⟩, session := { files } }

/-- A run that does for every unit what the run of this unit alone does. -/
structure Isolated (setting : Setting) (catalog : Catalog) (files : Files)
    (run : RunState × Except RunError Report) : Prop where
  /-- Alone each unit is reported about too, whether it fails or not. -/
  alone : ∀ entry ∈ catalog.entries, ∃ result, result.name = entry.unit.name ∧
    (runAlone setting files entry).2 = .ok ⟨[result]⟩ ∧
    (runAlone setting files entry).1.progress.report.units = [result]
  result : run.2 = .ok run.1.progress.report
  report : run.1.progress.report.units = catalog.runOrder.flatMap fun entry =>
    (runAlone setting files entry).1.progress.report.units
  trace : run.1.session.trace = catalog.runOrder.flatMap fun entry =>
    (runAlone setting files entry).1.session.trace
  calls : run.1.session.calls = catalog.runOrder.flatMap fun entry =>
    (runAlone setting files entry).1.session.calls

section Run

variable {sourcesDir : Path} {catalog : Catalog} {setting : Setting} {files : Files}

theorem wellFormed_singleton (hcatalog : catalog.WellFormed sourcesDir) {entry : Entry}
    (hentry : entry ∈ catalog.entries) : Catalog.WellFormed sourcesDir ⟨[entry]⟩ :=
  ⟨by simpa using hcatalog.units entry hentry, by simp [Catalog.names]⟩

theorem runOrder_singleton {entry : Entry} (h : entry.unit.OneBucket) :
    Catalog.runOrder ⟨[entry]⟩ = [entry] :=
  List.perm_singleton.mp (Catalog.runOrder_perm (by simpa using h))

section Alone

variable (hcatalog : catalog.WellFormed sourcesDir) {entry : Entry}
  (hentry : entry ∈ catalog.entries)

include hcatalog hentry

theorem runAlone_eq :
    (runAlone setting files entry).1.session = (tourAlone setting files entry.unit).session ∧
      (runAlone setting files entry).1.progress.report.units =
        (tourAlone setting files entry.unit).results setting := by
  have hsingle := wellFormed_singleton hcatalog hentry
  have hled := ledBy_of_fresh hsingle setting false files false
  have hunits := units_of_fresh hsingle setting false files false
  rw [runOrder_singleton (hcatalog.oneBucket entry hentry)] at hled hunits
  exact ⟨hled.session, hunits⟩

theorem runAlone_snd (herror : (tourAlone setting files entry.unit).error? = none)
    (hfree : (tourAlone setting files entry.unit).session.interrupted = false) :
    ∃ result, result.name = entry.unit.name ∧
      (runAlone setting files entry).2 = .ok ⟨[result]⟩ ∧
      (runAlone setting files entry).1.progress.report.units = [result] := by
  have hsingle := wellFormed_singleton hcatalog hentry
  have horder := runOrder_singleton (hcatalog.oneBucket entry hentry)
  have hsession : (runAlone setting files entry).1.session = _ := (runAlone_eq hcatalog hentry).1
  have hsnd : (runAlone setting files entry).2 =
      .ok (runAlone setting files entry).1.progress.report := by
    have hsnd := snd_of_fresh hsingle setting false files false
    rw [horder] at hsnd
    rw [runAlone] at hsession ⊢
    rw [hsnd, List.map_singleton, herror, hsession, hfree]
    rfl
  have hnames := (whole_of_fresh hsingle hsnd).2
  rw [horder, List.map_singleton, List.map_eq_singleton_iff] at hnames
  obtain ⟨result, hunits, hname⟩ := hnames
  refine ⟨result, hname, ?_, hunits⟩
  rw [hsnd, ← hunits]

end Alone

theorem pairwise_apart (hcatalog : catalog.WellFormed sourcesDir) (hsources : catalog.SharesNoSource) :
    (catalog.runOrder.map Entry.unit).Pairwise Installable.Apart := by
  have hnames : catalog.entries.Pairwise fun entry other => entry.unit.name ≠ other.unit.name :=
    List.pairwise_map.mp hcatalog.distinct
  have hentries : catalog.entries.Pairwise fun entry other => entry.unit.Apart other.unit :=
    (hnames.and hsources).imp fun ⟨hname, hsource⟩ => ⟨hname, hsource⟩
  rw [List.pairwise_map]
  exact (Catalog.runOrder_perm hcatalog.oneBucket).symm.pairwise hentries Installable.Apart.symm

end Run

/-- The package `a` cannot be installed, and all other calls succeed. -/
def Setting.withoutA : Setting where
  collaborators := ⟨fun _ call files =>
    { result := if call = .reinstall "a" then .error ⟨"no package", []⟩ else .ok "", files }⟩
  markers := ⟨⟨"var/sem"⟩⟩
  hostname := "host"

/-- The catalog of a document whose units have source files and scripts that run once. -/
def Catalog.ofNeighbours : Catalog :=
  ⟨[⟨1,
      { name := "a", sources := [⟨⟨"var/sources/a.list"⟩, "deb a"⟩], preScript? := some "p"
        flags := [.preOnce] }⟩,
    ⟨5, { name := "b", sources := [⟨⟨"var/sources/b.list"⟩, "deb b"⟩], flags := [.lead] }⟩,
    ⟨8, { name := "c", preScript? := some "p", flags := [.preOnce] }⟩]⟩

theorem secluded_withoutA : Secluded .withoutA ⟨"var/sources"⟩ {} where
  separate := {
    root := by unfold Path.IsStraight; decide +kernel
    sources := by unfold Path.IsStraight; decide +kernel
    root_out := by decide +kernel
    sources_out := by decide +kernel }
  tree := isTree_of_no_nodes _
  root := .of_files_eq _ fun _ _ _ => rfl
  sources := .of_files_eq _ fun _ _ _ => rfl
  byCall := ⟨fun _ _ _ _ _ => rfl, fun _ _ _ _ _ => rfl, fun _ _ _ _ _ => rfl⟩

/-- The script `meddle`, and no other call, leaves an empty file where unit `b` has a source file. -/
def Setting.meddling : Setting where
  collaborators := ⟨fun _ call files =>
    let made := (files.makeParent ⟨"var/sources/b.list"⟩).1
    { result := .ok ""
      files := if call = .runScript "meddle" then
          (made.write ⟨"var/sources/b.list"⟩ ByteArray.empty).toOption.getD made
        else files }⟩
  markers := ⟨⟨"var/sem"⟩⟩
  hostname := "host"

/-- The catalog of a document whose first unit has this script. -/
def Catalog.ofMeddler : Catalog :=
  ⟨[⟨1, { name := "a", preScript? := some "meddle", flags := [.lead, .virtual] }⟩,
    ⟨4, { name := "b", sources := [⟨⟨"var/sources/b.list"⟩, "deb b"⟩], flags := [.virtual] }⟩]⟩

end Provision
