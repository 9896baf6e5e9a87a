import Mathlib.Data.List.Nodup
import Provision.Proofs.Run.Launch
import Provision.Proofs.Run.Ledger

/-!
# Scripts that run once

However often documents are run over the same files, a marker is there just if it was there at the
beginning or a real run has left it after its script succeeded. From then on no run calls that
script again while it may run once only.
-/

namespace Provision

namespace Launch

/-- The run calls the script of a unit for a phase, with this result. -/
def Calls (launch : Launch) (files : Files) (name : String) (phase : Phase)
    (result : Except Failure String) : Prop :=
  ∃ before text shown after,
    launch.trace files = before ++ .called (.runScript text) result shown :: after ∧
    scene before = ⟨some name, some (.ofPhase phase)⟩

/-- The run leaves a marker right after a script that earned it. -/
def Marks (launch : Launch) (files : Files) (name : String) (phase : Phase) : Prop :=
  ∃ unit ∈ launch.units, unit.name = name ∧ ∃ before after, launch.trace files =
    before ++ .createdMarker (launch.setting.markers.path name phase) :: after ∧
    Earned launch.setting unit phase before

/-- A run of an accepted document, fresh or run before, whose collaborators leave the markers
alone. -/
structure Regular (store : MarkerStore) (sourcesDir : Path) (launch : Launch) : Prop where
  markers : launch.setting.markers = store
  document : ∃ text, Document.parse sourcesDir text = .ok launch.catalog.declared
  spare : launch.setting.collaborators.Spare store.root

/-! ## One run -/

section

variable {store : MarkerStore} {sourcesDir : Path} {files : Files} {launch : Launch}

theorem Regular.wellFormed (h : launch.Regular store sourcesDir) :
    ∀ unit ∈ launch.units, unit.declared.WellFormed sourcesDir :=
  OfDocument.wellFormed h.document

theorem Regular.eq_of_name_eq (h : launch.Regular store sourcesDir) {unit other : Installable}
    (hunit : unit ∈ launch.units) (hother : other ∈ launch.units) (hname : unit.name = other.name) :
    unit = other := by
  obtain ⟨text, hparse⟩ := h.document
  have hdistinct := (Document.wellFormed_of_parse hparse).distinct
  have hnames : (launch.units.map Installable.name).Nodup := by
    simpa [units, Catalog.declared, Catalog.names, Function.comp_def] using hdistinct
  exact List.inj_on_of_nodup_map hnames hunit hother hname

/-- Where markers and source files go: two directories of a file tree, the second one not in the
first. -/
structure Ground (store : MarkerStore) (sourcesDir : Path) (files : Files) : Prop where
  root : store.root.IsStraight
  sources : sourcesDir.IsStraight
  apart : ¬ store.root.place files.cwd <+: sourcesDir.place files.cwd
  tree : files.IsTree

variable (hground : Ground store sourcesDir files) (hregular : launch.Regular store sourcesDir)

include hground hregular

theorem ledger : Ledger launch.setting launch.units files (launch.run files).1.session := by
  have hmarkers := hregular.markers
  have hkempt : Kempt launch.setting sourcesDir launch.units files :=
    ⟨hmarkers ▸ hground.root, hground.sources, hmarkers ▸ hground.apart,
      hmarkers ▸ hregular.spare, hregular.wellFormed⟩
  exact ledger_of_run launch.strict
    ⟨launch.progress, launch.catalog, { files, interrupted := launch.interrupted }⟩
    rfl hground.tree hkempt

theorem Ground.after : Ground store sourcesDir (launch.after files) := by
  have hledger := ledger hground hregular
  have hcwd : (launch.after files).cwd = files.cwd := hledger.cwd
  exact ⟨hground.root, hground.sources, hcwd ▸ hground.apart, hledger.tree⟩

theorem has_after_iff {name : String} (hname : '/' ∉ name.toList) (phase : Phase) :
    store.has (launch.after files) name phase = true ↔
      store.has files name phase = true ∨ launch.Marks files name phase := by
  have hledger := ledger hground hregular
  have hhas := hledger.has name phase hname
  rw [hregular.markers] at hhas
  rw [after, hhas]
  refine or_congr_right ⟨fun hmem => ?_, ?_⟩
  · obtain ⟨before, after, htrace⟩ := List.append_of_mem hmem
    obtain ⟨unit, hunit, second, hpath, hearned⟩ := hledger.follows before _ after htrace
    have hslash : '/' ∉ unit.name.toList := (hregular.wellFormed unit hunit).no_slash
    rw [hregular.markers, MarkerStore.path_inj hname hslash] at hpath
    obtain ⟨rfl, rfl⟩ := hpath
    exact ⟨unit, hunit, rfl, before, after, hregular.markers ▸ htrace, hearned⟩
  · rintro ⟨-, -, -, before, after, htrace, -⟩
    rw [← hregular.markers, show (launch.run files).1.session.trace = _ from htrace]
    simp

theorem not_calls_of_has {unit : Installable} (hunit : unit ∈ launch.units) {phase : Phase}
    (honce : unit.isOnce phase = true) (hhas : store.has files unit.name phase = true)
    (result : Except Failure String) : ¬ launch.Calls files unit.name phase result := by
  rintro ⟨before, text, shown, after, htrace, hscene⟩
  have hledger := ledger hground hregular
  obtain ⟨other, hother, second, hsame, -, hunmarked⟩ := hledger.follows before _ after htrace
  rw [hscene, Scene.mk.injEq, Option.some.injEq, Option.some.injEq] at hsame
  obtain rfl := hregular.eq_of_name_eq hunit hother hsame.1
  obtain rfl : phase = second := by
    cases phase <;> cases second <;> first | rfl | simp [Step.ofPhase] at hsame
  have hnone := (hunmarked honce).1
  rw [hregular.markers, hhas] at hnone
  cases hnone

omit hground

/-- A marker is left by a real run, for a unit that selection lets through, after a script that
succeeded. -/
theorem not_marks {name : String} {phase : Phase}
    (h : launch.setting.dryRun = true ∨
      (∃ unit ∈ launch.units, unit.name = name ∧ ∃ cause, launch.setting.criteria.judge unit
        launch.setting.snapshot launch.setting.hostname = .skip cause) ∨
      ∀ result, launch.Calls files name phase result → result.isOk = false) :
    ¬ launch.Marks files name phase := by
  rintro ⟨unit, hunit, rfl, before, after, htrace, hreal, -, ⟨forced, hinstall⟩, text, answer, shown,
    earlier, -, hscene, rfl⟩
  rcases h with hdry | ⟨other, hother, hname, cause, hskip⟩ | hfailed
  · rw [hreal] at hdry
    cases hdry
  · obtain rfl := hregular.eq_of_name_eq hother hunit hname
    rw [hinstall] at hskip
    cases hskip
  · have hcalls : launch.Calls files unit.name phase (.ok answer) :=
      ⟨earlier, text, shown, _, by simpa using htrace, hscene⟩
    cases hfailed _ hcalls

end

/-! ## All runs -/

section

variable {store : MarkerStore} {sourcesDir : Path} {files : Files} {launches : List Launch}

def MarkedBy (files : Files) (launches : List Launch) (name : String) (phase : Phase) : Prop :=
  ∃ before launch after, launches = before ++ launch :: after ∧
    launch.Marks (afterAll files before) name phase

theorem markedBy_cons (launch : Launch) (rest : List Launch) (name : String) (phase : Phase) :
    MarkedBy files (launch :: rest) name phase ↔
      launch.Marks files name phase ∨ MarkedBy (launch.after files) rest name phase := by
  constructor
  · rintro ⟨before, second, after, hsplit, hmarks⟩
    cases before with
    | nil =>
      obtain ⟨rfl, rfl⟩ := List.cons.inj hsplit
      exact .inl hmarks
    | cons first before =>
      obtain ⟨rfl, rfl⟩ := List.cons.inj hsplit
      exact .inr ⟨before, second, after, rfl, hmarks⟩
  · rintro (hmarks | ⟨before, second, after, rfl, hmarks⟩)
    · exact ⟨[], launch, rest, rfl, hmarks⟩
    · exact ⟨launch :: before, second, after, rfl, hmarks⟩

theorem Ground.afterAll (hground : Ground store sourcesDir files)
    (hregular : ∀ launch ∈ launches, launch.Regular store sourcesDir) :
    Ground store sourcesDir (afterAll files launches) := by
  induction launches generalizing files with
  | nil => exact hground
  | cons launch rest ih =>
    rw [List.forall_mem_cons] at hregular
    exact ih (hground.after hregular.1) hregular.2

theorem has_afterAll_iff (hground : Ground store sourcesDir files)
    (hregular : ∀ launch ∈ launches, launch.Regular store sourcesDir) {name : String}
    (hname : '/' ∉ name.toList) (phase : Phase) :
    store.has (afterAll files launches) name phase = true ↔
      store.has files name phase = true ∨ MarkedBy files launches name phase := by
  induction launches generalizing files with
  | nil => simp [afterAll, MarkedBy]
  | cons launch rest ih =>
    rw [List.forall_mem_cons] at hregular
    rw [markedBy_cons, ← or_assoc, ← has_after_iff hground hregular.1 hname]
    exact ih (hground.after hregular.1) hregular.2

/-- What holds of the markers of scripts that may run once only. -/
structure RunOnce (store : MarkerStore) (files : Files) (launches : List Launch) : Prop where
  marked : ∀ name phase, '/' ∉ name.toList →
    (store.has (afterAll files launches) name phase = true ↔
      store.has files name phase = true ∨ MarkedBy files launches name phase)
  never_again : ∀ before later after, launches = before ++ later :: after →
    ∀ unit ∈ later.units, ∀ phase result, unit.isOnce phase = true →
    store.has files unit.name phase = true ∨ MarkedBy files before unit.name phase →
    ¬ later.Calls (afterAll files before) unit.name phase result
  earned : ∀ before launch after, launches = before ++ launch :: after →
    ∀ front path back, launch.trace (afterAll files before) = front ++ .createdMarker path :: back →
    ∃ unit ∈ launch.units, ∃ phase, path = store.path unit.name phase ∧
      Earned launch.setting unit phase front
  unmarked : ∀ before launch after, launches = before ++ launch :: after →
    ∀ name phase, '/' ∉ name.toList → (launch.setting.dryRun = true ∨
      (∃ unit ∈ launch.units, unit.name = name ∧ ∃ cause, launch.setting.criteria.judge unit
        launch.setting.snapshot launch.setting.hostname = .skip cause) ∨
      ∀ result, launch.Calls (afterAll files before) name phase result → result.isOk = false) →
    store.has (launch.after (afterAll files before)) name phase =
      store.has (afterAll files before) name phase

/-- However often documents are run, a script that may run once only has run with success once. -/
theorem runOnce_of_runs (hground : Ground store sourcesDir files)
    (hregular : ∀ launch ∈ launches, launch.Regular store sourcesDir) :
    RunOnce store files launches := by
  have hsplit {before after : List Launch} {launch : Launch}
      (h : launches = before ++ launch :: after) : launch.Regular store sourcesDir ∧
        Ground store sourcesDir (afterAll files before) ∧
        ∀ earlier ∈ before, earlier.Regular store sourcesDir := by
    subst h
    have hbefore : ∀ earlier ∈ before, earlier.Regular store sourcesDir :=
      fun earlier hmem => hregular earlier (List.mem_append_left _ hmem)
    exact ⟨hregular launch (by simp), hground.afterAll hbefore, hbefore⟩
  refine ⟨fun name phase hname => has_afterAll_iff hground hregular hname phase, ?_, ?_, ?_⟩
  · intro before later after h unit hunit phase result honce hmarked
    obtain ⟨hlater, hfound, hbefore⟩ := hsplit h
    have hslash : '/' ∉ unit.name.toList := (hlater.wellFormed unit hunit).no_slash
    rw [← has_afterAll_iff hground hbefore hslash] at hmarked
    exact not_calls_of_has hfound hlater hunit honce hmarked result
  · intro before launch after h front path back htrace
    obtain ⟨hlaunch, hfound, -⟩ := hsplit h
    have hrule := (ledger hfound hlaunch).follows front _ back htrace
    rwa [MarkerRule, hlaunch.markers] at hrule
  · intro before launch after h name phase hname hcause
    obtain ⟨hlaunch, hfound, -⟩ := hsplit h
    rw [Bool.eq_iff_iff, has_after_iff hfound hlaunch hname]
    exact or_iff_left (not_marks hlaunch hcause)

end

/-! ## A marker of a skipped unit -/

/-- A run of a unit whose archive turns out to be installed after its pre script has run. -/
def ofInstalledArchive : Launch where
  setting :=
    { collaborators := ⟨fun _ call files =>
        { result := .ok (match call with
            | .fetch _ => "work/a.deb"
            | .nameOf _ => "a.deb"
            | _ => "")
          files }⟩
      snapshot := ⟨["a.deb"]⟩
      markers := ⟨⟨"sem"⟩⟩
      hostname := "host" }
  catalog := ⟨[⟨1,
    { name := "a", delivery := .downloadedArchive, url? := some "http://x/a.deb"
      preScript? := some "echo", flags := [.preOnce] }⟩]⟩

theorem regular_ofInstalledArchive : ofInstalledArchive.Regular ⟨⟨"sem"⟩⟩ ⟨"sources"⟩ where
  markers := rfl
  document := ⟨"a:\n  deb: http://x/a.deb\n  pre: echo\n  flags: pre_once\n".toList,
    by decide +kernel⟩
  spare := ⟨fun _ _ _ h => h, fun _ _ _ => rfl, fun _ _ _ _ _ => rfl⟩

theorem ground_of_no_files : Ground ⟨⟨"sem"⟩⟩ ⟨"sources"⟩ {} where
  root := by unfold Path.IsStraight; decide +kernel
  sources := by unfold Path.IsStraight; decide +kernel
  apart := by decide +kernel
  tree := Files.isTree_of_no_nodes _

theorem runOnce_of_two_runs :
    Ground ⟨⟨"sem"⟩⟩ ⟨"sources"⟩ {} ∧
    (∀ launch ∈ [ofInstalledArchive, ofInstalledArchive],
      launch.Regular ⟨⟨"sem"⟩⟩ ⟨"sources"⟩) ∧
    RunOnce ⟨⟨"sem"⟩⟩ {} [ofInstalledArchive, ofInstalledArchive] := by
  have hregular : ∀ launch ∈ [ofInstalledArchive, ofInstalledArchive],
      launch.Regular ⟨⟨"sem"⟩⟩ ⟨"sources"⟩ := by
    simpa using regular_ofInstalledArchive
  exact ⟨ground_of_no_files, hregular, runOnce_of_runs ground_of_no_files hregular⟩

/-- The script of a unit that is skipped only when its archive has been fetched leaves its marker
all the same. -/
theorem marker_of_unit_skipped_in_retrieval :
    Ground ⟨⟨"sem"⟩⟩ ⟨"sources"⟩ {} ∧ ofInstalledArchive.Regular ⟨⟨"sem"⟩⟩ ⟨"sources"⟩ ∧
    (ofInstalledArchive.run {}).1.progress.report.units.map (fun r => (r.name, r.outcome)) =
      [("a", .skipped (.archiveInstalled "a.deb"))] ∧
    MarkerStore.has ⟨⟨"sem"⟩⟩ {} "a" .pre = false ∧
    MarkerStore.has ⟨⟨"sem"⟩⟩ (ofInstalledArchive.after {}) "a" .pre = true :=
  ⟨ground_of_no_files, regular_ofInstalledArchive, by decide +kernel, by decide +kernel,
    by decide +kernel⟩

end Launch

end Provision
