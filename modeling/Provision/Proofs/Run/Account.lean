import Mathlib.Data.List.Flatten
import Provision.Proofs.Document.WellFormed
import Provision.Proofs.Run.Tour

/-!
# The account of a run

What a run reports is about the first units of its order, each once. If nothing ends the run early
it is about all of them, and a run that a failure has aborted was strict and reports this failure
last.
-/

namespace Provision

/-! ## The order of a run -/

namespace Catalog

theorem WellFormed.oneBucket {sourcesDir : Path} {catalog : Catalog}
    (h : catalog.WellFormed sourcesDir) : ∀ entry ∈ catalog.entries, entry.unit.OneBucket :=
  fun entry hentry => (h.units entry hentry).one_bucket

theorem runOrder_perm {catalog : Catalog}
    (h : ∀ entry ∈ catalog.entries, entry.unit.OneBucket) :
    catalog.runOrder.Perm catalog.entries := by
  have hlead := List.filter_append_perm (fun entry : Entry => entry.unit.has .lead) catalog.entries
  have hrest := List.filter_append_perm (fun entry : Entry => entry.unit.has .trail)
    (catalog.entries.filter fun entry => !entry.unit.has .lead)
  have htrail : (catalog.entries.filter fun entry => !entry.unit.has .lead).filter
      (fun entry => entry.unit.has .trail) = catalog.view .trail := by
    rw [List.filter_filter]
    refine List.filter_congr fun entry hentry => ?_
    have hone := h entry hentry
    unfold Installable.OneBucket at hone
    cases hentrail : entry.unit.has .trail <;> simp_all [inBucket]
  have hmain : (catalog.entries.filter fun entry => !entry.unit.has .lead).filter
      (fun entry => !entry.unit.has .trail) = catalog.view .main := by
    simp [view, inBucket, List.filter_filter, Bool.and_comm]
  rw [htrail, hmain] at hrest
  calc catalog.runOrder
      = catalog.view .lead ++ (catalog.view .main ++ catalog.view .trail) := by
        simp [runOrder, Bucket.all]
    List.Perm _ (catalog.view .lead ++ (catalog.view .trail ++ catalog.view .main)) :=
        List.perm_append_comm.append_left _
    List.Perm _ (catalog.view .lead ++ catalog.entries.filter fun entry => !entry.unit.has .lead) :=
        hrest.append_left _
    List.Perm _ catalog.entries := hlead

theorem nodup_names_runOrder_of_nodup {catalog : Catalog}
    (h : ∀ entry ∈ catalog.entries, entry.unit.OneBucket) (hdistinct : catalog.names.Nodup) :
    (catalog.runOrder.map (·.unit.name)).Nodup := by
  have hperm := (runOrder_perm h).map (·.unit.name)
  exact hperm.nodup_iff.mpr hdistinct

theorem nodup_names_runOrder {sourcesDir : Path} {catalog : Catalog}
    (h : catalog.WellFormed sourcesDir) : (catalog.runOrder.map (·.unit.name)).Nodup :=
  nodup_names_runOrder_of_nodup h.oneBucket h.distinct

end Catalog

theorem RunState.sublist_due (state : RunState) :
    state.due.Sublist (state.catalog.runOrder.map Entry.unit) := by
  have hlater : (buckets state.progress.stage.later).Sublist Bucket.all := by
    cases state.progress.stage <;> decide
  have horder : state.catalog.runOrder.map Entry.unit =
      Bucket.all.flatMap (units · state.catalog.entries) := by
    simp [Catalog.runOrder, Catalog.view, units, List.map_flatMap]
  rw [horder]
  exact hlater.flatMap _

section

variable {setting : Setting} {strict : Bool} {session : Session}

/-! ## Tours -/

theorem isFailed_of_abort? {result : UnitResult} {error : RunError}
    (h : RunState.abort? strict result = some error) : strict = true ∧
      ∃ fault, result.outcome = .failed fault ∧ error = .aborted result.name fault.describe := by
  unfold RunState.abort? at h
  split at h
  · next fault houtcome =>
    split at h
    · next hstrict => exact ⟨hstrict, fault, houtcome, (Option.some.inj h).symm⟩
    · cases h
  · cases h

theorem isFailed_eq_false_of_abort? {result : UnitResult} (hstrict : strict = true)
    (h : RunState.abort? strict result = none) : result.outcome.isFailed = false := by
  unfold RunState.abort? at h
  split at h
  · rw [if_pos hstrict] at h
    cases h
  · next hother =>
    cases houtcome : result.outcome with
    | failed fault => exact absurd houtcome (hother fault)
    | _ => rfl

theorem abort?_of_not_failed {result : UnitResult} (h : result.outcome.isFailed = false) :
    RunState.abort? strict result = none := by
  unfold RunState.abort?
  split
  · next fault houtcome => simp [houtcome, Outcome.isFailed] at h
  · rfl

variable (setting strict session) in
theorem prefix_results_tour (units : List Installable) :
    ((tour setting strict units session).results setting).map (fun r => (r.name, r.bucket)) <+:
      units.map fun unit => (unit.name, unit.bucket) := by
  fun_induction tour setting strict units session with
  | case1 => exact List.nil_prefix
  | case2 unit rest session visit error herror =>
    simp [Tour.results, Turn.result?_of_error herror]
  | case3 unit rest session visit own hown reported error habort =>
    obtain ⟨hname, hbucket, -⟩ := visit_eq_ok hown
    simp [Tour.results, Turn.result?_of_ok hown, hname, hbucket]
  | case4 unit rest session visit own hown reported hgoes ih =>
    obtain ⟨hname, hbucket, -⟩ := visit_eq_ok hown
    simpa [Tour.results, Tour.cons, Turn.result?_of_ok hown, hname, hbucket] using ih

theorem length_results_tour {units : List Installable}
    (h : (tour setting strict units session).error? = none) :
    ((tour setting strict units session).results setting).length = units.length := by
  revert h
  fun_induction tour setting strict units session with
  | case1 => simp [Tour.results]
  | case2 => simp
  | case3 => simp
  | case4 unit rest session visit own hown reported hgoes ih =>
    intro h
    simpa [Tour.results, Tour.cons, Turn.result?_of_ok hown] using ih h

/-- The last of the results is the first one that failed. -/
def Aborted (results : List UnitResult) (name reason : String) : Prop :=
  ∃ front result fault, results = front ++ [result] ∧ result.name = name ∧ result.outcome = .failed fault ∧
    fault.describe = reason ∧ ∀ earlier ∈ front, earlier.outcome.isFailed = false

theorem aborted_of_tour {units : List Installable} {name reason : String}
    (h : (tour setting strict units session).error? = some (.aborted name reason)) :
    strict = true ∧ Aborted ((tour setting strict units session).results setting) name reason := by
  revert h
  fun_induction tour setting strict units session with
  | case1 => simp
  | case2 unit rest session visit error herror =>
    intro h
    rcases visit_eq_error herror with ⟨rfl, -⟩ | ⟨message, rfl⟩ <;> cases h
  | case3 unit rest session visit own hown reported error habort =>
    intro h
    obtain ⟨hstrict, fault, houtcome, herror⟩ := isFailed_of_abort? habort
    obtain ⟨rfl, rfl⟩ : own.name = name ∧ fault.describe = reason := by simpa [herror] using h
    refine ⟨hstrict, [], own, fault, ?_, rfl, houtcome, rfl, by simp⟩
    simp [Tour.results, Turn.result?_of_ok hown]
  | case4 unit rest session visit own hown reported hgoes ih =>
    intro h
    obtain ⟨hstrict, front, result, fault, hresults, hname, houtcome, hreason, hfront⟩ := ih h
    refine ⟨hstrict, own :: front, result, fault, ?_, hname, houtcome, hreason, ?_⟩
    · simpa [Tour.results, Tour.cons, Turn.result?_of_ok hown] using hresults
    · exact List.forall_mem_cons.mpr ⟨isFailed_eq_false_of_abort? hstrict hgoes, hfront⟩

end

/-! ## Runs from the beginning -/

section

variable {sourcesDir : Path} {catalog : Catalog} (hcatalog : catalog.WellFormed sourcesDir)
  (setting : Setting) (strict : Bool) (files : Files) (interrupted : Bool)

include hcatalog

theorem ledBy_of_fresh :
    RunState.LedBy setting { catalog, session := { files, interrupted } }
      (RunState.run setting strict { catalog, session := { files, interrupted } }).1
      (tour setting strict (catalog.runOrder.map Entry.unit) { files, interrupted }).error?
      (tour setting strict (catalog.runOrder.map Entry.unit) { files, interrupted }) := by
  have hled := RunState.run_ledBy setting strict { catalog, session := { files, interrupted } }
    hcatalog.oneBucket
  rwa [RunState.due_of_fresh] at hled

theorem snd_of_fresh :
    (RunState.run setting strict { catalog, session := { files, interrupted } }).2 =
      match (tour setting strict (catalog.runOrder.map Entry.unit) { files, interrupted }).error? with
      | some error => .error error
      | none =>
        if (RunState.run setting strict
          { catalog, session := { files, interrupted } }).1.session.interrupted then
          .error .interrupted
        else .ok (RunState.run setting strict
          { catalog, session := { files, interrupted } }).1.progress.report := by
  have hsnd := RunState.run_snd setting strict { catalog, session := { files, interrupted } }
    (by simp) hcatalog.oneBucket
  rwa [RunState.due_of_fresh] at hsnd

theorem units_of_fresh :
    (RunState.run setting strict
      { catalog, session := { files, interrupted } }).1.progress.report.units =
      (tour setting strict (catalog.runOrder.map Entry.unit) { files, interrupted }).results
        setting := by
  simpa using (ledBy_of_fresh hcatalog setting strict files interrupted).report

theorem results_of_fresh :
    (RunState.run setting strict { catalog, session := { files, interrupted } }).1.session.results =
      (RunState.run setting strict
        { catalog, session := { files, interrupted } }).1.progress.report.units := by
  rw [(ledBy_of_fresh hcatalog setting strict files interrupted).session, results_tour,
    units_of_fresh hcatalog]
  rfl

theorem names_of_fresh :
    (RunState.run setting strict
      { catalog, session := { files, interrupted } }).1.progress.report.units.map UnitResult.name <+:
      catalog.runOrder.map (·.unit.name) := by
  have hpairs := (prefix_results_tour setting strict { files, interrupted }
    (catalog.runOrder.map Entry.unit)).map Prod.fst
  simpa [units_of_fresh hcatalog, Function.comp_def] using hpairs

variable {setting strict files interrupted}

theorem whole_of_fresh {report : Report}
    (hok : (RunState.run setting strict { catalog, session := { files, interrupted } }).2 =
      .ok report) :
    report = (RunState.run setting strict
        { catalog, session := { files, interrupted } }).1.progress.report ∧
      report.units.map UnitResult.name = catalog.runOrder.map (·.unit.name) := by
  rw [snd_of_fresh hcatalog] at hok
  split at hok
  · cases hok
  · next hend =>
    split at hok
    · cases hok
    · obtain rfl := Except.ok.inj hok
      have hnames := names_of_fresh hcatalog setting strict files interrupted
      refine ⟨rfl, hnames.eq_of_length ?_⟩
      simpa [units_of_fresh hcatalog] using length_results_tour hend

theorem aborted_of_fresh {name reason : String}
    (herror : (RunState.run setting strict { catalog, session := { files, interrupted } }).2 =
      .error (.aborted name reason)) :
    strict = true ∧ Aborted
      (RunState.run setting strict
        { catalog, session := { files, interrupted } }).1.progress.report.units name reason := by
  rw [snd_of_fresh hcatalog] at herror
  rw [units_of_fresh hcatalog]
  split at herror
  · next error hend =>
    obtain rfl := Except.error.inj herror
    exact aborted_of_tour hend
  · split at herror <;> cases herror

end

/-- How a run from the beginning accounts for the units of a catalog. -/
structure Account (strict : Bool) (catalog : Catalog) (ran : RunState × Except RunError Report) :
    Prop where
  reported : ran.1.session.results = ran.1.progress.report.units
  order : ran.1.progress.report.units.map UnitResult.name <+: catalog.runOrder.map (·.unit.name)
  once : (ran.1.progress.report.units.map UnitResult.name).Nodup
  counted : ran.1.progress.report.completed + ran.1.progress.report.skipped +
    ran.1.progress.report.failed.length = ran.1.progress.report.units.length
  whole : ∀ report, ran.2 = .ok report → report = ran.1.progress.report ∧
    report.units.map UnitResult.name = catalog.runOrder.map (·.unit.name)
  aborted : ∀ name reason, ran.2 = .error (.aborted name reason) →
    strict = true ∧ Aborted ran.1.progress.report.units name reason

/-- Every run of a document from the beginning accounts for its units. -/
theorem account_of_run {sourcesDir : Path} {text : List Char} {catalog : Catalog}
    (h : Document.parse sourcesDir text = .ok catalog) (setting : Setting) (strict : Bool)
    (files : Files) (interrupted : Bool) :
    Account strict catalog
      (RunState.run setting strict { catalog, session := { files, interrupted } }) := by
  have hcatalog := Document.wellFormed_of_parse h
  have hnames := names_of_fresh hcatalog setting strict files interrupted
  refine ⟨results_of_fresh hcatalog setting strict files interrupted, hnames, ?_,
    Report.completed_add_skipped_add_failed _, ?_, ?_⟩
  · exact hnames.sublist.nodup (Catalog.nodup_names_runOrder hcatalog)
  · exact fun report hok => whole_of_fresh hcatalog hok
  · exact fun name reason herror => aborted_of_fresh hcatalog herror

/-- A strict run of two units in which all calls fail. -/
theorem account_of_run_of_failing_calls :
    Document.parse Document.defaultSourcesDir "a\nb\n".toList =
      .ok ⟨[⟨1, { name := "a" }⟩, ⟨2, { name := "b" }⟩]⟩ ∧
    Account true ⟨[⟨1, { name := "a" }⟩, ⟨2, { name := "b" }⟩]⟩ (RunState.run
      { collaborators := ⟨fun _ _ files => { result := .error ⟨"no answer", []⟩, files }⟩
        hostname := "host" } true
      { catalog := ⟨[⟨1, { name := "a" }⟩, ⟨2, { name := "b" }⟩]⟩
        session := { files := {}, interrupted := false } }) := by
  have h : Document.parse Document.defaultSourcesDir "a\nb\n".toList =
      .ok ⟨[⟨1, { name := "a" }⟩, ⟨2, { name := "b" }⟩]⟩ := by decide +kernel
  exact ⟨h, account_of_run h _ _ _ _⟩

end Provision
