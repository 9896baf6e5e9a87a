import Provision.Proofs.Run.Account

/-!
# Strict runs

A strict run does what the same run does that goes on after a failure, and stops where that one
reports its first failed unit. Where nothing fails the two are one and the same.
-/

namespace Provision

variable {setting : Setting} {session : Session}

theorem abort?_of_lenient (result : UnitResult) : RunState.abort? false result = none := by
  unfold RunState.abort?
  split <;> rfl

theorem abort?_of_failed {result : UnitResult} {fault : StepFault}
    (h : result.outcome = .failed fault) :
    RunState.abort? true result = some (.aborted result.name fault.describe) := by
  simp [RunState.abort?, h]

/-! ## Runs without a failure -/

namespace RunState

variable {bucket : Bucket} {strict : Bool} {report : Report}

theorem report_prefix_runEntries (entries : List Entry) :
    report.units <+: (runEntries setting strict bucket entries report session).2.1.units := by
  rw [runEntries_snd]
  exact List.prefix_append _ _

theorem runEntries_of_no_failure {entries : List Entry}
    (h : ∀ result ∈ (runEntries setting false bucket entries report session).2.1.units,
      result.outcome.isFailed = false) :
    runEntries setting true bucket entries report session =
      runEntries setting false bucket entries report session := by
  induction entries generalizing report session with
  | nil => rfl
  | cons entry rest ih =>
    rw [runEntries] at h ⊢
    conv_rhs => rw [runEntries]
    split
    · next hbucket =>
      rw [if_pos hbucket] at h
      cases hresult : (setting.visit session entry.unit).result with
      | error error => simp only [hresult]
      | ok result =>
        simp only [hresult, abort?_of_lenient] at h ⊢
        have hpushed : result ∈ (report.push result).units := by simp [Report.push]
        have hgood := h result ((report_prefix_runEntries rest).subset hpushed)
        simp only [abort?_of_not_failed hgood, ih h]
    · next hbucket =>
      rw [if_neg hbucket] at h
      rw [ih h]

theorem report_prefix_runBucket (bucket : Bucket) (state : RunState) :
    state.progress.report.units <+:
      (runBucket setting strict bucket state).1.progress.report.units :=
  report_prefix_runEntries state.catalog.entries

theorem runBucket_of_no_failure {state : RunState}
    (h : ∀ result ∈ (runBucket setting false bucket state).1.progress.report.units,
      result.outcome.isFailed = false) :
    runBucket setting true bucket state = runBucket setting false bucket state := by
  unfold runBucket
  rw [runEntries_of_no_failure h]

theorem report_prefix_runStages (stages : List Stage) (state : RunState) :
    state.progress.report.units <+:
      (runStages setting strict stages state).1.progress.report.units := by
  induction stages generalizing state with
  | nil => exact List.prefix_rfl
  | cons stage rest ih =>
    unfold runStages
    cases stage.bucket? with
    | none => exact ih { state with progress := state.progress.enter stage }
    | some bucket =>
      have hbucket := @report_prefix_runBucket setting strict bucket
        { state with progress := state.progress.enter stage }
      simp only
      split
      · next ran hran =>
        rw [hran] at hbucket
        exact hbucket.trans (ih ran)
      · next ran error hran =>
        rw [hran] at hbucket
        exact hbucket

theorem runStages_of_no_failure {stages : List Stage} {state : RunState}
    (h : ∀ result ∈ (runStages setting false stages state).1.progress.report.units,
      result.outcome.isFailed = false) :
    runStages setting true stages state = runStages setting false stages state := by
  induction stages generalizing state with
  | nil => rfl
  | cons stage rest ih =>
    unfold runStages at h ⊢
    cases hbucket : stage.bucket? with
    | none =>
      simp only [hbucket] at h ⊢
      exact ih h
    | some bucket =>
      simp only [hbucket] at h ⊢
      cases hran : runBucket setting false bucket
          { state with progress := state.progress.enter stage } with
      | mk ran error? =>
        -- What the bucket reports is part of what the whole run reports.
        have hwithin : ∀ result ∈ ran.progress.report.units, result.outcome.isFailed = false := by
          rw [hran] at h
          cases error? with
          | none => exact fun result hmem => h result ((report_prefix_runStages rest ran).subset hmem)
          | some error => exact h
        rw [runBucket_of_no_failure (by rwa [hran]), hran]
        rw [hran] at h
        cases error? with
        | none => exact ih h
        | some error => rfl

theorem run_of_no_failure {state : RunState}
    (h : (run setting false state).1.progress.report.hasFailures = false) :
    run setting true state = run setting false state := by
  have hstages : ∀ result ∈
      (runStages setting false state.progress.stage.later state).1.progress.report.units,
      result.outcome.isFailed = false := by
    rw [run_fst] at h
    simpa [Report.hasFailures] using h
  unfold run
  cases hlater : state.progress.stage.later with
  | nil => rfl
  | cons stage rest =>
    rw [hlater] at hstages
    simp only [runStages_of_no_failure hstages]

end RunState

/-! ## Runs with a failure -/

/-- Where a tour that goes on reports a first failure, and what the strict tour makes of it. -/
structure Tour.CutAtFailure (setting : Setting) (strict whole : Tour) : Prop where
  trace : strict.session.trace <+: whole.session.trace
  aborted : ∃ front result fault back, whole.results setting = front ++ result :: back ∧
    (∀ earlier ∈ front, earlier.outcome.isFailed = false) ∧ result.outcome = .failed fault ∧
    strict.results setting = front ++ [result] ∧
    strict.error? = some (.aborted result.name fault.describe)

theorem tour_cutAtFailure {units : List Installable}
    (h : ∃ result ∈ (tour setting false units session).results setting,
      result.outcome.isFailed = true) :
    (tour setting true units session).CutAtFailure setting (tour setting false units session) := by
  induction units generalizing session with
  | nil => simp [tour, Tour.results] at h
  | cons unit rest ih =>
    simp only [tour, abort?_of_lenient] at h ⊢
    cases hresult : (setting.visit session unit).result with
    | error error =>
      simp [hresult, Tour.results, Turn.result?_of_error hresult] at h
    | ok result =>
      have hown := Turn.result?_of_ok hresult
      simp only [hresult] at h ⊢
      generalize (setting.visit session unit).session.note (.reported result) = reported at h ⊢
      cases houtcome : result.outcome with
      | failed fault =>
        simp only [abort?_of_failed houtcome]
        refine ⟨trace_prefix_tour rest, [], result, fault,
          (tour setting false rest reported).results setting, ?_, by simp, houtcome, ?_, rfl⟩
        · simp [Tour.results, Tour.cons, hown]
        · simp [Tour.results, hown]
      | _ =>
        have hgood : result.outcome.isFailed = false := by rw [houtcome]; rfl
        obtain ⟨other, hother, hfailed⟩ := h
        simp only [Tour.results, Tour.cons, List.filterMap_cons_some hown, List.mem_cons] at hother
        rcases hother with rfl | hother
        · rw [hgood] at hfailed
          cases hfailed
        obtain ⟨htrace, front, first, fault, back, hwhole, hfront, hfirst, hcut, herror⟩ :=
          @ih reported ⟨other, hother, hfailed⟩
        simp only [abort?_of_not_failed hgood]
        refine ⟨htrace, result :: front, first, fault, back, ?_, ?_, hfirst, ?_, herror⟩
        · simpa [Tour.results, Tour.cons, hown] using hwhole
        · exact List.forall_mem_cons.mpr ⟨hgood, hfront⟩
        · simpa [Tour.results, Tour.cons, hown] using hcut

/-- A strict run beside the run that goes on after failures. -/
structure CutAtFailure (strict whole : RunState × Except RunError Report) : Prop where
  /-- Result, report, trace, files and catalog are the same. -/
  same : whole.1.progress.report.hasFailures = false → strict = whole
  aborted : whole.1.progress.report.hasFailures = true →
    ∃ front result fault back, whole.1.progress.report.units = front ++ result :: back ∧
      (∀ earlier ∈ front, earlier.outcome.isFailed = false) ∧ result.outcome = .failed fault ∧
      strict.1.progress.report.units = front ++ [result] ∧
      strict.2 = .error (.aborted result.name fault.describe)
  trace : strict.1.session.trace <+: whole.1.session.trace
  calls : strict.1.session.calls <+: whole.1.session.calls

/-- A strict run of a document is the run that goes on after failures, cut at its first failure. -/
theorem cutAtFailure_of_strict {sourcesDir : Path} {text : List Char} {catalog : Catalog}
    (h : Document.parse sourcesDir text = .ok catalog) (setting : Setting) (files : Files)
    (interrupted : Bool) :
    CutAtFailure
      (RunState.run setting true { catalog, session := { files, interrupted } })
      (RunState.run setting false { catalog, session := { files, interrupted } }) := by
  have hcatalog := Document.wellFormed_of_parse h
  cases hfailures : (RunState.run setting false
      { catalog, session := { files, interrupted } }).1.progress.report.hasFailures with
  | false =>
    have hsame := RunState.run_of_no_failure hfailures
    rw [hsame]
    refine ⟨fun _ => rfl, fun hfailed => ?_, List.prefix_rfl, List.prefix_rfl⟩
    rw [hfailures] at hfailed
    cases hfailed
  | true =>
    have hstrict := ledBy_of_fresh hcatalog setting true files interrupted
    have hwhole := ledBy_of_fresh hcatalog setting false files interrupted
    have hcut : Tour.CutAtFailure setting
        (tour setting true (catalog.runOrder.map Entry.unit) { files, interrupted })
        (tour setting false (catalog.runOrder.map Entry.unit) { files, interrupted }) := by
      apply tour_cutAtFailure
      rw [← units_of_fresh hcatalog]
      simpa [Report.hasFailures] using hfailures
    obtain ⟨htrace, front, result, fault, back, hunits, hfront, hresult, hends, herror⟩ := hcut
    rw [← hstrict.session, ← hwhole.session] at htrace
    refine ⟨fun hnone => ?_, fun _ => ?_, htrace, htrace.filterMap _⟩
    · rw [hfailures] at hnone
      cases hnone
    · rw [← units_of_fresh hcatalog] at hunits hends
      refine ⟨front, result, fault, back, hunits, hfront, hresult, hends, ?_⟩
      rw [snd_of_fresh hcatalog, herror]

/-- Nothing can be reinstalled, and all other calls succeed. -/
def Setting.uninstalling : Setting where
  collaborators := ⟨fun _ call files =>
    { result := match call with
        | .reinstall _ => .error ⟨"no package", []⟩
        | _ => .ok ""
      files }⟩
  hostname := "host"

/-- The catalog of a document with two packages and a unit that installs none. -/
def Catalog.ofPackages : Catalog :=
  ⟨[⟨1, { name := "a", preScript? := some "p" }⟩, ⟨3, { name := "b" }⟩,
    ⟨4, { name := "c", flags := [.virtual] }⟩]⟩

/-- Two of three units fail, and the strict run comes to the first of them only. -/
theorem cutAtFailure_of_strict_without_packages :
    Document.parse Document.defaultSourcesDir "a:\n  pre: p\nb\nc:\n  flags: virtual\n".toList =
      .ok .ofPackages ∧
    (RunState.run .uninstalling false
      { catalog := .ofPackages, session := { files := {} } }).1.progress.report.failed =
      ["a", "b"] ∧
    CutAtFailure
      (RunState.run .uninstalling true
        { catalog := .ofPackages, session := { files := {}, interrupted := false } })
      (RunState.run .uninstalling false
        { catalog := .ofPackages, session := { files := {}, interrupted := false } }) := by
  have h : Document.parse Document.defaultSourcesDir
      "a:\n  pre: p\nb\nc:\n  flags: virtual\n".toList = .ok .ofPackages := by
    decide +kernel
  exact ⟨h, by decide +kernel, cutAtFailure_of_strict h _ _ _⟩

end Provision
