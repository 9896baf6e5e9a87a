import Provision.Plan
import Provision.Proofs.Run.Account

/-!
# What a plan says about a run

A plan lists the units as a run visits them. A unit that it skips is skipped without effect, and a
unit that it installs is not skipped, unless an archive that was fetched for it turns out to be
installed already.
-/

namespace Provision

section

variable {setting : Setting} {strict : Bool} {session : Session}

theorem visit_unit_of_skip {unit : Installable} {cause : SkipCause}
    (hskip : setting.criteria.judge unit setting.snapshot setting.hostname = .skip cause) :
    (setting.visit session unit).unit = unit := by
  by_cases harrived : session.interrupted = true
  · rw [visit_of_interrupted harrived]
  · rw [visit_of_skip (by simpa using harrived) hskip]

theorem not_interrupted_of_visit_eq_ok {unit : Installable} {result : UnitResult}
    (h : (setting.visit session unit).result = .ok result) : session.interrupted = false := by
  by_contra harrived
  rw [visit_of_interrupted (by simpa using harrived)] at h
  cases h

theorem mem_of_left_of_skip {turns : List Turn} {xs ys : List Entry} {entry : Entry}
    {cause : SkipCause} (h : List.Forall₂ (Entry.Left setting turns) xs ys) (hentry : entry ∈ xs)
    (hskip : setting.criteria.judge entry.unit setting.snapshot setting.hostname = .skip cause) :
    entry ∈ ys := by
  induction h with
  | nil => exact hentry
  | cons hfirst _ ih =>
    rcases List.mem_cons.mp hentry with rfl | hentry
    · rcases hfirst with rfl | ⟨turn, -, hunit, rfl⟩
      · exact List.mem_cons_self
      · rw [Turn.visit, hunit, visit_unit_of_skip hskip]
        exact List.mem_cons_self
    · exact List.mem_cons_of_mem _ (ih hentry)

/-! ## Rows -/

structure Untouched (setting : Setting) (turn : Turn) (cause : SkipCause) : Prop where
  result : (turn.visit setting).result = .ok (turn.unit.result (.skipped cause) [])
  unit : (turn.visit setting).unit = turn.unit
  session : (turn.visit setting).session = turn.session.note (.began turn.unit.name)

/-- What a row of a plan says about the result of its unit. -/
def PlanRow.Allows (setting : Setting) (unit : Installable) (row : PlanRow) (result : UnitResult) :
    Prop :=
  match row.decision with
  | .skip cause => result = ⟨row.name, row.bucket, .skipped cause, []⟩
  | .install forced => result.outcome = .completed ∨ (∃ fault, result.outcome = .failed fault) ∨
      forced = false ∧ setting.dryRun = false ∧ unit.url?.isSome ∧ ∃ package,
        result.outcome = .skipped (.archiveInstalled package) ∧
        setting.snapshot.has package = true

/-- How a plan of a catalog and a run of it from the beginning agree. -/
structure Forecast (setting : Setting) (catalog : Catalog) (rows : List PlanRow)
    (ran : RunState × Except RunError Report) (t : Tour) : Prop where
  /-- The visits of the run are the turns of the tour. -/
  session : ran.1.session = t.session
  results : ran.1.progress.report.units = t.results setting
  visits : t.turns.map (fun turn => (turn.unit.name, turn.unit.bucket)) <+:
    rows.map fun row => (row.name, row.bucket)
  reports : ran.1.progress.report.units.map (fun result => (result.name, result.bucket)) <+:
    rows.map fun row => (row.name, row.bucket)
  whole : ∀ report, ran.2 = .ok report → report.units.length = rows.length
  allowed : ∀ (i : Nat) (row : PlanRow) (result : UnitResult), rows[i]? = some row →
    ran.1.progress.report.units[i]? = some result →
    ∃ turn : Turn, t.turns[i]? = some turn ∧ (turn.visit setting).result = .ok result ∧
      row.Allows setting turn.unit result
  untouched : ∀ (i : Nat) (row : PlanRow) (result : UnitResult) cause, rows[i]? = some row →
    ran.1.progress.report.units[i]? = some result → row.decision = .skip cause →
    ∃ turn : Turn, t.turns[i]? = some turn ∧ Untouched setting turn cause ∧
      (∃ entry ∈ catalog.entries, entry.unit = turn.unit ∧ entry ∈ ran.1.catalog.entries) ∧
      ∃ before after, ran.1.session.trace =
        before ++ [.began row.name, .reported result] ++ after

theorem exists_turn_of_row {catalog : Catalog} {i : Nat} {row : PlanRow} {result : UnitResult}
    (hrow : (plan catalog setting.criteria setting.snapshot setting.hostname)[i]? = some row)
    (hresult : ((tour setting strict (catalog.runOrder.map Entry.unit) session).results
      setting)[i]? = some result) :
    ∃ entry ∈ catalog.runOrder, ∃ turn,
      (tour setting strict (catalog.runOrder.map Entry.unit) session).turns[i]? = some turn ∧
      turn.unit = entry.unit ∧ (turn.visit setting).result = .ok result ∧
      row = ⟨entry.line, entry.unit.name, entry.unit.bucket,
        setting.criteria.judge entry.unit setting.snapshot setting.hostname⟩ := by
  obtain ⟨turn, hturn, hvisit⟩ := exists_turn_of_results _ i result hresult
  unfold plan at hrow
  rw [List.getElem?_map, Option.map_eq_some_iff] at hrow
  obtain ⟨entry, hentry, rfl⟩ := hrow
  refine ⟨entry, List.mem_of_getElem? hentry, turn, hturn, ?_, hvisit, rfl⟩
  have hunit := getElem?_of_turn hturn
  rw [List.getElem?_map, hentry] at hunit
  exact (Option.some.inj hunit).symm

theorem untouched_of_skip {turn : Turn} {result : UnitResult} {cause : SkipCause}
    (hresult : (turn.visit setting).result = .ok result)
    (hskip : setting.criteria.judge turn.unit setting.snapshot setting.hostname = .skip cause) :
    Untouched setting turn cause := by
  have hvisit := visit_of_skip (not_interrupted_of_visit_eq_ok hresult) hskip
  refine ⟨?_, ?_, ?_⟩ <;> rw [Turn.visit, hvisit]

theorem allows_of_turn {turn : Turn} {result : UnitResult} {row : PlanRow}
    (hresult : (turn.visit setting).result = .ok result)
    (hrow : row = ⟨row.line, turn.unit.name, turn.unit.bucket,
      setting.criteria.judge turn.unit setting.snapshot setting.hostname⟩) :
    row.Allows setting turn.unit result := by
  obtain ⟨hname, hbucket, hforeseen⟩ := visit_eq_ok hresult
  rw [hrow]
  unfold PlanRow.Allows
  split
  · next cause hskip =>
    have hvisit := (untouched_of_skip hresult hskip).result
    rw [hresult] at hvisit
    exact Except.ok.inj hvisit
  · next forced hinstall =>
    simp only at hinstall
    rw [hinstall] at hforeseen
    generalize result.outcome = outcome at hforeseen
    cases hforeseen with
    | completed => exact .inl rfl
    | failed => exact .inr (.inl ⟨_, rfl⟩)
    | installed declared real found =>
      exact .inr (.inr ⟨rfl, real, by simp [declared], _, rfl, found⟩)

end

/-- A plan of a document foretells every run of it from the beginning. -/
theorem plan_foretells_run {sourcesDir : Path} {text : List Char} {catalog : Catalog}
    (h : Document.parse sourcesDir text = .ok catalog) (setting : Setting) (strict : Bool)
    (files : Files) (interrupted : Bool) :
    Forecast setting catalog
      (plan catalog setting.criteria setting.snapshot setting.hostname)
      (RunState.run setting strict { catalog, session := { files, interrupted } })
      (tour setting strict (catalog.runOrder.map Entry.unit) { files, interrupted }) := by
  have hcatalog := Document.wellFormed_of_parse h
  have hreport := units_of_fresh hcatalog setting strict files interrupted
  obtain ⟨hsession, -, hentries, -⟩ := ledBy_of_fresh hcatalog setting strict files interrupted
  have hpairs : (plan catalog setting.criteria setting.snapshot setting.hostname).map
      (fun row => (row.name, row.bucket)) =
      (catalog.runOrder.map Entry.unit).map fun unit => (unit.name, unit.bucket) := by
    simp [plan]
  refine ⟨hsession, hreport, ?_, ?_, ?_, ?_, ?_⟩
  · have hturns := (prefix_turns_tour setting strict { files, interrupted }
      (catalog.runOrder.map Entry.unit)).map fun unit : Installable =>
        (unit.name, unit.bucket)
    rw [List.map_map] at hturns
    rw [hpairs]
    exact hturns
  · rw [hpairs, hreport]
    exact prefix_results_tour setting strict { files, interrupted } _
  · intro report hok
    have hwhole := congrArg List.length (whole_of_fresh hcatalog hok).2
    simpa [plan] using hwhole
  · intro i row result hrow hresult
    rw [hreport] at hresult
    obtain ⟨entry, -, turn, hturn, hunit, hvisit, rfl⟩ := exists_turn_of_row hrow hresult
    exact ⟨turn, hturn, hvisit, allows_of_turn hvisit (by rw [hunit])⟩
  · intro i row result cause hrow hresult hskip
    rw [hreport] at hresult
    obtain ⟨entry, hentry, turn, hturn, hunit, hvisit, rfl⟩ := exists_turn_of_row hrow hresult
    have hmem := (Catalog.runOrder_perm hcatalog.oneBucket).mem_iff.mp hentry
    have huntouched := untouched_of_skip hvisit (hunit ▸ hskip)
    refine ⟨turn, hturn, huntouched, ⟨entry, hmem, hunit.symm, mem_of_left_of_skip hentries hmem hskip⟩,
      turn.session.trace, ?_⟩
    obtain ⟨after, hafter⟩ := trace_of_turn (List.mem_of_getElem? hturn) hvisit
    refine ⟨after, ?_⟩
    rw [hsession, ← hafter, huntouched.session, hunit]
    simp [Session.note]

/-- A dry run of a unit that is skipped and of one that is installed. -/
theorem plan_foretells_run_of_skipped_unit :
    Document.parse Document.defaultSourcesDir "a:\n  flags: skip\nb\n".toList =
      .ok ⟨[⟨1, { name := "a", flags := [.skip] }⟩, ⟨3, { name := "b" }⟩]⟩ ∧
    Forecast
      { collaborators := ⟨fun _ _ files => { result := .ok "", files }⟩, hostname := "host"
        dryRun := true }
      ⟨[⟨1, { name := "a", flags := [.skip] }⟩, ⟨3, { name := "b" }⟩]⟩
      (plan ⟨[⟨1, { name := "a", flags := [.skip] }⟩, ⟨3, { name := "b" }⟩]⟩ {} {} "host")
      (RunState.run
        { collaborators := ⟨fun _ _ files => { result := .ok "", files }⟩, hostname := "host"
          dryRun := true } false
        { catalog := ⟨[⟨1, { name := "a", flags := [.skip] }⟩, ⟨3, { name := "b" }⟩]⟩
          session := { files := {}, interrupted := false } })
      (tour
        { collaborators := ⟨fun _ _ files => { result := .ok "", files }⟩, hostname := "host"
          dryRun := true } false
        (Catalog.runOrder ⟨[⟨1, { name := "a", flags := [.skip] }⟩, ⟨3, { name := "b" }⟩]⟩ |>.map
          Entry.unit) { files := {}, interrupted := false }) := by
  have h : Document.parse Document.defaultSourcesDir "a:\n  flags: skip\nb\n".toList =
      .ok ⟨[⟨1, { name := "a", flags := [.skip] }⟩, ⟨3, { name := "b" }⟩]⟩ := by decide +kernel
  exact ⟨h, plan_foretells_run h _ _ _ _⟩

end Provision
