import Provision.Proofs.Run.Pass

/-!
# What is reported as done

The report on a unit lists what its visit has changed outside, in the order in which it happened:
one entry for every call that has succeeded, apart from asking an archive for its name, and one for
every source file and every marker. A visit that ends early reports what it has changed until then.
-/

namespace Provision

abbrev effectsFrom : Scene → List Event → List Action :=
  gather fun here event => event.effect? here.step?

/-- What the events of a visit have changed outside, first one first. -/
def effects (events : List Event) : List Action := effectsFrom {} events

theorem Halts.effects {final : Work} {step : Step} {last : List Event} {stop? : Option Stop}
    (h : Halts final step last stop?) (step? : Option Step) :
    last.filterMap (Event.effect? step?) = [] := by
  cases h with
  | refused call failure shown => cases call <;> rfl
  | _ => rfl

/-- Every step records its effects. Only an error that ends the run may come before the record. -/
theorem Pass.actions {steps : List Step} {start ran : Work × Option Stop} {events : List Event}
    (h : Pass steps start events ran) (hstop : ∀ error, ran.2 ≠ some (.fatal error))
    (here : Scene) : ran.1.actions = start.1.actions ++ effectsFrom here events := by
  induction h generalizing here with
  | done | halted | interrupted => simp [gather]
  | @step step rest work mid ran deeds last more log asks refresh declared next ih =>
    -- An error that ends the run would halt the pass here.
    have hmid : ∀ error, mid.2 ≠ some (.fatal error) := by
      intro error herror
      obtain ⟨mid, stop?⟩ := mid
      obtain rfl : stop? = some (.fatal error) := herror
      cases next
      exact hstop error rfl
    rw [ih hstop { here with step? := some step }, log.actions hmid, effectsFrom,
      gather_entered rfl log.still, List.filterMap_append, log.halts.effects, List.append_nil,
      List.append_assoc]
    rfl

/-! ## Visits -/

theorem effects_of_visit {setting : Setting} {session : Session} {unit : Installable}
    {result : UnitResult} (hreal : setting.dryRun = false)
    (h : (setting.visit session unit).result = .ok result) :
    ∃ events, (setting.visit session unit).session.trace =
        session.trace ++ .began unit.name :: events ∧
      result.actions = (effects events).map Action.describe := by
  have hvisited := visited setting session unit
  generalize setting.visit session unit = visit at hvisited h ⊢
  cases hvisited with
  | interrupted => cases h
  | skipped free decided =>
    obtain rfl := Except.ok.inj h
    exact ⟨[], rfl, rfl⟩
  | @worked forced final stop? free decided ran =>
    obtain ⟨events, raw?, hpass, hsettled⟩ :=
      exists_pass hreal Step.all (.begin session unit forced)
    rw [ran] at hpass hsettled
    have hstop : ∀ error, raw? ≠ some (.fatal error) := by
      rintro error rfl
      obtain rfl : stop? = some (.fatal error) := hsettled
      cases h
    have hactions : final.actions = [] ++ effects events := hpass.actions hstop {}
    refine ⟨events, ?_, ?_⟩
    · rw [hpass.trace]
      simp [Work.begin, Session.note]
    · rw [List.nil_append] at hactions
      rw [← hactions]
      cases stop? with
      | none =>
        obtain rfl := Except.ok.inj h
        rfl
      | some stop =>
        cases stop with
        | skipped | failed =>
          obtain rfl := Except.ok.inj h
          rfl
        | fatal => cases h

/-! ## Runs -/

/-- A report comes right after the visit to its unit and lists the effects of it. -/
def RecordRule (before : List Event) : Event → Prop
  | .reported result => ∃ earlier events, before = earlier ++ .began result.name :: events ∧
      begun events = [] ∧ result.actions = (effects events).map Action.describe
  | _ => True

theorem Follows.append {rule : List Event → Event → Prop} {trace more : List Event}
    (h : Follows rule trace) (hmore : ∀ event ∈ more, ∀ before, rule before event) :
    Follows rule (trace ++ more) := by
  induction more generalizing trace with
  | nil => rwa [List.append_nil]
  | cons event rest ih =>
    rw [List.forall_mem_cons] at hmore
    rw [List.append_cons]
    exact ih (h.snoc (hmore.1 trace)) hmore.2

theorem recordRule_of_result? {event : Event} (h : event.result? = none) (before : List Event) :
    RecordRule before event := by
  cases event with
  | reported => cases h
  | _ => trivial

theorem recordRule_visit {setting : Setting} (hreal : setting.dryRun = false) {unit : Installable}
    {session : Session} (h : Follows RecordRule session.trace) :
    Follows RecordRule (setting.visit session unit).session.trace ∧
      ∀ result, (setting.visit session unit).result = .ok result →
        RecordRule (setting.visit session unit).session.trace (.reported result) := by
  constructor
  · obtain ⟨more, hmore⟩ := (visit_kept setting session unit).trace
    have hresults := (visit_kept setting session unit).results
    simp only at hmore
    rw [Session.results, ← hmore, List.filterMap_append, Session.results] at hresults
    have hnone : more.filterMap Event.result? = [] := List.append_right_eq_self.mp hresults
    rw [← hmore]
    exact h.append fun event hevent =>
      recordRule_of_result? (List.filterMap_eq_nil_iff.mp hnone event hevent)
  · intro result hresult
    obtain ⟨events, htrace, hactions⟩ := effects_of_visit hreal hresult
    have hbegun := begun_visit setting session unit
    rw [htrace, begun_append, List.append_right_inj] at hbegun
    rw [← (visit_eq_ok hresult).1] at htrace
    exact ⟨session.trace, events, htrace, (List.cons.inj hbegun).2, hactions⟩

/-- What a real run reports. Every report lists the effects of the visit right before it. -/
structure Records (before after : RunState) : Prop where
  reported : after.progress.report.units = before.progress.report.units ++ after.session.results
  actions : ∀ front result back, after.session.trace = front ++ .reported result :: back →
    ∃ earlier events, front = earlier ++ .began result.name :: events ∧ begun events = [] ∧
      result.actions = (effects events).map Action.describe

/-- A real run reports what it has changed, whatever runs there have been before. -/
theorem records_of_reached {sourcesDir : Path} {catalog : Catalog} (h : catalog.Reached sourcesDir)
    {setting : Setting} (hreal : setting.dryRun = false) (strict : Bool) (progress : Progress)
    (files : Files) (interrupted : Bool) :
    Records { progress, catalog, session := { files, interrupted } }
      (RunState.run setting strict { progress, catalog, session := { files, interrupted } }).1 := by
  let state : RunState := { progress, catalog, session := { files, interrupted } }
  have hran := RunState.run_ledBy setting strict state h.oneBucket
  constructor
  · rw [hran.report, hran.session, results_tour]
    simp [state, Session.results]
  · intro front result back htrace
    have hfollows : Follows RecordRule (RunState.run setting strict state).1.session.trace := by
      rw [hran.session]
      exact follows_tour_of_visits (fun _ _ _ => recordRule_visit hreal) (follows_nil _)
    exact hfollows front (.reported result) back htrace

/-- The repository `s` is refused, and archives are fetched but have no name. -/
def Setting.halfway : Setting where
  collaborators := ⟨fun _ call files =>
    { result := match call with
        | .addRepository "s" => .error ⟨"no such repository", []⟩
        | .nameOf _ => .error ⟨"not an archive", []⟩
        | _ => .ok "work/b.deb"
      files }⟩
  hostname := "host"

def Catalog.halfway : Catalog :=
  ⟨[⟨1, { name := "a", repositories := ["r", "s"] }⟩,
    ⟨4, { name := "b", delivery := .downloadedArchive, url? := some "http://x/b.deb" }⟩]⟩

theorem parse_halfway : Document.parse Document.defaultSourcesDir
    "a:\n  repo: r\n  repo: s\nb:\n  deb: http://x/b.deb\n".toList = .ok .halfway := by
  decide +kernel

/-- Both units fail after a call that has succeeded, and report it. -/
theorem records_of_reached_halfway :
    Catalog.halfway.Reached Document.defaultSourcesDir ∧ Setting.halfway.dryRun = false ∧
    (RunState.run .halfway false
        { catalog := .halfway, session := { files := {} } }).1.session.results.map
      UnitResult.actions = [["add repository r"], ["download http://x/b.deb"]] ∧
    Records { catalog := .halfway, session := { files := {} } }
      (RunState.run .halfway false { catalog := .halfway, session := { files := {} } }).1 :=
  have hreached : Catalog.halfway.Reached Document.defaultSourcesDir := .parsed _ parse_halfway
  ⟨hreached, rfl, by decide +kernel, records_of_reached hreached rfl _ _ _ _⟩

end Provision
