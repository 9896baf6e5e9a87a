import Provision.Proofs.Run.Moves

/-!
# Runs that a unit cannot tell apart

What a unit does depends on little: how its calls are answered, whether its source files and its
markers are there, and whether they can be written. Two sessions that agree on this look the same to
it, so that its tasks do the same in both and end alike.
-/

namespace Provision

/-- Two units at work that differ in their sessions at most, and these are related. -/
structure Work.Alike (R : Session → Session → Prop) (work twin : Work) : Prop where
  unit : twin.unit = work.unit
  forced : twin.forced = work.forced
  actions : twin.actions = work.actions
  session : R work.session twin.session

/-- Two units at work that are alike and end for the same reason. -/
structure Agree (R : Session → Session → Prop) (ran twin : Work × Option Stop) : Prop where
  alike : ran.1.Alike R twin.1
  stop : twin.2 = ran.2

/-- Related sessions look the same to a unit, and stay related whatever it does. -/
structure Lockstep (R : Session → Session → Prop) (setting other : Setting) (unit : Installable) :
    Prop where
  dryRun : other.dryRun = setting.dryRun
  snapshot : other.snapshot = setting.snapshot
  markers : other.markers = setting.markers
  request : ∀ {a b}, R a b → ∀ call,
    R (a.request setting.collaborators call).1 (b.request other.collaborators call).1 ∧
      (b.request other.collaborators call).2 = (a.request setting.collaborators call).2
  present : ∀ {a b}, R a b → ∀ entry ∈ unit.sources,
    b.files.exists? entry.path = a.files.exists? entry.path
  marked : ∀ {a b}, R a b → ∀ phase,
    setting.markers.has b.files unit.name phase = setting.markers.has a.files unit.name phase
  source : ∀ {work twin : Work}, work.Alike R twin → ∀ entry ∈ unit.sources,
    Agree R (work.putSource entry) (twin.putSource entry)
  marker : ∀ {work twin : Work}, work.Alike R twin → work.unit.name = unit.name → ∀ phase,
    Agree R (work.leaveMarker setting phase) (twin.leaveMarker other phase)

namespace Lockstep

variable {R : Session → Session → Prop} {setting other : Setting} {unit : Installable}
  {work twin : Work}

theorem alike_record (h : work.Alike R twin) (action : Action) :
    (work.record action).Alike R (twin.record action) :=
  ⟨h.unit, h.forced, by simp [Work.record, h.actions], h.session⟩

theorem alike_needRefresh (h : work.Alike R twin) : work.needRefresh.Alike R twin.needRefresh :=
  ⟨by simp [Work.needRefresh, h.unit], h.forced, h.actions, h.session⟩

variable (hlock : Lockstep R setting other unit)

include hlock

/-! ## Calls -/

theorem alike_called (h : work.Alike R twin) (call : Call) :
    (work.called setting call).Alike R (twin.called other call) :=
  ⟨h.unit, h.forced, h.actions, (hlock.request h.session call).1⟩

theorem ask_cases (h : work.Alike R twin) (step : Step) (call : Call) :
    (∃ answer, work.ask setting step call = (work.called setting call, .ok answer) ∧
      twin.ask other step call = (twin.called other call, .ok answer)) ∨
    ∃ failure,
      work.ask setting step call = (work.called setting call, .error (Work.fail step failure)) ∧
      twin.ask other step call = (twin.called other call, .error (Work.fail step failure)) := by
  have hresult := (hlock.request h.session call).2
  rw [Work.ask_eq, Work.ask_eq, hresult]
  cases (work.session.request setting.collaborators call).2 with
  | ok answer => exact .inl ⟨answer, rfl, rfl⟩
  | error failure => exact .inr ⟨failure, rfl, rfl⟩

theorem tell (h : work.Alike R twin) (step : Step) (call : Call) :
    Agree R (work.tell setting step call) (twin.tell other step call) := by
  have hcalled := hlock.alike_called h call
  unfold Work.tell
  rcases hlock.ask_cases h step call with ⟨answer, hwork, htwin⟩ | ⟨failure, hwork, htwin⟩
  · rw [hwork, htwin]
    exact ⟨hcalled, rfl⟩
  · rw [hwork, htwin]
    exact ⟨hcalled, rfl⟩

/-- What is done in a real run only, and what is done after it, is done alike. -/
theorem really {act act' : Work → Work × Option Stop} {done done' : Work → Work}
    (h : work.Alike R twin) (hact : Agree R (act work) (act' twin))
    (hdone : ∀ {a b : Work}, a.Alike R b → (done a).Alike R (done' b)) :
    Agree R (work.really setting act done) (twin.really other act' done') := by
  unfold Work.really
  rw [hlock.dryRun]
  split
  · exact ⟨hdone h, rfl⟩
  · obtain ⟨halike, hstop⟩ := hact
    generalize act work = acted at halike hstop
    generalize act' twin = acted' at halike hstop
    obtain ⟨acted, stop?⟩ := acted
    obtain ⟨acted', stop'?⟩ := acted'
    obtain rfl : stop'? = stop? := hstop
    cases stop'? with
    | none => exact ⟨hdone halike, rfl⟩
    | some stop => exact ⟨halike, rfl⟩

/-! ## Tasks -/

theorem addRepository (h : work.Alike R twin) (identifier : String) :
    Agree R (work.addRepository setting identifier) (twin.addRepository other identifier) :=
  hlock.really h (hlock.tell h _ _) fun hab => alike_needRefresh (alike_record hab _)

theorem writeSource (h : work.Alike R twin) {entry : SourceFile} (hentry : entry ∈ unit.sources) :
    Agree R (work.writeSource setting entry) (twin.writeSource other entry) := by
  unfold Work.writeSource
  rw [hlock.present h.session entry hentry]
  split
  · exact ⟨h, rfl⟩
  · exact hlock.really h (hlock.source h entry hentry) fun hab =>
      alike_needRefresh (alike_record hab _)

theorem refreshIndex (h : work.Alike R twin) :
    Agree R (work.refreshIndex setting) (twin.refreshIndex other) := by
  unfold Work.refreshIndex
  rw [h.unit]
  split
  · exact hlock.really h (hlock.tell h _ _) fun hab => alike_record hab _
  · exact ⟨h, rfl⟩

theorem runScript (h : work.Alike R twin) (hname : work.unit.name = unit.name) (phase : Phase) :
    Agree R (work.runScript setting phase) (twin.runScript other phase) := by
  have hmarked := hlock.marked h.session phase
  unfold Work.runScript
  rw [h.unit]
  split
  · exact ⟨h, rfl⟩
  · next text hscript =>
    simp only [hlock.markers, hname, hmarked]
    split
    · exact ⟨h, rfl⟩
    · apply hlock.really h
      · -- The script is run, and leaves its marker if it may run only once.
        have htold := hlock.tell h (.ofPhase phase) (.runScript text)
        have hsame : (work.tell setting (.ofPhase phase) (.runScript text)).1.unit = work.unit := by
          rcases Goes.tell_cases setting (.ofPhase phase) (.runScript text) work with
            ⟨answer, htell, -⟩ | ⟨failure, htell⟩ <;> rw [htell] <;> rfl
        generalize work.tell setting (.ofPhase phase) (.runScript text) = told at htold hsame ⊢
        generalize twin.tell other (.ofPhase phase) (.runScript text) = told' at htold ⊢
        obtain ⟨told, stop?⟩ := told
        obtain ⟨told', stop'?⟩ := told'
        obtain rfl : stop'? = stop? := htold.stop
        cases stop'? with
        | none =>
          simp only
          split
          · exact hlock.marker htold.alike (by rw [hsame, hname]) phase
          · exact htold
        | some stop => exact htold
      · intro a b hab
        split
        · exact alike_record (alike_record hab _) _
        · exact alike_record hab _

theorem retrieve (h : work.Alike R twin) :
    Agree R (work.retrieve setting) (twin.retrieve other) := by
  unfold Work.retrieve
  rw [h.unit, h.forced, hlock.dryRun, hlock.snapshot]
  split
  · exact ⟨h, rfl⟩
  · next url hurl =>
    split
    · exact ⟨h, rfl⟩
    · split
      · exact ⟨alike_record h _, rfl⟩
      · have hfetched := hlock.alike_called h (.fetch url)
        rcases hlock.ask_cases h .retrieve (.fetch url) with
          ⟨text, hwork, htwin⟩ | ⟨failure, hwork, htwin⟩
        · have hrecorded := alike_record hfetched (.download url)
          have hnamed := hlock.alike_called hrecorded (.nameOf ⟨text⟩)
          rw [hwork, htwin]
          simp only
          rcases hlock.ask_cases hrecorded .retrieve (.nameOf ⟨text⟩) with
            ⟨package, hwork, htwin⟩ | ⟨failure, hwork, htwin⟩
          · rw [hwork, htwin]
            simp only [hnamed.forced]
            split
            · exact ⟨hnamed, rfl⟩
            · exact ⟨⟨by simp only [hnamed.unit], rfl, hnamed.actions, hnamed.session⟩, rfl⟩
          · rw [hwork, htwin]
            exact ⟨hnamed, rfl⟩
        · rw [hwork, htwin]
          exact ⟨hfetched, rfl⟩

theorem installPayload (h : work.Alike R twin) :
    Agree R (work.installPayload setting) (twin.installPayload other) := by
  unfold Work.installPayload
  rw [h.unit, hlock.dryRun]
  split
  · split
    · next archive harchive =>
      have htold := hlock.tell h .install (.installArchive archive)
      generalize work.tell setting .install (.installArchive archive) = told at htold ⊢
      generalize twin.tell other .install (.installArchive archive) = told' at htold ⊢
      obtain ⟨told, stop?⟩ := told
      obtain ⟨told', stop'?⟩ := told'
      obtain rfl : stop'? = stop? := htold.stop
      cases stop'? with
      | none => exact ⟨alike_record htold.alike _, rfl⟩
      | some stop => exact htold
    · split
      · exact ⟨alike_record h _, rfl⟩
      · exact ⟨h, rfl⟩
  · split
    · exact ⟨h, rfl⟩
    · exact hlock.really h (hlock.tell h _ _) fun hab => alike_record hab _

theorem task {step : Step} {task : Task} (h : work.Alike R twin)
    (hunit : work.unit.declared = unit.declared) (htask : task ∈ step.tasks unit) :
    Agree R (task.run setting work) (task.run other twin) := by
  have hname : work.unit.name = unit.name := by
    rw [← Installable.name_declared, hunit, Installable.name_declared]
  cases task with
  | addRepository identifier => exact hlock.addRepository h identifier
  | writeSource entry =>
    refine hlock.writeSource h ?_
    cases step <;> simp_all [Step.tasks]
  | refreshIndex => exact hlock.refreshIndex h
  | runScript phase => exact hlock.runScript h hname phase
  | retrieve => exact hlock.retrieve h
  | installPayload => exact hlock.installPayload h

theorem runTasks {step : Step} {tasks : List Task} (h : work.Alike R twin)
    (hunit : work.unit.declared = unit.declared) (htasks : ∀ task ∈ tasks, task ∈ step.tasks unit) :
    Agree R (Work.runTasks setting tasks work) (Work.runTasks other tasks twin) := by
  induction tasks generalizing work twin with
  | nil => exact ⟨h, rfl⟩
  | cons first rest ih =>
    rw [List.forall_mem_cons] at htasks
    have hfirst := hlock.task h hunit htasks.1
    have hkept : (first.run setting work).1.unit.declared = unit.declared := by
      rw [← Step.tasks_declared, ← hunit, Step.tasks_declared] at htasks
      exact (Goes.task htasks.1).moves.kept.declared.trans hunit
    unfold Work.runTasks
    generalize first.run setting work = ran at hfirst hkept ⊢
    generalize first.run other twin = ran' at hfirst ⊢
    obtain ⟨ran, stop?⟩ := ran
    obtain ⟨ran', stop'?⟩ := ran'
    obtain rfl : stop'? = stop? := hfirst.stop
    cases stop'? with
    | none => exact ih hfirst.alike hkept htasks.2
    | some stop => exact hfirst

end Lockstep

end Provision
