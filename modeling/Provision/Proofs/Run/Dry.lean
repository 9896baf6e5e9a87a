import Provision.Proofs.Run.Account

/-!
# Dry runs

A dry run takes the way of a real run, but asks and writes nothing. There is one exception: an
archive that an earlier run has fetched, and that its unit still holds, is installed.
-/

namespace Provision

/-- A catalog as a document declares it, or as runs of it have left it. -/
inductive Catalog.Reached (sourcesDir : Path) : Catalog → Prop
  | parsed (text : List Char) {catalog : Catalog}
      (document : Document.parse sourcesDir text = .ok catalog) : Reached sourcesDir catalog
  | ran (state : RunState) (before : Reached sourcesDir state.catalog) (setting : Setting)
      (strict : Bool) : Reached sourcesDir (RunState.run setting strict state).1.catalog

theorem Catalog.Reached.oneBucket {sourcesDir : Path} {catalog : Catalog}
    (h : catalog.Reached sourcesDir) : ∀ entry ∈ catalog.entries, entry.unit.OneBucket := by
  induction h with
  | parsed text document => exact (Document.wellFormed_of_parse document).oneBucket
  | ran state before setting strict ih =>
    exact RunState.oneBucket_of_left (RunState.run_ledBy setting strict _ ih).entries ih

/-- The archive that an earlier run has fetched for a unit that installs one. -/
def Installable.leftover? (unit : Installable) : Option Path :=
  match unit.delivery with
  | .downloadedArchive => unit.archive?
  | .packageManager => none

theorem Installable.WellFormed.leftover?_eq_none {sourcesDir : Path} {unit : Installable}
    (h : unit.WellFormed sourcesDir) : unit.leftover? = none := by
  unfold Installable.leftover?
  split
  · exact h.no_archive
  · rfl

/-- The run itself writes a file. -/
def Event.writes : Event → Bool
  | wroteSource _ | createdMarker _ => true
  | _ => false

/-- Work that goes on to its end, and nothing has happened outside. -/
structure Rehearsed (work : Work) (ran : Work × Option Stop) : Prop where
  goes_on : ran.2 = none
  session : Idle work.session ran.1.session
  leftover? : ran.1.unit.leftover? = work.unit.leftover?

namespace Rehearsed

theorem of_eq {work done : Work} (hsession : done.session = work.session)
    (hunit : done.unit.leftover? = work.unit.leftover?) : Rehearsed work (done, none) :=
  ⟨rfl, by rw [hsession]; exact .refl _, hunit⟩

theorem trans {work next : Work} {ran : Work × Option Stop} (h : Rehearsed work (next, none))
    (hran : Rehearsed next ran) : Rehearsed work ran :=
  ⟨hran.goes_on, h.session.trans hran.session, hran.leftover?.trans h.leftover?⟩

end Rehearsed

theorem installPayload_not_mem_tasks {step : Step} (h : step ≠ .install) (unit : Installable) :
    .installPayload ∉ step.tasks unit := by
  cases step <;> simp [Step.tasks] at h ⊢

section

variable {setting : Setting} (hdry : setting.dryRun = true)

include hdry

/-! ## Tasks -/

theorem really_of_dry (act : Work → Work × Option Stop) (done : Work → Work) (work : Work) :
    work.really setting act done = (done work, none) := by
  rw [Work.really, if_pos hdry]

theorem rehearsed_runScript (phase : Phase) (work : Work) :
    Rehearsed work (work.runScript setting phase) := by
  unfold Work.runScript
  split
  · exact .of_eq rfl rfl
  · simp only [really_of_dry hdry]
    split
    · exact .of_eq rfl rfl
    · split <;> exact .of_eq rfl rfl

theorem rehearsed_retrieve (work : Work) : Rehearsed work (work.retrieve setting) := by
  unfold Work.retrieve
  simp only [hdry]
  split
  · exact .of_eq rfl rfl
  · split <;> exact .of_eq rfl rfl

theorem rehearsed_installPayload {work : Work} (h : work.unit.leftover? = none) :
    Rehearsed work (work.installPayload setting) := by
  unfold Work.installPayload
  unfold Installable.leftover? at h
  split
  · next hdelivery =>
    rw [hdelivery] at h
    simp only at h
    rw [h, if_pos hdry]
    exact .of_eq rfl rfl
  · split
    · exact .of_eq rfl rfl
    · simp only [really_of_dry hdry]
      exact .of_eq rfl rfl

theorem rehearsed_task {task : Task} {work : Work}
    (h : work.unit.leftover? = none ∨ task ≠ .installPayload) :
    Rehearsed work (task.run setting work) := by
  cases task with
  | addRepository identifier =>
    simp only [Task.run, Work.addRepository, really_of_dry hdry]
    exact .of_eq rfl rfl
  | writeSource entry =>
    simp only [Task.run, Work.writeSource, really_of_dry hdry]
    split <;> exact .of_eq rfl rfl
  | refreshIndex =>
    simp only [Task.run, Work.refreshIndex, really_of_dry hdry]
    split <;> exact .of_eq rfl rfl
  | runScript phase => exact rehearsed_runScript hdry phase work
  | retrieve => exact rehearsed_retrieve hdry work
  | installPayload =>
    rcases h with h | h
    · exact rehearsed_installPayload hdry h
    · exact absurd rfl h

theorem rehearsed_runTasks {tasks : List Task} {work : Work}
    (h : work.unit.leftover? = none ∨ .installPayload ∉ tasks) :
    Rehearsed work (Work.runTasks setting tasks work) := by
  induction tasks generalizing work with
  | nil => exact .of_eq rfl rfl
  | cons first rest ih =>
    rw [List.mem_cons, not_or] at h
    have hfirst : Rehearsed work (first.run setting work) :=
      rehearsed_task hdry (h.imp_right fun hnot => Ne.symm hnot.1)
    unfold Work.runTasks
    generalize first.run setting work = ran at hfirst ⊢
    obtain ⟨ran, stop?⟩ := ran
    obtain rfl : stop? = none := hfirst.goes_on
    refine hfirst.trans (ih ?_)
    rw [hfirst.leftover?]
    exact h.imp_right And.right

/-! ## Steps -/

theorem rehearsed_runSteps (steps : List Step) {work : Work}
    (hfree : work.session.interrupted = false)
    (h : work.unit.leftover? = none ∨ .install ∉ steps) :
    Rehearsed work (Work.runSteps setting steps work) := by
  induction steps generalizing work with
  | nil => exact .of_eq rfl rfl
  | cons step rest ih =>
    rw [List.mem_cons, not_or] at h
    have htasks : Rehearsed (work.enter step)
        (Work.runTasks setting (step.tasks work.unit) (work.enter step)) :=
      rehearsed_runTasks hdry (h.imp_right fun hnot =>
        installPayload_not_mem_tasks (Ne.symm hnot.1) work.unit)
    rw [runSteps_cons_of_free hfree]
    generalize Work.runTasks setting (step.tasks work.unit) (work.enter step) = ran at htasks ⊢
    obtain ⟨ran, stop?⟩ := ran
    obtain rfl : stop? = none := htasks.goes_on
    have hran : Rehearsed work (ran, none) :=
      ⟨rfl, (Idle.note work.session rfl).trans htasks.session, htasks.leftover?⟩
    refine hran.trans (ih (hran.session.interrupted.trans hfree) ?_)
    rw [hran.leftover?]
    exact h.imp_right And.right

/-- Steps other than the installation ask for nothing, whether an interrupt has arrived or not. -/
theorem calls_runSteps_of_not_install {steps : List Step} (h : .install ∉ steps) (work : Work) :
    (Work.runSteps setting steps work).1.session.calls = work.session.calls := by
  cases hfree : work.session.interrupted with
  | true => rw [runSteps_of_interrupted steps hfree]
  | false => exact (rehearsed_runSteps hdry steps hfree (.inr h)).session.calls

omit hdry in
theorem session_installPayload_of_leftover {work : Work} {archive : Path}
    (h : work.unit.leftover? = some archive) : (work.installPayload setting).1.session =
      (work.session.request setting.collaborators (.installArchive archive)).1 := by
  unfold Installable.leftover? at h
  unfold Work.installPayload
  cases hdelivery : work.unit.delivery with
  | downloadedArchive =>
    simp only [hdelivery] at h
    simp only [h]
    rcases Goes.tell_cases setting .install (.installArchive archive) work with
      ⟨answer, htell, -⟩ | ⟨failure, htell⟩ <;> rw [htell] <;> rfl
  | packageManager => simp [hdelivery] at h

theorem calls_runSteps_of_leftover {work : Work} {archive : Path}
    (hfree : work.session.interrupted = false) (h : work.unit.leftover? = some archive) :
    (Work.runSteps setting Step.all work).1.session.calls =
      work.session.calls ++ [.installArchive archive] := by
  have hfront : Rehearsed work (Work.runSteps setting
      [.repositories, .sources, .refreshIndex, .preScript, .retrieve] work) :=
    rehearsed_runSteps hdry _ hfree (.inr (by simp))
  rw [show Step.all = [.repositories, .sources, .refreshIndex, .preScript, .retrieve] ++
    [.install, .postScript] from rfl, runSteps_append]
  generalize Work.runSteps setting _ work = front at hfront ⊢
  obtain ⟨front, stop?⟩ := front
  obtain rfl : stop? = none := hfront.goes_on
  have hinstall : (Work.runTasks setting (Step.install.tasks front.unit)
      (front.enter .install)).1.session.calls = work.session.calls ++ [.installArchive archive] := by
    have hsession := @session_installPayload_of_leftover setting (front.enter .install) archive
      (hfront.leftover?.trans h)
    have henter : (front.enter .install).session.calls = work.session.calls := by
      simp [Work.enter, Event.call?, hfront.session.calls]
    rw [Step.tasks, runTasks_singleton, Task.run, hsession, Session.calls_request, henter]
  simp only
  rw [runSteps_cons_of_free (hfront.session.interrupted.trans hfree)]
  generalize Work.runTasks setting (Step.install.tasks front.unit) (front.enter .install) = ran
    at hinstall ⊢
  obtain ⟨ran, stop?⟩ := ran
  cases stop? with
  | some stop => exact hinstall
  | none =>
    simp only
    rw [calls_runSteps_of_not_install hdry (by simp)]
    exact hinstall

/-! ## Visits -/

/-- The archive that a dry visit installs. -/
def Setting.leftover? (setting : Setting) (unit : Installable) : Option Path :=
  if (setting.criteria.judge unit setting.snapshot setting.hostname).isSkip then none
  else unit.leftover?

variable {session : Session} (unit : Installable) (hfree : session.interrupted = false)

include hfree

theorem calls_visit_of_dry : (setting.visit session unit).session.calls =
    session.calls ++ ((setting.leftover? unit).map .installArchive).toList := by
  have hbegan : (session.note (.began unit.name)).calls = session.calls := by simp [Event.call?]
  unfold Setting.leftover?
  cases hdecision : setting.criteria.judge unit setting.snapshot setting.hostname with
  | skip cause =>
    rw [visit_of_skip hfree hdecision, hbegan]
    simp [Decision.isSkip]
  | install forced =>
    have hcalls : (Work.begin session unit forced).session.calls = session.calls := hbegan
    rw [visit_of_install hfree hdecision]
    simp only [Decision.isSkip, Bool.false_eq_true, if_false]
    cases hleft : unit.leftover? with
    | none =>
      have hran : Rehearsed (Work.begin session unit forced) _ :=
        rehearsed_runSteps hdry Step.all hfree (.inl hleft)
      rw [hran.session.calls, hcalls]
      simp
    | some archive =>
      have hran : (Work.runSteps setting Step.all (.begin session unit forced)).1.session.calls = _ :=
        calls_runSteps_of_leftover hdry hfree hleft
      rw [hran, hcalls]
      rfl

theorem visit_of_no_leftover (h : setting.leftover? unit = none) :
    Idle session (setting.visit session unit).session ∧
      ∃ result, (setting.visit session unit).result = .ok result ∧
        result.outcome.isFailed = false := by
  have hbegan : Idle session (session.note (.began unit.name)) := .note session rfl
  unfold Setting.leftover? at h
  cases hdecision : setting.criteria.judge unit setting.snapshot setting.hostname with
  | skip cause =>
    rw [visit_of_skip hfree hdecision]
    exact ⟨hbegan, _, rfl, rfl⟩
  | install forced =>
    rw [hdecision] at h
    have hran : Rehearsed (Work.begin session unit forced) _ :=
      rehearsed_runSteps hdry Step.all hfree (.inl h)
    rw [visit_of_install hfree hdecision, hran.goes_on]
    exact ⟨hbegan.trans hran.session, _, rfl, rfl⟩

/-! ## Tours -/

theorem tour_cons_of_no_leftover (strict : Bool) (rest : List Installable)
    (h : setting.leftover? unit = none) : ∃ reported, Idle session reported ∧
      tour setting strict (unit :: rest) session =
        (tour setting strict rest reported).cons ⟨unit, session⟩ := by
  obtain ⟨hvisit, result, hresult, hok⟩ := visit_of_no_leftover hdry unit hfree h
  refine ⟨(setting.visit session unit).session.note (.reported result),
    hvisit.trans (.note _ rfl), ?_⟩
  simp only [tour, hresult, abort?_of_not_failed hok]

omit unit in
theorem tour_of_no_leftover {strict : Bool} {units : List Installable}
    (h : ∀ unit ∈ units, setting.leftover? unit = none) :
    Idle session (tour setting strict units session).session := by
  induction units generalizing session with
  | nil => exact .refl session
  | cons unit rest ih =>
    rw [List.forall_mem_cons] at h
    obtain ⟨reported, hidle, htour⟩ := tour_cons_of_no_leftover hdry unit hfree strict rest h.1
    rw [htour]
    exact hidle.trans (ih (hidle.interrupted.trans hfree) h.2)

omit unit in
theorem tour_of_leftover {strict : Bool} {units : List Installable}
    (h : ∃ unit ∈ units, setting.leftover? unit ≠ none) :
    session.calls.length < (tour setting strict units session).session.calls.length := by
  induction units generalizing session with
  | nil => simp at h
  | cons unit rest ih =>
    cases hleft : setting.leftover? unit with
    | none =>
      rw [List.exists_mem_cons_iff] at h
      obtain ⟨reported, hidle, htour⟩ := tour_cons_of_no_leftover hdry unit hfree strict rest hleft
      rw [htour, ← hidle.calls]
      exact ih (hidle.interrupted.trans hfree) (h.resolve_left (absurd hleft))
    | some archive =>
      have hcalls := calls_visit_of_dry hdry unit hfree
      have hprefix : (setting.visit session unit).session.calls <+:
          (tour setting strict (unit :: rest) session).session.calls :=
        (visit_prefix_tour unit rest).filterMap Event.call?
      refine Nat.lt_of_lt_of_le ?_ hprefix.length_le
      rw [hcalls, hleft]
      simp

omit unit hfree in
theorem calls_tour_of_dry {strict : Bool} {units : List Installable} {call : Call}
    (h : call ∈ (tour setting strict units session).session.calls) : call ∈ session.calls ∨
      ∃ unit ∈ units, ∃ archive, setting.leftover? unit = some archive ∧
        call = .installArchive archive := by
  refine tour_preserves (P := fun later => ∀ call ∈ later.calls, call ∈ session.calls ∨
    ∃ unit ∈ units, ∃ archive, setting.leftover? unit = some archive ∧
      call = .installArchive archive) ?_ ?_ (fun call => .inl) call h
  · intro unit hunit later hlater call hcall
    cases hfree : later.interrupted with
    | true =>
      rw [visit_of_interrupted hfree] at hcall
      exact hlater call (by simpa [Event.call?] using hcall)
    | false =>
      rw [calls_visit_of_dry hdry unit hfree, List.mem_append] at hcall
      rcases hcall with hcall | hcall
      · exact hlater call hcall
      · simp only [Option.mem_toList, Option.map_eq_some_iff] at hcall
        obtain ⟨archive, harchive, rfl⟩ := hcall
        exact .inr ⟨unit, hunit, archive, harchive, rfl⟩
  · intro later result hlater call hcall
    exact hlater call (by simpa [Event.call?] using hcall)

omit unit hfree in
theorem unwritten_tour_of_dry {strict : Bool} {units : List Installable}
    (h : ∀ event ∈ session.trace, event.writes = false) :
    ∀ event ∈ (tour setting strict units session).session.trace, event.writes = false := by
  have hsnoc {trace : List Event} {event : Event} (hevent : event.writes = false)
      (htrace : ∀ event ∈ trace, event.writes = false) :
      ∀ other ∈ trace ++ [event], other.writes = false :=
    List.forall_mem_append.mpr ⟨htrace, List.forall_mem_singleton.mpr hevent⟩
  refine tour_preserves (P := fun later => ∀ event ∈ later.trace, event.writes = false)
    (fun unit _ later hlater => ?_) (fun _ _ => hsnoc rfl) h
  refine visit_preserves (P := fun later => ∀ event ∈ later.trace, event.writes = false) hlater
    (fun _ => hsnoc rfl) (fun _ _ => hsnoc rfl) ?_
  intro step work next hwork hmove
  rcases hmove.trace_cases with htrace | ⟨event, htrace, hadds⟩ <;> rw [htrace]
  · exact hwork
  · refine hsnoc ?_ hwork
    cases hadds with
    | called => rfl
    | wroteSource _ real | createdMarker _ _ real => rw [hdry] at real; cases real

omit unit hfree in
theorem idle_tour_iff_of_dry (strict : Bool) (units : List Installable) :
    (tour setting strict units session).session.calls = session.calls ∧
        (tour setting strict units session).session.files = session.files ↔
      session.interrupted = true ∨ ∀ unit ∈ units, setting.leftover? unit = none := by
  cases hfree : session.interrupted with
  | true =>
    have hidle : Idle session (tour setting strict units session).session :=
      idle_tour_of_interrupted hfree
    exact iff_of_true ⟨hidle.calls, hidle.files⟩ (.inl rfl)
  | false =>
    rw [or_iff_right Bool.false_ne_true]
    constructor
    · rintro ⟨hcalls, -⟩
      by_contra hleft
      push Not at hleft
      have hmore : session.calls.length < (tour setting strict units session).session.calls.length :=
        tour_of_leftover hdry hfree hleft
      rw [hcalls] at hmore
      exact Nat.lt_irrefl _ hmore
    · intro hnone
      have hidle : Idle session (tour setting strict units session).session :=
        tour_of_no_leftover hdry hfree hnone
      exact ⟨hidle.calls, hidle.files⟩

end

/-! ## Runs -/

/-- What a dry run does outside. -/
structure DryRun (setting : Setting) (before after : RunState) : Prop where
  /-- The run itself writes nothing. -/
  unwritten : ∀ event ∈ after.session.trace, event.writes = false
  calls : ∀ call ∈ after.session.calls, ∃ unit ∈ before.due, ∃ archive,
    setting.leftover? unit = some archive ∧ call = .installArchive archive
  idle_iff : after.session.calls = [] ∧ after.session.files = before.session.files ↔
    before.session.interrupted = true ∨ ∀ unit ∈ before.due, setting.leftover? unit = none

/-- A dry run has no effect outside just if no unit that it installs holds an archive. -/
theorem dryRun_of_reached {sourcesDir : Path} {catalog : Catalog} (h : catalog.Reached sourcesDir)
    {setting : Setting} (hdry : setting.dryRun = true) (strict : Bool) (progress : Progress)
    (files : Files) (interrupted : Bool) :
    DryRun setting { progress, catalog, session := { files, interrupted } }
      (RunState.run setting strict { progress, catalog, session := { files, interrupted } }).1 := by
  have hran := RunState.run_ledBy setting strict
    { progress, catalog, session := { files, interrupted } } h.oneBucket
  refine ⟨?_, ?_, ?_⟩ <;> rw [hran.session]
  · exact unwritten_tour_of_dry hdry (by simp)
  · intro call hcall
    exact (calls_tour_of_dry hdry hcall).resolve_left (by simp [Session.calls])
  · exact idle_tour_iff_of_dry hdry strict _

/-! ## A leftover archive -/

/-- A host on which every archive is fetched to the same place. -/
def Setting.fetching (dryRun : Bool) : Setting where
  collaborators := ⟨fun _ call files =>
    { result := .ok (match call with
        | .fetch _ => "work/a.deb"
        | .nameOf _ => "a"
        | _ => "")
      files }⟩
  hostname := "host"
  dryRun := dryRun

/-- The catalog of a document with one unit, which installs an archive. -/
def Catalog.ofArchive : Catalog :=
  ⟨[⟨1, { name := "a", delivery := .downloadedArchive, url? := some "http://x/a.deb" }⟩]⟩

theorem parse_ofArchive :
    Document.parse Document.defaultSourcesDir "a:\n  deb: http://x/a.deb\n".toList =
      .ok .ofArchive := by
  decide +kernel

/-- The same catalog after a real run, which has fetched the archive. -/
def Catalog.fetched : Catalog :=
  (RunState.run (.fetching false) false
    { catalog := .ofArchive, session := { files := {} } }).1.catalog

theorem reached_fetched : Catalog.fetched.Reached Document.defaultSourcesDir :=
  .ran { catalog := .ofArchive, session := { files := {} } } (.parsed _ parse_ofArchive) _ _

theorem dryRun_of_reached_by_fetching :
    Catalog.fetched.Reached Document.defaultSourcesDir ∧ (Setting.fetching true).dryRun = true ∧
    DryRun (.fetching true)
      { progress := {}, catalog := .fetched, session := { files := {}, interrupted := false } }
      (RunState.run (.fetching true) false
        { progress := {}, catalog := .fetched
          session := { files := {}, interrupted := false } }).1 :=
  ⟨reached_fetched, rfl, dryRun_of_reached reached_fetched rfl _ _ _ _⟩

/-- A dry run installs an archive that the real run before it has fetched. -/
theorem dry_run_installs_leftover :
    Document.parse Document.defaultSourcesDir "a:\n  deb: http://x/a.deb\n".toList =
      .ok .ofArchive ∧
    Catalog.fetched.Reached Document.defaultSourcesDir ∧ (Setting.fetching true).dryRun = true ∧
    (RunState.run (.fetching true) false
      { catalog := .fetched, session := { files := {} } }).1.session.calls =
      [.installArchive ⟨"work/a.deb"⟩] :=
  ⟨parse_ofArchive, reached_fetched, rfl, by decide +kernel⟩

end Provision
