import Provision.Proofs.Run.Dry
import Provision.Proofs.Run.Marker

/-!
# Runs in the shadow of a dry run

A run does what the dry run of the same document says, or less: a call may fail, an interrupt may
arrive, and what an earlier unit has written is not written again. It never does more.
-/

namespace Provision

def Setting.dry (setting : Setting) : Setting := { setting with dryRun := true }

theorem Setting.dryRun_dry (setting : Setting) : setting.dry.dryRun = true := rfl

/-! ## Actions -/

/-- The action as a dry run names it, which has no archive at hand. -/
def Action.foretold : Action → Action
  | installArchive _ => installDownloaded
  | action => action

/-- The description of an action, read as a dry run gives it. -/
def Action.foretoldText (text : String) : String :=
  if "install archive ".toList.isPrefixOf text.toList then installDownloaded.describe else text

theorem Action.foretoldText_describe (action : Action) :
    foretoldText action.describe = action.foretold.describe := by
  unfold foretoldText describe foretold
  cases action <;> simp [toString]

/-- Work that goes on has done what it had done, and needs the refresh that it needed. -/
structure Grown (work next : Work) : Prop where
  actions : work.actions <+: next.actions
  refreshDue : work.unit.refreshDue = true → next.unit.refreshDue = true

theorem Grown.trans {a b c : Work} (hab : Grown a b) (hbc : Grown b c) : Grown a c :=
  ⟨hab.actions.trans hbc.actions, hbc.refreshDue ∘ hab.refreshDue⟩

theorem Move.grown {setting : Setting} {step : Step} {work next : Work}
    (h : Move setting work step next) : Grown work next := by
  cases h with
  | call | hold => exact ⟨List.prefix_rfl, id⟩
  | @source entry =>
    rcases work.putSource_cases entry with ⟨files, hput⟩ | ⟨files, message, hput, -⟩ <;>
      rw [hput] <;> exact ⟨List.prefix_rfl, id⟩
  | @marker phase =>
    rcases work.leaveMarker_cases setting phase with
      ⟨files, path, hput, -⟩ | ⟨files, failure, hput, -⟩ <;>
      rw [hput] <;> exact ⟨List.prefix_rfl, id⟩
  | record => exact ⟨List.prefix_append _ _, id⟩
  | needRefresh => exact ⟨List.prefix_rfl, fun _ => rfl⟩

theorem Moves.grown {setting : Setting} {step : Step} {work next : Work}
    (h : Moves setting step work next) : Grown work next :=
  h.preserves (P := Grown work) (fun _ _ hwork hmove => hwork.trans hmove.grown)
    ⟨List.prefix_rfl, id⟩

theorem runSteps_grown (setting : Setting) (steps : List Step) (work : Work) :
    Grown work (Work.runSteps setting steps work).1 :=
  runSteps_induction (Q := Grown work) (P := fun _ => Grown work)
    (fun _ _ h => ⟨h.actions, h.refreshDue⟩) (fun _ _ _ h hmove => h.trans hmove.grown)
    (fun _ _ => id) ⟨List.prefix_rfl, id⟩

/-! ## What stays -/

/-- What a unit looks at before it does anything: its source files and its markers. -/
def Installable.Watches (markers : MarkerStore) (unit : Installable) (p : Path) : Prop :=
  (∃ entry ∈ unit.sources, entry.path = p) ∨ ∃ phase, markers.path unit.name phase = p

/-- Collaborators that remove none of the paths. -/
def Collaborators.Keep (collaborators : Collaborators) (watched : Path → Prop) : Prop :=
  ∀ calls call files p, watched p → files.exists? p = true →
    (collaborators.respond calls call files).files.exists? p = true

theorem Collaborators.Keep.of_files_eq {collaborators : Collaborators} (watched : Path → Prop)
    (h : ∀ calls call files, (collaborators.respond calls call files).files = files) :
    collaborators.Keep watched := by
  intro calls call files p _ hexists
  rwa [h]

/-- What was there at the start is there still. -/
def Session.Keeps (watched : Path → Prop) (start : Files) (session : Session) : Prop :=
  ∀ p, watched p → start.exists? p = true → session.files.exists? p = true

/-- A unit at work in the shadow of the same unit in a dry run. -/
structure Shadows (watched : Path → Prop) (start : Files) (work dry : Work) : Prop where
  declared : work.unit.declared = dry.unit.declared
  forced : work.forced = dry.forced
  actions : List.Sublist (work.actions.map Action.foretold) dry.actions
  refreshDue : work.unit.refreshDue = true → dry.unit.refreshDue = true
  leftover? : dry.unit.leftover? = none
  same : dry.session.files = start
  keeps : work.session.Keeps watched start

section

variable {setting : Setting} {watched : Path → Prop} {start : Files} {work dry : Work}

namespace Shadows

theorem record (h : Shadows watched start work dry) (action : Action) :
    Shadows watched start (work.record action) (dry.record action.foretold) := by
  refine ⟨h.declared, h.forced, ?_, h.refreshDue, h.leftover?, h.same, h.keeps⟩
  rw [Work.record, Work.record, List.map_append]
  exact h.actions.append (List.Sublist.refl _)

theorem needRefresh (h : Shadows watched start work dry) :
    Shadows watched start work.needRefresh dry.needRefresh :=
  ⟨h.declared, h.forced, h.actions, fun _ => rfl, h.leftover?, h.same, h.keeps⟩

/-- The dry run goes on for itself. -/
theorem of_rehearsed {ran : Work × Option Stop} (h : Shadows watched start work dry)
    (hran : Rehearsed dry ran) (hkept : Move.Kept dry ran.1) (hgrown : Grown dry ran.1) :
    Shadows watched start work ran.1 where
  declared := h.declared.trans hkept.declared.symm
  forced := h.forced.trans hkept.forced.symm
  actions := h.actions.trans hgrown.actions.sublist
  refreshDue := hgrown.refreshDue ∘ h.refreshDue
  leftover? := hran.leftover?.trans h.leftover?
  same := hran.session.files.trans h.same
  keeps := h.keeps

theorem enter (h : Shadows watched start work dry) (step : Step) :
    Shadows watched start (work.enter step) (dry.enter step) :=
  ⟨h.declared, h.forced, h.actions, h.refreshDue, h.leftover?, h.same, h.keeps⟩

theorem withFiles (h : Shadows watched start work dry) {session : Session}
    (hlasts : Files.Lasts work.session.files session.files) :
    Shadows watched start { work with session } dry :=
  ⟨h.declared, h.forced, h.actions, h.refreshDue, h.leftover?, h.same,
    fun p hp hexists => hlasts.exists? (h.keeps p hp hexists)⟩

theorem putSource (h : Shadows watched start work dry) (entry : SourceFile) :
    Shadows watched start (work.putSource entry).1 dry := by
  have hmade := Files.makeParent_lasts work.session.files entry.path
  unfold Work.putSource
  generalize work.session.files.makeParent entry.path = result at hmade ⊢
  obtain ⟨made, fault?⟩ := result
  cases fault? with
  | some fault => exact h.withFiles hmade
  | none =>
    simp only
    split
    · next files hwrite => exact h.withFiles (hmade.trans (Files.write_lasts hwrite))
    · exact h.withFiles hmade

theorem leaveMarker (h : Shadows watched start work dry) (phase : Phase) :
    Shadows watched start (work.leaveMarker setting phase).1 dry := by
  have hmade := setting.markers.create_lasts work.session.files work.unit.name phase
  unfold Work.leaveMarker
  generalize setting.markers.create work.session.files work.unit.name phase = result at hmade ⊢
  obtain ⟨files, path | failure⟩ := result
  · exact h.withFiles hmade
  · exact h.withFiles hmade

theorem called (h : Shadows watched start work dry) (hkeep : setting.collaborators.Keep watched)
    (call : Call) : Shadows watched start (work.called setting call) dry :=
  ⟨h.declared, h.forced, h.actions, h.refreshDue, h.leftover?, h.same,
    fun p hp hexists => hkeep _ _ _ p hp (h.keeps p hp hexists)⟩

theorem tell (h : Shadows watched start work dry) (hkeep : setting.collaborators.Keep watched)
    (step : Step) (call : Call) : Shadows watched start (work.tell setting step call).1 dry := by
  rcases Goes.tell_cases setting step call work with ⟨answer, htell, -⟩ | ⟨failure, htell⟩ <;>
    rw [htell] <;> exact h.called hkeep call

/-- A run acts before it does what the dry run does at once, and may fail to. -/
theorem really {act : Work → Work × Option Stop} {done : Work → Work} {final : Work}
    (h : Shadows watched start work dry) (hact : Shadows watched start (act work).1 dry)
    (hdone : ∀ work, Shadows watched start work dry →
      Shadows watched start (done work) final ∧ Shadows watched start work final) :
    Shadows watched start (work.really setting act done).1 final := by
  unfold Work.really
  split
  · exact (hdone work h).1
  · split
    · next acted hacted =>
      rw [hacted] at hact
      exact (hdone acted hact).1
    · next acted stop hacted =>
      rw [hacted] at hact
      exact (hdone acted hact).2

theorem unit_eq {α : Type} (h : Shadows watched start work dry) (f : Installable → α)
    (hf : ∀ unit, f unit.declared = f unit) : f work.unit = f dry.unit :=
  Installable.eq_of_declared_eq h.declared f hf

theorem record_dry (h : Shadows watched start work dry) (action : Action) :
    Shadows watched start work (dry.record action) :=
  ⟨h.declared, h.forced, h.actions.trans (List.sublist_append_left _ _), h.refreshDue, h.leftover?,
    h.same, h.keeps⟩

theorem needRefresh_dry (h : Shadows watched start work dry) :
    Shadows watched start work dry.needRefresh :=
  ⟨h.declared, h.forced, h.actions, fun _ => rfl, h.leftover?, h.same, h.keeps⟩

/-! ## Tasks -/

theorem addRepository (h : Shadows watched start work dry)
    (hkeep : setting.collaborators.Keep watched) (identifier : String) :
    Shadows watched start (work.addRepository setting identifier).1
      (dry.addRepository setting.dry identifier).1 := by
  unfold Work.addRepository
  rw [really_of_dry setting.dryRun_dry]
  exact h.really (h.tell hkeep _ _) fun _ hwork =>
    ⟨(hwork.record _).needRefresh, (hwork.record_dry _).needRefresh_dry⟩

theorem writeSource (h : Shadows watched start work dry) {entry : SourceFile}
    (hwatched : watched entry.path) :
    Shadows watched start (work.writeSource setting entry).1
      (dry.writeSource setting.dry entry).1 := by
  unfold Work.writeSource
  rw [h.same]
  cases hthere : start.exists? entry.path with
  | true =>
    rw [h.keeps entry.path hwatched hthere]
    exact h
  | false =>
    have hdone : ∀ work, Shadows watched start work dry →
        Shadows watched start (work.record (.writeSource entry.path)).needRefresh
            (dry.record (.writeSource entry.path)).needRefresh ∧
          Shadows watched start work (dry.record (.writeSource entry.path)).needRefresh :=
      fun _ hwork => ⟨(hwork.record _).needRefresh, (hwork.record_dry _).needRefresh_dry⟩
    simp only [Bool.false_eq_true, if_false]
    rw [really_of_dry setting.dryRun_dry]
    split
    · exact (hdone work h).2
    · exact h.really (h.putSource entry) hdone

theorem refreshIndex (h : Shadows watched start work dry)
    (hkeep : setting.collaborators.Keep watched) :
    Shadows watched start (work.refreshIndex setting).1 (dry.refreshIndex setting.dry).1 := by
  unfold Work.refreshIndex
  split
  · next hdue =>
    rw [if_pos (h.refreshDue hdue), really_of_dry setting.dryRun_dry]
    exact h.really (h.tell hkeep _ _) fun _ hwork => ⟨hwork.record _, hwork.record_dry _⟩
  · split
    · rw [really_of_dry setting.dryRun_dry]
      exact h.record_dry _
    · exact h

theorem runScript (h : Shadows watched start work dry)
    (hkeep : setting.collaborators.Keep watched) {phase : Phase}
    (hwatched : watched (setting.markers.path dry.unit.name phase)) :
    Shadows watched start (work.runScript setting phase).1 (dry.runScript setting.dry phase).1 := by
  unfold Work.runScript
  rw [h.unit_eq Installable.script? Installable.script?_declared,
    h.unit_eq Installable.name fun _ => rfl, h.unit_eq Installable.isOnce fun _ => rfl, h.same]
  split
  · exact h
  · next text hscript =>
    have htold := h.tell hkeep (.ofPhase phase) (.runScript text)
    simp only [really_of_dry setting.dryRun_dry]
    have hmore (work : Work) (hwork : Shadows watched start work dry) :
        Shadows watched start work (if dry.unit.isOnce phase then
          (dry.record (.runScript phase)).record
            (.createMarker (setting.dry.markers.path dry.unit.name phase))
          else dry.record (.runScript phase)) := by
      split
      · exact (hwork.record_dry _).record_dry _
      · exact hwork.record_dry _
    split
    · next hmarked =>
      split
      · exact h
      · exact hmore work h
    · next hmarked =>
      rw [if_neg]
      · refine h.really ?_ fun work hwork => ⟨?_, hmore work hwork⟩
        · generalize work.tell setting (.ofPhase phase) (.runScript text) = told at htold ⊢
          obtain ⟨told, stop?⟩ := told
          cases stop? with
          | some stop => exact htold
          | none =>
            simp only
            split
            · exact htold.leaveMarker phase
            · exact htold
        · split
          · exact (hwork.record _).record _
          · exact hwork.record _
      · -- What the dry run finds at the start is still there.
        rw [Bool.and_eq_true, not_and] at hmarked ⊢
        exact fun honce hthere => hmarked honce (h.keeps _ hwatched hthere)

theorem retrieve (h : Shadows watched start work dry)
    (hkeep : setting.collaborators.Keep watched) :
    Shadows watched start (work.retrieve setting).1 (dry.retrieve setting.dry).1 := by
  unfold Work.retrieve
  rw [h.unit_eq Installable.url? fun _ => rfl, h.unit_eq Installable.package fun _ => rfl, h.forced]
  split
  · exact h
  · next url hurl =>
    rw [show setting.dry.snapshot = setting.snapshot from rfl, if_pos setting.dryRun_dry]
    split
    · exact h
    · split
      · exact h.record _
      · have hfetched := h.called hkeep (.fetch url)
        rcases Goes.ask_cases setting .retrieve (.fetch url) work with
          ⟨text, hask, -⟩ | ⟨failure, hask⟩
        · have hnamed := (hfetched.record (.download url)).called hkeep (.nameOf ⟨text⟩)
          rw [hask]
          simp only
          rcases Goes.ask_cases setting .retrieve (.nameOf ⟨text⟩)
            ((work.called setting (.fetch url)).record (.download url)) with
            ⟨package, hask, -⟩ | ⟨failure, hask⟩
          · rw [hask]
            simp only
            split
            · exact hnamed
            · exact ⟨hnamed.declared, hnamed.forced, hnamed.actions, hnamed.refreshDue,
                hnamed.leftover?, hnamed.same, hnamed.keeps⟩
          · rw [hask]
            exact hnamed
        · rw [hask]
          exact hfetched.record_dry _

theorem installPayload (h : Shadows watched start work dry)
    (hkeep : setting.collaborators.Keep watched) :
    Shadows watched start (work.installPayload setting).1
      (dry.installPayload setting.dry).1 := by
  have hleft := h.leftover?
  unfold Installable.leftover? at hleft
  unfold Work.installPayload
  rw [h.unit_eq Installable.delivery fun _ => rfl, h.unit_eq Installable.package fun _ => rfl,
    h.unit_eq Installable.has fun _ => rfl]
  split
  · next hdelivery =>
    rw [hdelivery] at hleft
    simp only at hleft
    rw [hleft, if_pos setting.dryRun_dry]
    split
    · next archive harchive =>
      have htold := h.tell hkeep .install (.installArchive archive)
      split
      · next told hran =>
        rw [hran] at htold
        exact htold.record (.installArchive archive)
      · next told stop hran =>
        rw [hran] at htold
        exact htold.record_dry _
    · split
      · exact h.record _
      · exact h.record_dry _
  · split
    · exact h
    · rw [really_of_dry setting.dryRun_dry]
      exact h.really (h.tell hkeep _ _) fun _ hwork => ⟨hwork.record _, hwork.record_dry _⟩

variable {unit : Installable}

theorem task {step : Step} {task : Task} (h : Shadows watched start work dry)
    (hkeep : setting.collaborators.Keep watched)
    (hwatched : ∀ p, unit.Watches setting.markers p → watched p)
    (hunit : dry.unit.declared = unit.declared) (htask : task ∈ step.tasks unit) :
    Shadows watched start (task.run setting work).1 (task.run setting.dry dry).1 := by
  have hname : dry.unit.name = unit.name := by
    rw [← Installable.name_declared, hunit, Installable.name_declared]
  cases task with
  | addRepository identifier => exact h.addRepository hkeep identifier
  | writeSource entry =>
    refine h.writeSource (hwatched _ (.inl ⟨entry, ?_, rfl⟩))
    cases step <;> simp_all [Step.tasks]
  | refreshIndex => exact h.refreshIndex hkeep
  | runScript phase => exact h.runScript hkeep (hwatched _ (.inr ⟨phase, by rw [hname]⟩))
  | retrieve => exact h.retrieve hkeep
  | installPayload => exact h.installPayload hkeep

/-- If the work ends early, the dry run goes on for itself. -/
theorem runTasks {step : Step} {tasks : List Task} (h : Shadows watched start work dry)
    (hkeep : setting.collaborators.Keep watched)
    (hwatched : ∀ p, unit.Watches setting.markers p → watched p)
    (hunit : dry.unit.declared = unit.declared) (htasks : ∀ task ∈ tasks, task ∈ step.tasks unit) :
    Shadows watched start (Work.runTasks setting tasks work).1
      (Work.runTasks setting.dry tasks dry).1 := by
  induction tasks generalizing work dry with
  | nil => exact h
  | cons first rest ih =>
    rw [List.forall_mem_cons] at htasks
    have hfirst := h.task hkeep hwatched hunit htasks.1
    have hdry : Rehearsed dry (first.run setting.dry dry) :=
      rehearsed_task setting.dryRun_dry (.inl h.leftover?)
    have hkept : Move.Kept dry (first.run setting.dry dry).1 := by
      rw [← Step.tasks_declared, ← hunit, Step.tasks_declared] at htasks
      exact (Goes.task htasks.1).moves.kept
    unfold Work.runTasks
    generalize first.run setting work = ran at hfirst ⊢
    generalize first.run setting.dry dry = dryRan at hfirst hdry hkept ⊢
    obtain ⟨ran, stop?⟩ := ran
    obtain ⟨dryRan, dryStop?⟩ := dryRan
    obtain rfl : dryStop? = none := hdry.goes_on
    have hrest : dryRan.unit.declared = unit.declared := hkept.declared.trans hunit
    cases stop? with
    | none => exact ih hfirst hrest htasks.2
    | some stop =>
      rw [← Step.tasks_declared, ← hrest, Step.tasks_declared] at htasks
      have hmoves := (@Goes.runTasks setting.dry step dryRan rest htasks.2).moves
      exact hfirst.of_rehearsed (rehearsed_runTasks setting.dryRun_dry (.inl hfirst.leftover?))
        hmoves.kept hmoves.grown

theorem runSteps (steps : List Step) (h : Shadows watched start work dry)
    (hkeep : setting.collaborators.Keep watched)
    (hwatched : ∀ p, unit.Watches setting.markers p → watched p)
    (hunit : dry.unit.declared = unit.declared) (hfree : dry.session.interrupted = false) :
    Shadows watched start (Work.runSteps setting steps work).1
      (Work.runSteps setting.dry steps dry).1 := by
  have halone (steps : List Step) {work dry : Work} (h : Shadows watched start work dry)
      (hfree : dry.session.interrupted = false) :
      Shadows watched start work (Work.runSteps setting.dry steps dry).1 :=
    h.of_rehearsed (rehearsed_runSteps setting.dryRun_dry steps hfree (.inl h.leftover?))
      (runSteps_kept _ _ _) (runSteps_grown _ _ _)
  induction steps generalizing work dry with
  | nil => exact h
  | cons step rest ih =>
    by_cases harrived : work.session.interrupted = true
    · rw [runSteps_of_interrupted _ harrived]
      exact halone _ h hfree
    · rw [Bool.not_eq_true] at harrived
      have htasks : step.tasks work.unit = step.tasks dry.unit :=
        h.unit_eq (Step.tasks · step) fun unit => Step.tasks_declared unit step
      have hsame : step.tasks dry.unit = step.tasks unit := by
        rw [← Step.tasks_declared, hunit, Step.tasks_declared]
      have hran := (h.enter step).runTasks hkeep hwatched hunit
        fun task (htask : task ∈ step.tasks dry.unit) => hsame ▸ htask
      have hdry : Rehearsed (dry.enter step)
          (Work.runTasks setting.dry (step.tasks dry.unit) (dry.enter step)) :=
        rehearsed_runTasks setting.dryRun_dry (.inl h.leftover?)
      have hkept := (goes_step setting.dry step dry).moves.kept
      rw [runSteps_cons_of_free harrived, runSteps_cons_of_free hfree, htasks]
      generalize Work.runTasks setting (step.tasks dry.unit) (work.enter step) = ran at hran ⊢
      generalize Work.runTasks setting.dry (step.tasks dry.unit) (dry.enter step) = dryRan
        at hran hdry hkept ⊢
      obtain ⟨ran, stop?⟩ := ran
      obtain ⟨dryRan, dryStop?⟩ := dryRan
      obtain rfl : dryStop? = none := hdry.goes_on
      have hstill : dryRan.session.interrupted = false := hdry.session.interrupted.trans hfree
      cases stop? with
      | none => exact ih hran (hkept.declared.trans hunit) hstill
      | some stop => exact halone rest hran hstill

end Shadows

/-! ## Visits -/

/-- What a dry run reports about a unit covers what the run reports. -/
structure UnitResult.Covers (dry result : UnitResult) : Prop where
  name : result.name = dry.name
  bucket : result.bucket = dry.bucket
  actions : List.Sublist (result.actions.map Action.foretoldText) dry.actions

theorem conclude_eq_ok {unit : Installable} {stop? : Option Stop} {result : UnitResult}
    (h : work.conclude unit stop? = .ok result) :
    ∃ outcome, result = unit.result outcome work.actions := by
  unfold Work.conclude at h
  split at h
  · exact ⟨_, (Except.ok.inj h).symm⟩
  · exact ⟨_, (Except.ok.inj h).symm⟩
  · exact ⟨_, (Except.ok.inj h).symm⟩
  · cases h

theorem Shadows.covers (h : Shadows watched start work dry) (unit : Installable)
    (outcome other : Outcome) :
    (unit.result other dry.actions).Covers (unit.result outcome work.actions) := by
  refine ⟨rfl, rfl, ?_⟩
  have hactions := h.actions.map Action.describe
  rw [List.map_map] at hactions
  simpa [Installable.result, Function.comp_def, Action.foretoldText_describe] using hactions

section

variable {unit : Installable} {session drySession : Session}
  (hkeep : setting.collaborators.Keep watched)

include hkeep

theorem visit_covered (hleft : unit.leftover? = none)
    (hwatched : ∀ p, unit.Watches setting.markers p → watched p)
    (hkeeps : session.Keeps watched start) (hsame : drySession.files = start)
    (hfree : drySession.interrupted = false) :
    (setting.visit session unit).session.Keeps watched start ∧
      ∀ result, (setting.visit session unit).result = .ok result →
        ∃ dry, (setting.dry.visit drySession unit).result = .ok dry ∧ dry.Covers result := by
  have hvisited := visited setting session unit
  generalize setting.visit session unit = visit at hvisited ⊢
  cases hvisited with
  | interrupted => exact ⟨hkeeps, fun result hresult => by cases hresult⟩
  | skipped free decided =>
    rw [@visit_of_skip setting.dry _ _ _ hfree decided]
    refine ⟨hkeeps, fun result hresult => ⟨_, rfl, ?_⟩⟩
    obtain rfl := Except.ok.inj hresult
    exact ⟨rfl, rfl, List.nil_sublist _⟩
  | @worked forced final stop? free decided ran =>
    have hbegin : Shadows watched start (.begin session unit forced)
        (.begin drySession unit forced) :=
      ⟨rfl, rfl, List.nil_sublist _, id, hleft, hsame, hkeeps⟩
    have hran := hbegin.runSteps Step.all hkeep hwatched rfl hfree
    have hdry : Rehearsed (.begin drySession unit forced) _ :=
      rehearsed_runSteps setting.dryRun_dry Step.all hfree (.inl hleft)
    rw [ran] at hran
    rw [@visit_of_install setting.dry _ _ _ hfree decided, hdry.goes_on]
    refine ⟨hran.keeps, fun result hresult => ⟨_, rfl, ?_⟩⟩
    obtain ⟨outcome, rfl⟩ := conclude_eq_ok hresult
    exact hran.covers unit outcome .completed

/-! ## Tours -/

theorem tour_covered {strict strict' : Bool} {units : List Installable}
    (hunits : ∀ unit ∈ units, unit.leftover? = none ∧
      ∀ p, unit.Watches setting.markers p → watched p)
    (hkeeps : session.Keeps watched start) (hsame : drySession.files = start)
    (hfree : drySession.interrupted = false) :
    ∃ covering rest,
      (tour setting.dry strict' units drySession).results setting.dry = covering ++ rest ∧
      List.Forall₂ UnitResult.Covers covering
        ((tour setting strict units session).results setting) := by
  induction units generalizing session drySession with
  | nil => exact ⟨[], [], rfl, .nil⟩
  | cons unit rest ih =>
    rw [List.forall_mem_cons] at hunits
    obtain ⟨⟨hleft, hwatched⟩, hrest⟩ := hunits
    obtain ⟨hvisit, hcovered⟩ := visit_covered hkeep hleft hwatched hkeeps hsame hfree
    have hnone : setting.dry.leftover? unit = none := by
      unfold Setting.leftover?
      split
      · rfl
      · exact hleft
    obtain ⟨reported, hidle, htour⟩ :=
      tour_cons_of_no_leftover setting.dryRun_dry unit hfree strict' rest hnone
    rw [htour]
    simp only [tour]
    cases hresult : (setting.visit session unit).result with
    | error error =>
      simp only [Tour.results, List.filterMap_cons, Turn.result?_of_error hresult]
      exact ⟨[], _, rfl, .nil⟩
    | ok result =>
      obtain ⟨dry, hdry, hcovers⟩ := hcovered result hresult
      have hmore : Tour.results setting.dry
          ((tour setting.dry strict' rest reported).cons ⟨unit, drySession⟩) =
          dry :: Tour.results setting.dry (tour setting.dry strict' rest reported) := by
        simp [Tour.results, Tour.cons, Turn.result?_of_ok hdry]
      rw [hmore]
      cases habort : RunState.abort? strict result with
      | some error =>
        refine ⟨[dry], _, rfl, ?_⟩
        simpa [habort, Tour.results, Turn.result?_of_ok hresult] using hcovers
      | none =>
        have hreported : ((setting.visit session unit).session.note (.reported result)).Keeps
            watched start := hvisit
        obtain ⟨covering, more, hsplit, hall⟩ :=
          ih hrest hreported (hidle.files.trans hsame) (hidle.interrupted.trans hfree)
        refine ⟨dry :: covering, more, by rw [hsplit]; rfl, ?_⟩
        simpa [habort, Tour.results, Tour.cons, Turn.result?_of_ok hresult] using And.intro hcovers hall

end

end

/-! ## Runs -/

/-- The dry run reports about all units that the run reports about, and about each of them all that
the run does. -/
def Report.Covers (dry report : Report) : Prop :=
  ∃ covering rest, dry.units = covering ++ rest ∧
    List.Forall₂ UnitResult.Covers covering report.units

/-- The paths that the units of a catalog look at. -/
def Catalog.Watches (markers : MarkerStore) (catalog : Catalog) (p : Path) : Prop :=
  ∃ entry ∈ catalog.entries, entry.unit.Watches markers p

/-- A dry run of a document covers every run of it over the same files, whatever fails and whenever an
interrupt arrives, as long as the collaborators remove no source file and no marker of its units. -/
theorem dry_run_covers_run {sourcesDir : Path} {text : List Char} {catalog : Catalog}
    (h : Document.parse sourcesDir text = .ok catalog) {setting : Setting}
    (hkeep : setting.collaborators.Keep (catalog.Watches setting.markers)) (strict strict' : Bool)
    (files : Files) (interrupted : Bool) :
    (RunState.run setting.dry strict'
        { catalog, session := { files } }).1.progress.report.Covers
      (RunState.run setting strict
        { catalog, session := { files, interrupted } }).1.progress.report := by
  have hcatalog := Document.wellFormed_of_parse h
  have hunits : ∀ unit ∈ catalog.runOrder.map Entry.unit, unit.leftover? = none ∧
      ∀ p, unit.Watches setting.markers p → catalog.Watches setting.markers p := by
    intro unit hunit
    obtain ⟨entry, hentry, rfl⟩ := List.mem_map.mp hunit
    rw [(Catalog.runOrder_perm hcatalog.oneBucket).mem_iff] at hentry
    exact ⟨(hcatalog.units entry hentry).leftover?_eq_none, fun p hp => ⟨entry, hentry, hp⟩⟩
  unfold Report.Covers
  rw [units_of_fresh hcatalog, units_of_fresh hcatalog]
  exact tour_covered hkeep hunits (fun _ _ => id) rfl rfl

/-- A run that installs an archive, which the dry run has not got. -/
theorem dry_run_covers_run_of_archive :
    Document.parse Document.defaultSourcesDir "a:\n  deb: http://x/a.deb\n".toList =
      .ok .ofArchive ∧
    (Setting.fetching false).collaborators.Keep
      (Catalog.ofArchive.Watches (Setting.fetching false).markers) ∧
    (RunState.run (Setting.fetching false).dry false
        { catalog := .ofArchive, session := { files := {} } }).1.progress.report.Covers
      (RunState.run (.fetching false) false
        { catalog := .ofArchive
          session := { files := {}, interrupted := false } }).1.progress.report := by
  have hkeep : (Setting.fetching false).collaborators.Keep
      (Catalog.ofArchive.Watches (Setting.fetching false).markers) :=
    .of_files_eq _ fun _ _ _ => rfl
  exact ⟨parse_ofArchive, hkeep, dry_run_covers_run parse_ofArchive hkeep _ _ _ _⟩

/-- The script `clear`, and no other call, removes the source file of unit `b`. -/
def Setting.clearing : Setting where
  collaborators := ⟨fun _ call files =>
    { result := .ok ""
      files := if call = .runScript "clear" then
          (files.remove ⟨"sources/b.list"⟩).toOption.getD files
        else files }⟩
  hostname := "host"

/-- The catalog of a document whose first unit has this script. -/
def Catalog.ofClearing : Catalog :=
  ⟨[⟨1, { name := "a", preScript? := some "clear", flags := [.lead, .virtual] }⟩,
    ⟨4, { name := "b", sources := [⟨⟨"sources/b.list"⟩, "deb b"⟩], flags := [.virtual] }⟩]⟩

/-- A file where unit `b` has its source file. -/
def Files.beforeClearing : Files where
  nodes := [(["home", "sources"], .directory),
    (["home", "sources", "b.list"], .file "deb b\n".toUTF8)]

/-- A run whose script removes the source file of a later unit does more than the dry run, which
finds the file in its place, says. -/
theorem not_covered_of_clearing :
    Document.parse ⟨"sources"⟩ ("a:\n  flags: lead, virtual\n  pre: clear\n" ++
      "b:\n  flags: virtual\n  source: b.list deb b\n").toList = .ok .ofClearing ∧
    ¬ (RunState.run Setting.clearing.dry false
        { catalog := .ofClearing, session := { files := .beforeClearing } }).1.progress.report.Covers
      (RunState.run .clearing false
        { catalog := .ofClearing, session := { files := .beforeClearing } }).1.progress.report := by
  refine ⟨by decide +kernel, ?_⟩
  rintro ⟨covering, rest, hdry, hcovers⟩
  have hforetold : covering ++ rest =
      [⟨"a", .lead, .completed, ["run pre-install script"]⟩, ⟨"b", .main, .completed, []⟩] :=
    hdry.symm.trans (by decide +kernel)
  have hdone : (RunState.run .clearing false
      { catalog := .ofClearing, session := { files := .beforeClearing } }).1.progress.report.units =
      [⟨"a", .lead, .completed, ["run pre-install script"]⟩,
        ⟨"b", .main, .completed, ["write source file sources/b.list", "refresh package index"]⟩] := by
    decide +kernel
  rw [hdone] at hcovers
  cases hcovers with
  | cons hfirst hrest =>
    cases hrest with
    | cons hsecond hnil =>
      cases hnil
      simp only [List.cons_append, List.cons.injEq] at hforetold
      obtain ⟨-, rfl, -⟩ := hforetold
      exact absurd hsecond.actions (by decide)

end Provision
