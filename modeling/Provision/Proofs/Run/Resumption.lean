import Provision.Proofs.Run.Account
import Provision.Proofs.Run.Launch
import Provision.Proofs.Run.Scene

/-!
# Runs that are stopped and resumed

A run may be stopped anywhere and resumed, its stages may be entered by hand, and anything may happen
outside in between. The stages still go forward one by one, and no unit is visited twice.
-/

namespace Provision

namespace Stage

def all : List Stage := [notStarted, runningLead, runningMain, runningTrail, done]

theorem later_of_next? {stage next : Stage} (h : stage.next? = some next) :
    stage.later = next :: next.later := by
  cases stage <;> cases h <;> rfl

theorem next?_of_later {stage next : Stage} {rest : List Stage} (h : stage.later = next :: rest) :
    stage.next? = some next ∧ rest = next.later := by
  cases stage <;> cases h <;> exact ⟨rfl, rfl⟩

end Stage

theorem Progress.transition_eq_ok_iff {progress after : Progress} {target : Stage} :
    progress.transition target = .ok after ↔
      progress.stage.next? = some target ∧ after = progress.enter target := by
  unfold transition
  cases progress.stage.next? with
  | none => simp
  | some next =>
    by_cases hnext : next = target
    · simp [hnext, eq_comm]
    · simp [hnext]

/-! ## Operations -/

/-- What may be done to a run, and what may happen outside between two runs. -/
inductive Operation where
  | transition (target : Stage)
  | run
  | outside (files : Files) (interrupted : Bool)

/-- A transition that is refused changes nothing. -/
def Operation.perform (setting : Setting) (strict : Bool) (state : RunState) : Operation → RunState
  | transition target =>
    match state.progress.transition target with
    | .ok progress => { state with progress }
    | .error _ => state
  | run => (RunState.run setting strict state).1
  | outside files interrupted => { state with session := { state.session with files, interrupted } }

def RunState.performAll (setting : Setting) (strict : Bool) (state : RunState)
    (operations : List Operation) : RunState :=
  operations.foldl (Operation.perform setting strict) state

/-- The calls that are made while a unit is visited, in order. -/
def callsFor (name : String) (trace : List Event) : List Call :=
  ((placed trace).filter fun call => call.1.unit? = some name).map Prod.snd

/-! ## What is due -/

namespace RunState

section

variable {setting : Setting} {strict : Bool} {state : RunState}

/-- The names of the units whose turn is still to come, in order. -/
def awaited (state : RunState) : List String := state.due.map Installable.name

theorem names_units_of_left {turns : List Turn} {xs ys : List Entry}
    (h : List.Forall₂ (Entry.Left setting turns) xs ys) (bucket : Bucket) :
    (units bucket ys).map Installable.name = (units bucket xs).map Installable.name := by
  unfold units
  induction h with
  | nil => rfl
  | @cons before after _ _ hfirst _ ih =>
    have hdeclared := hfirst.declared
    have hbucket := congrFun (inBucket_of_declared_eq hdeclared) bucket
    have hname : after.unit.name = before.unit.name :=
      Installable.eq_of_declared_eq hdeclared _ fun _ => rfl
    by_cases hin : Catalog.inBucket before.unit bucket = true <;> simp_all

theorem awaited_of_left {turns : List Turn} {after : RunState}
    (hstage : after.progress.stage = state.progress.stage)
    (h : List.Forall₂ (Entry.Left setting turns) state.catalog.entries after.catalog.entries) :
    after.awaited = state.awaited := by
  unfold awaited due
  rw [hstage, List.map_flatMap, List.map_flatMap]
  exact List.flatMap_congr fun bucket _ => names_units_of_left h bucket

theorem awaited_of_next? {stage : Stage} (h : state.progress.stage.next? = some stage) :
    state.awaited = (stage.bucket?.toList.flatMap (units · state.catalog.entries)).map
        Installable.name ++
      { state with progress := state.progress.enter stage }.awaited := by
  have hlater := Stage.later_of_next? h
  have hbuckets : buckets (stage :: stage.later) = stage.bucket?.toList ++ buckets stage.later := by
    cases hbucket : stage.bucket? <;> simp [buckets, hbucket]
  unfold awaited due
  rw [hlater, hbuckets, List.flatMap_append, List.map_append]
  rfl

end

end RunState

/-! ## Going on -/

/-- The visits since then, each from its beginning. -/
def VisitsSince (before after : List Event) : Prop :=
  ∃ more, after = before ++ more ∧ (more = [] ∨ ∃ name rest, more = .began name :: rest)

theorem VisitsSince.refl (trace : List Event) : VisitsSince trace trace := ⟨[], by simp, .inl rfl⟩

theorem VisitsSince.trans {a b c : List Event} (hab : VisitsSince a b) (hbc : VisitsSince b c) :
    VisitsSince a c := by
  obtain ⟨first, rfl, hfirst⟩ := hab
  obtain ⟨second, rfl, hsecond⟩ := hbc
  refine ⟨first ++ second, List.append_assoc .., ?_⟩
  rcases hfirst with rfl | ⟨name, rest, rfl⟩
  · exact hsecond
  · exact .inr ⟨name, rest ++ second, rfl⟩

theorem visitsSince_tour {setting : Setting} {strict : Bool} {session : Session}
    (units : List Installable) :
    VisitsSince session.trace (tour setting strict units session).session.trace := by
  cases units with
  | nil => exact .refl _
  | cons unit rest =>
    have hbegan : (session.note (.began unit.name)).trace <+:
        (tour setting strict (unit :: rest) session).session.trace :=
      (began_prefix_visit setting session unit).trans (visit_prefix_tour unit rest)
    obtain ⟨more, hmore⟩ := hbegan
    refine ⟨.began unit.name :: more, ?_, .inr ⟨unit.name, more, rfl⟩⟩
    rw [← hmore, Session.note, List.append_assoc]
    rfl

/-- How a run goes on: stage by stage, and unit by unit among those that were still awaited. -/
structure Onward (before after : RunState) : Prop where
  stages : after.progress.history ++ after.progress.stage.later =
    before.progress.history ++ before.progress.stage.later
  stage : before.progress.history.getLast? = some before.progress.stage →
    after.progress.history.getLast? = some after.progress.stage
  visits : (begun after.session.trace ++ after.awaited).Sublist
    (begun before.session.trace ++ before.awaited)
  since : VisitsSince before.session.trace after.session.trace

namespace Onward

variable {setting : Setting} {strict : Bool} {a b c state : RunState} {stage : Stage}

theorem refl (state : RunState) : Onward state state := ⟨rfl, id, .refl _, .refl _⟩

theorem trans (hab : Onward a b) (hbc : Onward b c) : Onward a c :=
  ⟨hbc.stages.trans hab.stages, hbc.stage ∘ hab.stage, hbc.visits.trans hab.visits,
    hab.since.trans hbc.since⟩

theorem enter (h : state.progress.stage.next? = some stage) :
    Onward state { state with progress := state.progress.enter stage } where
  stages := by simp [Progress.enter, Stage.later_of_next? h]
  stage _ := by simp [Progress.enter]
  visits := by
    rw [RunState.awaited_of_next? h]
    exact (List.sublist_append_right _ _).append_left _
  since := .refl _

/-- The units of the stage that is entered are no longer awaited: some are visited, the others never
will be. -/
theorem runBucket {bucket : Bucket} (h : state.progress.stage.next? = some stage)
    (hbucket : stage.bucket? = some bucket) :
    Onward state (RunState.runBucket setting strict bucket
      { state with progress := state.progress.enter stage }).1 := by
  let entered : RunState := { state with progress := state.progress.enter stage }
  have hentered : Onward state entered := .enter h
  have hran : RunState.LedBy setting entered (RunState.runBucket setting strict bucket entered).1 _
      (tour setting strict (RunState.units bucket state.catalog.entries) state.session) :=
    RunState.runBucket_ledBy bucket entered
  have hprogress : (RunState.runBucket setting strict bucket entered).1.progress.stage =
      entered.progress.stage ∧
      (RunState.runBucket setting strict bucket entered).1.progress.history =
        entered.progress.history := ⟨rfl, rfl⟩
  refine ⟨?_, ?_, ?_, ?_⟩
  · rw [hprogress.1, hprogress.2]
    exact hentered.stages
  · intro hlast
    rw [hprogress.1, hprogress.2]
    exact hentered.stage hlast
  · have hturns := ((prefix_turns_tour setting strict state.session
      (RunState.units bucket state.catalog.entries)).map Installable.name).sublist
    rw [List.map_map] at hturns
    rw [RunState.awaited_of_left hprogress.1 hran.entries, RunState.awaited_of_next? h, hran.session,
      begun_tour, hbucket, List.append_assoc]
    refine List.Sublist.append_left (List.Sublist.append_right ?_ _) _
    simpa [Function.comp_def] using hturns
  · rw [hran.session]
    exact visitsSince_tour _

theorem runStages (stages : List Stage) (hstages : state.progress.stage.later = stages) :
    Onward state (RunState.runStages setting strict stages state).1 := by
  -- At each step the stages that are left are those after the one that the run has come to.
  induction stages generalizing state with
  | nil => exact .refl state
  | cons stage rest ih =>
    obtain ⟨hnext, rfl⟩ := Stage.next?_of_later hstages
    unfold RunState.runStages
    cases hbucket : stage.bucket? with
    | none => exact (Onward.enter hnext).trans (ih rfl)
    | some bucket =>
      have hran : Onward state (RunState.runBucket setting strict bucket
          { state with progress := state.progress.enter stage }).1 := .runBucket hnext hbucket
      have hstage : (RunState.runBucket setting strict bucket
          { state with progress := state.progress.enter stage }).1.progress.stage = stage := rfl
      simp only
      split
      · next ran heq =>
        rw [heq] at hran hstage
        exact hran.trans (ih (congrArg Stage.later hstage))
      · next ran error heq =>
        rw [heq] at hran
        exact hran

theorem perform (operation : Operation) :
    Onward state (operation.perform setting strict state) := by
  cases operation with
  | transition target =>
    simp only [Operation.perform]
    split
    · next progress hok =>
      obtain ⟨hnext, rfl⟩ := Progress.transition_eq_ok_iff.mp hok
      exact .enter hnext
    · exact .refl state
  | run =>
    have hran : Onward state
        (RunState.runStages setting strict state.progress.stage.later state).1 := .runStages _ rfl
    rw [← RunState.run_fst setting strict] at hran
    exact hran
  | outside files interrupted => exact ⟨rfl, id, .refl _, .refl _⟩

theorem performAll (operations : List Operation) :
    Onward state (state.performAll setting strict operations) := by
  induction operations generalizing state with
  | nil => exact .refl state
  | cons operation rest ih => exact (Onward.perform operation).trans ih

end Onward

/-! ## The calls of a unit -/

/-- A call is made for the unit of the scene, or for one whose visit begins before it. -/
theorem unit?_of_placedFrom {here : Scene} {trace : List Event} {call : Scene × Call}
    (h : call ∈ placedFrom here trace) :
    call.1.unit? = here.unit? ∨ ∃ name ∈ begun trace, call.1.unit? = some name := by
  induction trace generalizing here with
  | nil => cases h
  | cons event rest ih =>
    rw [placedFrom, List.mem_append] at h
    rcases h with h | h
    · cases hcall : event.call? with
      | none => simp [hcall] at h
      | some made =>
        obtain rfl : call = (here, made) := by simpa [hcall] using h
        exact .inl rfl
    · have hbegun : begun (event :: rest) = event.begun?.toList ++ begun rest := by
        cases hevent : event.begun? <;> simp [begun, hevent]
      rw [hbegun]
      rcases ih h with hunit | ⟨name, hname, hunit⟩
      · cases event with
        | began name => exact .inr ⟨name, by simp [Event.begun?], hunit⟩
        | _ => exact .inl hunit
      · exact .inr ⟨name, List.mem_append_right _ hname, hunit⟩

theorem callsFor_of_visitsSince {before after : List Event} (h : VisitsSince before after)
    (honce : (begun after).Nodup) {name : String} (hname : name ∈ begun before) :
    callsFor name after = callsFor name before := by
  obtain ⟨more, rfl, hmore⟩ := h
  rw [begun_append, List.nodup_append] at honce
  have hother : ∀ call ∈ placedFrom (scene before) more, call.1.unit? ≠ some name := by
    intro call hcall hunit
    rcases hmore with rfl | ⟨first, rest, rfl⟩
    · cases hcall
    · have hcall : call ∈ placedFrom ⟨some first, none⟩ rest := hcall
      have hplaced : ∃ other ∈ begun (.began first :: rest), call.1.unit? = some other := by
        rcases unit?_of_placedFrom hcall with hfirst | ⟨other, hmem, hother⟩
        · exact ⟨first, List.mem_cons_self, hfirst⟩
        · exact ⟨other, List.mem_cons_of_mem _ hmem, hother⟩
      obtain ⟨other, hmem, hsame⟩ := hplaced
      obtain rfl : name = other := by simpa [hunit] using hsame
      exact honce.2.2 name hname name hmem rfl
  have hnone : (placedFrom (scene before) more).filter (fun call => call.1.unit? = some name) = [] := by
    rw [List.filter_eq_nil_iff]
    intro call hcall
    simpa using hother call hcall
  unfold callsFor placed
  rw [placedFrom_append, List.filter_append, ← scene, hnone, List.append_nil]

/-! ## Sequences of operations -/

/-- What operations on one run have come to, `first` some of them and `last` all. -/
structure Forward (setting : Setting) (strict : Bool) (catalog : Catalog) (first last : RunState) :
    Prop where
  history : last.progress.history <+: Stage.all
  stage : last.progress.history.getLast? = some last.progress.stage
  /-- Only the next stage can be entered, and a refusal changes nothing. -/
  accepted : ∀ target progress, last.progress.transition target = .ok progress ↔
    last.progress.stage.next? = some target ∧ progress = last.progress.enter target
  refused : ∀ target fault, last.progress.transition target = .error fault →
    (Operation.transition target).perform setting strict last = last
  /-- Units are visited in their order, each at most once. -/
  order : (begun last.session.trace).Sublist (catalog.runOrder.map (·.unit.name))
  once : (begun last.session.trace).Nodup
  calls : ∀ name ∈ begun first.session.trace,
    callsFor name last.session.trace = callsFor name first.session.trace

/-- Whatever is done to a run in whatever order, it goes forward and repeats nothing. -/
theorem forward_of_operations {catalog : Catalog}
    (hone : ∀ entry ∈ catalog.entries, entry.unit.OneBucket) (hdistinct : catalog.names.Nodup)
    (setting : Setting) (strict : Bool) (files : Files) (interrupted : Bool)
    (first second : List Operation) :
    Forward setting strict catalog
      (RunState.performAll setting strict { catalog, session := { files, interrupted } } first)
      (RunState.performAll setting strict { catalog, session := { files, interrupted } }
        (first ++ second)) := by
  let start : RunState := { catalog, session := { files, interrupted } }
  have hlast : Onward start (start.performAll setting strict (first ++ second)) := .performAll _
  have hsince : Onward (start.performAll setting strict first)
      (start.performAll setting strict (first ++ second)) := by
    rw [RunState.performAll, RunState.performAll, List.foldl_append]
    exact .performAll second
  have hawaited : start.awaited = catalog.runOrder.map (·.unit.name) := by
    rw [RunState.awaited, RunState.due_of_fresh, List.map_map]
    rfl
  -- At the start every unit is awaited, in the order of a run.
  have horder : (begun (start.performAll setting strict (first ++ second)).session.trace).Sublist
      (catalog.runOrder.map (·.unit.name)) := by
    rw [← hawaited]
    exact (List.sublist_append_left _ _).trans hlast.visits
  have honce := horder.nodup (Catalog.nodup_names_runOrder_of_nodup hone hdistinct)
  refine ⟨⟨_, hlast.stages⟩, hlast.stage rfl, fun _ _ => Progress.transition_eq_ok_iff, ?_, horder,
    honce, fun name hname => callsFor_of_visitsSince hsince.since honce hname⟩
  intro target fault hrefused
  simp only [Operation.perform, hrefused]

/-- Nothing can be reinstalled, so every strict run ends at its first package. -/
def Setting.refusing : Setting where
  collaborators := ⟨fun _ _ files => { result := .error ⟨"no package", []⟩, files }⟩
  hostname := "host"

/-- One package for each bucket. -/
def Catalog.ofBuckets : Catalog :=
  ⟨[⟨1, { name := "c", flags := [.trail] }⟩, ⟨3, { name := "b" }⟩,
    ⟨4, { name := "a", flags := [.lead] }⟩]⟩

/-- Two runs are aborted, with a transition that is refused between them. -/
theorem forward_of_aborted_runs :
    (∀ entry ∈ Catalog.ofBuckets.entries, entry.unit.OneBucket) ∧
    Catalog.ofBuckets.names.Nodup ∧
    (RunState.performAll .refusing true
      { catalog := .ofBuckets, session := { files := {}, interrupted := false } }
      ([.run] ++ [.transition .done, .run])).session.calls = [.reinstall "a", .reinstall "b"] ∧
    Forward .refusing true .ofBuckets
      (RunState.performAll .refusing true
        { catalog := .ofBuckets, session := { files := {}, interrupted := false } } [.run])
      (RunState.performAll .refusing true
        { catalog := .ofBuckets, session := { files := {}, interrupted := false } }
        ([.run] ++ [.transition .done, .run])) := by
  have hone : ∀ entry ∈ Catalog.ofBuckets.entries, entry.unit.OneBucket := by
    unfold Installable.OneBucket
    decide +kernel
  have hdistinct : Catalog.ofBuckets.names.Nodup := by decide +kernel
  exact ⟨hone, hdistinct, by decide +kernel, forward_of_operations hone hdistinct _ _ _ _ _ _⟩

end Provision
