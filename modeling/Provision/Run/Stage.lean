import Provision.Catalog
import Provision.Run.Visit

/-!
# Stages

A run goes through five stages, forward only. Three of them run a bucket each, unit by unit; a run
that stops in the middle of a stage goes on with the next stage if it is run again.
-/

namespace Provision

inductive Stage where
  | notStarted
  | runningLead
  | runningMain
  | runningTrail
  | done
deriving DecidableEq, Repr

namespace Stage

def describe : Stage → String
  | notStarted => "not started"
  | runningLead => "running lead units"
  | runningMain => "running main units"
  | runningTrail => "running trail units"
  | done => "done"

def next? : Stage → Option Stage
  | notStarted => some runningLead
  | runningLead => some runningMain
  | runningMain => some runningTrail
  | runningTrail => some done
  | done => none

/-- The bucket that a stage runs. -/
def bucket? : Stage → Option Bucket
  | runningLead => some .lead
  | runningMain => some .main
  | runningTrail => some .trail
  | _ => none

/-- The stages still to come. -/
def later : Stage → List Stage
  | notStarted => [runningLead, runningMain, runningTrail, done]
  | runningLead => [runningMain, runningTrail, done]
  | runningMain => [runningTrail, done]
  | runningTrail => [done]
  | done => []

end Stage

inductive StageFault where
  | invalid (source target : Stage)
  | alreadyDone
deriving DecidableEq

def StageFault.message : StageFault → String
  | invalid source target =>
    s!"Cannot go from {source.describe} to {target.describe} (scheduler is forward-only)"
  | alreadyDone => "Scheduler is already done"

/-- How far a run has come. -/
structure Progress where
  stage : Stage := .notStarted
  history : List Stage := [.notStarted]
  report : Report := {}

namespace Progress

def enter (progress : Progress) (stage : Stage) : Progress :=
  { progress with stage, history := progress.history ++ [stage] }

/-- Only the next stage can be entered. -/
def transition (progress : Progress) (target : Stage) : Except StageFault Progress :=
  match progress.stage.next? with
  | none => .error .alreadyDone
  | some next =>
    if next = target then .ok (progress.enter target)
    else .error (.invalid progress.stage target)

end Progress

/-- All that a run changes. -/
structure RunState where
  progress : Progress := {}
  catalog : Catalog
  session : Session

namespace RunState

/-- The error that a failed unit means for a strict run. -/
def abort? (strict : Bool) (result : UnitResult) : Option RunError :=
  match result.outcome with
  | .failed fault => if strict then some (.aborted result.name fault.describe) else none
  | _ => none

/-- Visits the units of a bucket among the entries, in order, until an error ends the run. -/
def runEntries (setting : Setting) (strict : Bool) (bucket : Bucket) :
    List Entry → Report → Session → List Entry × Report × Session × Option RunError
  | [], report, session => ([], report, session, none)
  | entry :: rest, report, session =>
    if Catalog.inBucket entry.unit bucket then
      let visit := setting.visit session entry.unit
      let visited := { entry with unit := visit.unit }
      match visit.result with
      | .error error => (visited :: rest, report, visit.session, some error)
      | .ok result =>
        let session := visit.session.note (.reported result)
        let report := report.push result
        match abort? strict result with
        | some error => (visited :: rest, report, session, some error)
        | none =>
          let (entries, outcome) := runEntries setting strict bucket rest report session
          (visited :: entries, outcome)
    else
      let (entries, outcome) := runEntries setting strict bucket rest report session
      (entry :: entries, outcome)

def runBucket (setting : Setting) (strict : Bool) (bucket : Bucket) (state : RunState) :
    RunState × Option RunError :=
  let (entries, report, session, error?) :=
    runEntries setting strict bucket state.catalog.entries state.progress.report state.session
  ({ progress := { state.progress with report }, catalog := ⟨entries⟩, session }, error?)

def runStages (setting : Setting) (strict : Bool) :
    List Stage → RunState → RunState × Option RunError
  | [], state => (state, none)
  | stage :: rest, state =>
    let entered := { state with progress := state.progress.enter stage }
    match stage.bucket? with
    | none => runStages setting strict rest entered
    | some bucket =>
      match entered.runBucket setting strict bucket with
      | (ran, none) => runStages setting strict rest ran
      | (ran, some error) => (ran, some error)

/-- Runs all stages still to come. A strict run stops at the first unit that fails. -/
def run (setting : Setting) (strict : Bool) (state : RunState) :
    RunState × Except RunError Report :=
  match state.progress.stage.later with
  | [] => (state, .error (.environment StageFault.alreadyDone.message))
  | stages =>
    match runStages setting strict stages state with
    | (ran, some error) => (ran, .error error)
    | (ran, none) =>
      (ran, if ran.session.interrupted then .error .interrupted else .ok ran.progress.report)

end RunState

end Provision
